import Refract.Core.Error
import Refract.Gateway.Cache
import Refract.Machine.Interleaving
import Refract.Machine.Stamped
import Refract.Store.Key

open refract.core refract.machine refract.router refract.store refract.upstream

namespace refract.gateway

inductive UserRole where
  | user
  | admin
  deriving DecidableEq, Repr

/-- A user, as far as sessions depend on it. Revocations are dated by the second. -/
structure CachedUser where
  role : UserRole
  status : UserStatus
  session_revoked_at : Option Nat
  email : String
  deriving DecidableEq, Repr

/-- A session ticket. Its signature is left out: the tickets that were signed are
    those that were issued. -/
structure Ticket where
  user_id : Int
  iat : Nat
  expiry : Nat
  deriving DecidableEq, Repr

def SESSION_MAX_AGE_SECS : Nat := 7 * 24 * 3600

structure AuthUser where
  user_id : Option Int
  email : String
  role : UserRole
  status : UserStatus
  deriving DecidableEq, Repr

/-- Why a ticket is turned away. -/
inductive Refusal where
  | invalid_session
  | unknown_user
  | revoked
  | disabled
  | database
  deriving DecidableEq, Repr

namespace Refusal

/-- The store's own error stands for a failure of the database. -/
def error (store : GatewayError) : Refusal → GatewayError
  | .invalid_session => .new .unauthenticated "invalid or expired session"
  | .unknown_user => .new .unauthenticated "session user no longer exists"
  | .revoked => .new .unauthenticated "session has been revoked"
  | .disabled => .new .permissionDenied "account is disabled"
  | .database => store

/-- It is the ticket that is not good, whatever its user. -/
def blames_ticket : Refusal → Bool
  | .invalid_session | .revoked => true
  | .unknown_user | .disabled | .database => false

end Refusal

/-- The session was revoked in the second of the ticket or later. -/
def CachedUser.rejects (self : CachedUser) (ticket : Ticket) : Bool := self.session_revoked_at.any (ticket.iat ≤ ·)

def judge (ticket : Ticket) (user : CachedUser) : Except Refusal AuthUser :=
  if user.rejects ticket then .error .revoked
  else if user.status = .disabled then .error .disabled
  else .ok { user_id := some ticket.user_id, email := user.email, role := user.role, status := user.status }

/-- The answer to a ticket, and what there was to know about it. -/
structure Answer where
  ticket : Ticket
  verdict : Except Refusal AuthUser
  /-- Before how many revocations the ticket was issued, each time. -/
  issues : List Nat
  expired : Bool
  /-- The revocations of the user that were completed. -/
  known : Nat
  /-- The revocations of the user that were written. -/
  revocations : Nat

/-- A change of a user. -/
inductive UserChange where
  | set_role (role : UserRole)
  | set_status (status : UserStatus)
  | mark_email_verified
  /-- The sessions are revoked, for themselves or with the password. -/
  | revoke_sessions
  deriving DecidableEq, Repr

def UserChange.apply (second : Nat) (user : CachedUser) : UserChange → CachedUser
  | .set_role role => { user with role }
  | .set_status status => { user with status }
  | .mark_email_verified => if user.status = .pending_verification then { user with status := .active } else user
  | .revoke_sessions => { user with session_revoked_at := some second }

/-- The stored users and the tickets that were signed. -/
structure Registry where
  users : Int → Option CachedUser
  revocations : Int → Nat := fun _ => 0
  /-- Every ticket with the revocations there had been when it was issued. -/
  issued : List (Stamped Ticket) := []

namespace Registry

variable (self : Registry) (second : Nat) (user_id : Int)

/-- The row of a user, as it is read now. -/
def read : Option (Stamped CachedUser) := (self.users user_id).map fun user => ⟨user, self.revocations user_id⟩

/-- Changes the row of a user. -/
def write (user : CachedUser) (change : UserChange) : Registry :=
  { self with
    users := Function.update self.users user_id (some (change.apply second user))
    revocations :=
      if change = .revoke_sessions then Function.update self.revocations user_id (self.revocations user_id + 1)
      else self.revocations }

def register (user : CachedUser) : Registry := { self with users := Function.update self.users user_id (some user) }

def create_user_session_ticket : Registry :=
  let ticket : Ticket := { user_id, iat := second, expiry := second + SESSION_MAX_AGE_SECS }
  { self with issued := self.issued ++ [⟨ticket, self.revocations user_id⟩] }

variable (user : CachedUser) (change : UserChange) (other : Int)

@[simp] theorem users_register : (self.register user_id user).users other = if other = user_id then some user else self.users other :=
  Function.update_apply ..

@[simp] theorem users_write : (self.write second user_id user change).users other =
    if other = user_id then some (change.apply second user) else self.users other :=
  Function.update_apply ..

@[simp] theorem revocations_write : (self.write second user_id user change).revocations other =
    self.revocations other + if change = .revoke_sessions ∧ other = user_id then 1 else 0 := by
  by_cases hchange : change = .revoke_sessions
  · by_cases hother : other = user_id <;> simp [write, hchange, hother]
  · simp [write, hchange]

end Registry

/-- What is shared by everything that has to do with sessions. -/
structure Sessions where
  registry : Registry
  /-- Every user with the revocations there had been when it was read. -/
  user_cache : TtlCache Int (Stamped CachedUser)
  /-- How many revocations of every user are completed. -/
  known : Int → Nat := fun _ => 0
  now : Instant := 0
  answers : List Answer := []

inductive SessionRequest where
  | check (ticket : Ticket)
  | login (user_id : Int)
  | change_password (user_id : Int)
  | reset_password (user_id : Int)
  | disable_user (user_id : Int)
  | enable_user (user_id : Int)
  | set_role (user_id : Int) (role : UserRole)
  | verify_email (user_id : Int)

/-- An operation on sessions under way. -/
inductive SessionUse where
  | arrived (request : SessionRequest)
  | checking (ticket : Ticket)
  | missed (ticket : Ticket)
  | caching (ticket : Ticket) (user : Stamped CachedUser)
  /-- Changes of a user that are not made yet, the number of the revocation that
      was, and whether a new ticket follows. -/
  | writing (user_id : Int) (changes : List UserChange) (revocations : Nat) (renews : Bool)
  | issuing (user_id : Int)

def SessionRequest.start : SessionRequest → SessionUse
  | .check ticket => .checking ticket
  | .login user_id => .issuing user_id
  | .change_password user_id => .writing user_id [.revoke_sessions] 0 true
  | .reset_password user_id => .writing user_id [.revoke_sessions] 0 false
  | .disable_user user_id => .writing user_id [.set_status .disabled, .revoke_sessions] 0 false
  | .enable_user user_id => .writing user_id [.set_status .active] 0 false
  | .set_role user_id role => .writing user_id [.set_role role] 0 false
  | .verify_email user_id => .writing user_id [.mark_email_verified] 0 false

namespace Sessions

variable (self : Sessions)

def second : Nat := self.now / Duration.from_secs 1

def answered (ticket : Ticket) (verdict : Except Refusal AuthUser) : Answer where
  ticket := ticket
  verdict := verdict
  issues := (self.registry.issued.filter (·.value = ticket)).map (·.stamp)
  expired := ticket.expiry ≤ self.second
  known := self.known ticket.user_id
  revocations := self.registry.revocations ticket.user_id

def answer (ticket : Ticket) (verdict : Except Refusal AuthUser) : Sessions :=
  { self with answers := self.answers ++ [self.answered ticket verdict] }

def verify_session_ticket (ticket : Ticket) : Bool :=
  self.second < ticket.expiry && self.registry.issued.any (·.value = ticket)

def enter (registry : Registry) : Sessions := { self with registry }

def cache (user_cache : TtlCache Int (Stamped CachedUser)) : Sessions := { self with user_cache }

/-- The cached row of a user goes, which completes the revocations up to a
    number. -/
def invalidate_user_cache (user_id : Int) (revocations : Nat) : Sessions :=
  { self with
    user_cache := self.user_cache.invalidate user_id
    known := Function.update self.known user_id (max (self.known user_id) revocations) }

theorem known_invalidate_user_cache (user_id other : Int) (revocations : Nat) :
    (self.invalidate_user_cache user_id revocations).known other =
      if other = user_id then max (self.known user_id) revocations else self.known other :=
  Function.update_apply ..

end Sessions

/-- The next step of an operation. A fault is an error of the database. -/
def SessionUse.advance (shared : Sessions) (use : SessionUse) (fault : Bool) : Sessions × Option SessionUse :=
  match use with
  | .arrived request => (shared, some request.start)
  | .checking ticket =>
    if !shared.verify_session_ticket ticket then (shared.answer ticket (.error .invalid_session), none)
    else
      let found := shared.user_cache.get ticket.user_id shared.now
      match found.1 with
      | some user => ((shared.cache found.2).answer ticket (judge ticket user.value), none)
      | none => (shared.cache found.2, some (.missed ticket))
  | .missed ticket =>
    if fault then (shared.answer ticket (.error .database), none)
    else
      match shared.registry.read ticket.user_id with
      | some user => (shared, some (.caching ticket user))
      | none => (shared.answer ticket (.error .unknown_user), none)
  | .caching ticket user =>
    ((shared.cache (shared.user_cache.insert ticket.user_id user shared.now)).answer ticket (judge ticket user.value), none)
  | .writing user_id [] revocations renews =>
    (shared.invalidate_user_cache user_id revocations, if renews then some (.issuing user_id) else none)
  | .writing user_id (change :: changes) revocations renews =>
    if fault then (shared, none)
    else
      match shared.registry.users user_id with
      | some user =>
        let registry := shared.registry.write shared.second user_id user change
        (shared.enter registry,
          some (.writing user_id changes (if change = .revoke_sessions then registry.revocations user_id else revocations) renews))
      | none => (shared, none)
  | .issuing user_id => (shared.enter (shared.registry.create_user_session_ticket shared.second user_id), none)

/-- What else happens: time passes, and users register. -/
inductive SessionEvent where
  | tick (elapsed : Nat)
  | register (user_id : Int) (role : UserRole) (status : UserStatus) (email : String)

def SessionEvent.perform (shared : Sessions) : SessionEvent → Sessions
  | .tick elapsed => { shared with now := shared.now + elapsed }
  | .register user_id role status email =>
    if (shared.registry.users user_id).isSome then shared
    else shared.enter (shared.registry.register user_id { role, status, session_revoked_at := none, email })

/-- Checks of tickets, logins, and changes of users, each in its own time. -/
def session_uses : Interleaving Sessions SessionUse Bool SessionEvent where
  opens
    | .arrived _ => true
    | _ => false
  advance := SessionUse.advance
  happen := SessionEvent.perform

/-- No row of a user is cached, or judged by, that was read before a revocation
    that is completed, and no ticket is issued in the second of a revocation. -/
def Prudent (world : World Sessions SessionUse) : Move SessionUse Bool SessionEvent → Prop
  | .advance id _ =>
    match world.pending id with
    | some (.caching ticket user) => world.shared.known ticket.user_id ≤ user.stamp
    | some (.issuing user_id) =>
      ∀ user second, world.shared.registry.users user_id = some user → user.session_revoked_at = some second →
        second < world.shared.second
    | _ => True
  | _ => True

/-- No ticket that was issued before a completed revocation is accepted, and one
    that was issued after all of them is not to blame before it expires. -/
structure Answer.Sound (answer : Answer) : Prop where
  revoked : ∀ user, answer.verdict = .ok user → ∀ n ∈ answer.issues, answer.known ≤ n
  accepted : answer.expired = false → ∀ n ∈ answer.issues, answer.revocations ≤ n →
    ∀ refusal, answer.verdict = .error refusal → refusal.blames_ticket = false

end refract.gateway
