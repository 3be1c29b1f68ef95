import Refract.Gateway.Session
import Refract.Machine.Program

open refract.core refract.machine refract.store

namespace refract.gateway.users

/-- A row of the table of users. Revocations are dated by the second. -/
structure User where
  id : Int
  email : String
  display_name : String
  role : UserRole
  status : UserStatus
  session_revoked_at : Option Nat
  deriving DecidableEq, Repr

/-- An administrator who can log in. -/
def User.is_active_admin (self : User) : Bool := self.role = .admin && self.status = .active

/-- The table of users, with what the gateway has cached of it. -/
structure Users where
  rows : List User
  user_cache : TtlCache Int CachedUser
  second : Nat

/-- A statement of the handlers, or a word to the cache between two of them. -/
inductive UserStatement where
  | find_by_id (id : Int)
  | count_admins
  | set_display_name (id : Int) (display_name : String)
  | set_role (id : Int) (role : UserRole)
  | set_status (id : Int) (status : UserStatus)
  | revoke_sessions (id : Int)
  | invalidate_user_cache (id : Int)
  deriving DecidableEq, Repr

@[reducible] def UserStatement.Reply : UserStatement → Type
  | .find_by_id _ => Option User
  | .count_admins => Nat
  | _ => Unit

abbrev UserProgram (α : Type) : Type := Program UserStatement UserStatement.Reply GatewayError α

def user_not_found (id : Int) : GatewayError := .new .notFound ("user `" ++ toString id ++ "` not found")

namespace Users

variable (self : Users) (id : Int)

def find_by_id : Option User := self.rows.find? (·.id = id)

/-- The status of an administrator does not matter. -/
def count_admins : Nat := self.rows.countP (·.role = .admin)

/-- Changes the row of an id. There must be one. -/
def update_row (change : User → User) : Except GatewayError (Unit × Users) :=
  if self.rows.any (·.id = id) then
    .ok ((), { self with rows := self.rows.map fun user => if user.id = id then change user else user })
  else .error (user_not_found id)

def set_display_name (display_name : String) := self.update_row id ({ · with display_name })

def set_role (role : UserRole) := self.update_row id ({ · with role })

def set_status (status : UserStatus) := self.update_row id ({ · with status })

def revoke_sessions := self.update_row id ({ · with session_revoked_at := some self.second })

def invalidate_user_cache : Users := { self with user_cache := self.user_cache.invalidate id }

def execute : Executor Users UserStatement UserStatement.Reply GatewayError := fun users statement =>
  match statement with
  | .find_by_id id => .ok (users.find_by_id id, users)
  | .count_admins => .ok (users.count_admins, users)
  | .set_display_name id display_name => users.set_display_name id display_name
  | .set_role id role => users.set_role id role
  | .set_status id status => users.set_status id status
  | .revoke_sessions id => users.revoke_sessions id
  | .invalidate_user_cache id => .ok ((), users.invalidate_user_cache id)

end Users

namespace UserRepo

def find_by_id (id : Int) : UserProgram (Option User) := .call (UserStatement.find_by_id id)

def count_admins : UserProgram Nat := .call UserStatement.count_admins

def set_display_name (id : Int) (display_name : String) : UserProgram Unit :=
  .call (UserStatement.set_display_name id display_name)

def set_role (id : Int) (role : UserRole) : UserProgram Unit := .call (UserStatement.set_role id role)

def set_status (id : Int) (status : UserStatus) : UserProgram Unit := .call (UserStatement.set_status id status)

def revoke_sessions (id : Int) : UserProgram Unit := .call (UserStatement.revoke_sessions id)

end UserRepo

section Handlers

def invalidate_user_cache (id : Int) : UserProgram Unit := .call (UserStatement.invalidate_user_cache id)

structure UpdateUserBody where
  display_name : Option String
  role : Option UserRole
  status : Option UserStatus
  deriving DecidableEq, Repr

def load_user (id : Int) : UserProgram User := do
  let found ← UserRepo.find_by_id id
  .check (found.elim (.error (user_not_found id)) .ok)

def rename (id : Int) : Option String → UserProgram Unit
  | none => pure ()
  | some name => UserRepo.set_display_name id name

/-- The last administrator is not demoted, as far as the count tells. -/
def check_demotion (user : User) (role : UserRole) : UserProgram Unit :=
  if user.role = .admin ∧ role ≠ .admin then do
    let admins ← UserRepo.count_admins
    .check (if admins ≤ 1 then .error (.invalid_request "cannot demote the last admin") else .ok ())
  else pure ()

def change_role (id : Int) (user : User) (role : UserRole) : UserProgram Unit :=
  if role = user.role then pure ()
  else do
    check_demotion user role
    UserRepo.set_role id role
    invalidate_user_cache id

def revoke_disabled (id : Int) (status : UserStatus) : UserProgram Unit :=
  if status = .disabled then UserRepo.revoke_sessions id else pure ()

def change_status (id : Int) (user : User) (status : UserStatus) : UserProgram Unit :=
  if status = user.status then pure ()
  else do
    UserRepo.set_status id status
    revoke_disabled id status
    invalidate_user_cache id

def update_user (id : Int) (body : UpdateUserBody) : UserProgram User := do
  let user ← load_user id
  rename id body.display_name
  body.role.elim (pure ()) (change_role id user)
  body.status.elim (pure ()) (change_status id user)
  load_user id

def disable_user (id : Int) : UserProgram Unit := do
  let _ ← load_user id
  UserRepo.set_status id .disabled
  UserRepo.revoke_sessions id
  invalidate_user_cache id

def enable_user (id : Int) : UserProgram Unit := do
  let _ ← load_user id
  UserRepo.set_status id .active
  invalidate_user_cache id

/-- A request of an administrator, whom `require_admin_user` has let in. -/
inductive UserRequest where
  | update (id : Int) (body : UpdateUserBody)
  | disable (id : Int)
  | enable (id : Int)

def UserRequest.handle : UserRequest → UserProgram Unit
  | .update id body => do
    let _ ← update_user id body
    pure ()
  | .disable id => disable_user id
  | .enable id => enable_user id

end Handlers

/-- Time passes. -/
def Users.tick (self : Users) (seconds : Nat) : Users := { self with second := self.second + seconds }

abbrev UserCourse : Type := machine.Course UserRequest UserStatement UserStatement.Reply GatewayError Unit

/-- Requests on users whose statements are carried out in any order. -/
def user_requests : Interleaving Users UserCourse (Option GatewayError) Nat :=
  courses UserRequest.handle Users.execute Users.tick

section Administrators

/-- Somebody can log in and is an administrator. -/
def Users.Governed (self : Users) : Prop := ∃ user ∈ self.rows, user.is_active_admin

instance governedDecidable (users : Users) : Decidable users.Governed :=
  inferInstanceAs (Decidable (∃ user ∈ users.rows, _))

/-- Another user is an active administrator. -/
def Users.Another (self : Users) (id : Int) : Prop := ∃ user ∈ self.rows, user.id ≠ id ∧ user.is_active_admin

/-- A role other than that of an administrator, and a status other than active,
    is written while another user is an active administrator. -/
def Spares (users : Users) : UserStatement → Prop
  | .set_role id role => role = .admin ∨ users.Another id
  | .set_status id status => status = .active ∨ users.Another id
  | _ => True

variable {users after : Users} {id : Int}

theorem update_row_ok {change : User → User} {reply : Unit} (hok : users.update_row id change = .ok (reply, after)) :
    after = { users with rows := users.rows.map fun user => if user.id = id then change user else user } := by
  unfold Users.update_row at hok
  split at hok
  · exact (Prod.mk.inj (Except.ok.inj hok)).2.symm
  · cases hok

/-- A change of one row leaves the others, and depends on what becomes of that
    one otherwise. -/
theorem governed_update_row {change : User → User} {reply : Unit} (hok : users.update_row id change = .ok (reply, after)) :
    after.Governed ↔ users.Another id ∨ ∃ user ∈ users.rows, user.id = id ∧ (change user).is_active_admin := by
  rw [update_row_ok hok]
  constructor
  · rintro ⟨changed, hmem, hadmin⟩
    obtain ⟨user, huser, rfl⟩ := List.mem_map.mp hmem
    by_cases hid : user.id = id
    · rw [if_pos hid] at hadmin
      exact .inr ⟨user, huser, hid, hadmin⟩
    · rw [if_neg hid] at hadmin
      exact .inl ⟨user, huser, hid, hadmin⟩
  · rintro (⟨user, huser, hid, hadmin⟩ | ⟨user, huser, hid, hadmin⟩)
    · exact ⟨user, List.mem_map.mpr ⟨user, huser, if_neg hid⟩, hadmin⟩
    · exact ⟨change user, List.mem_map.mpr ⟨user, huser, if_pos hid⟩, hadmin⟩

/-- With an active administrator there, either he is another one or he is the
    user himself. -/
theorem Users.Governed.cases (hgoverned : users.Governed) (id : Int) :
    users.Another id ∨ ∃ user ∈ users.rows, user.id = id ∧ user.is_active_admin := by
  obtain ⟨user, huser, hadmin⟩ := hgoverned
  by_cases hid : user.id = id
  · exact .inr ⟨user, huser, hid, hadmin⟩
  · exact .inl ⟨user, huser, hid, hadmin⟩

/-- A change that leaves no administrator an administrator needs another one. -/
theorem governed_update_row_of_loses {change : User → User} {reply : Unit} (hloses : ∀ user, (change user).is_active_admin = false)
    (hok : users.update_row id change = .ok (reply, after)) : after.Governed ↔ users.Another id := by
  rw [governed_update_row hok]
  refine or_iff_left ?_
  rintro ⟨user, -, -, hadmin⟩
  rw [hloses user] at hadmin
  cases hadmin

theorem governed_update_row_of_keeps {change : User → User} {reply : Unit}
    (hkeeps : ∀ user : User, user.is_active_admin → (change user).is_active_admin) (hgoverned : users.Governed)
    (hok : users.update_row id change = .ok (reply, after)) : after.Governed := by
  rw [governed_update_row hok]
  exact (hgoverned.cases id).imp_right fun ⟨user, huser, hid, hadmin⟩ => ⟨user, huser, hid, hkeeps user hadmin⟩

/-- What one statement does to the administrators. -/
theorem execute_governed (hgoverned : users.Governed) (statement : UserStatement) (reply : statement.Reply)
    (hok : users.execute statement = .ok (reply, after)) : after.Governed ↔ Spares users statement := by
  cases statement with
  | find_by_id id =>
    obtain ⟨-, rfl⟩ := Prod.mk.inj (Except.ok.inj hok)
    exact iff_of_true hgoverned trivial
  | count_admins =>
    obtain ⟨-, rfl⟩ := Prod.mk.inj (Except.ok.inj hok)
    exact iff_of_true hgoverned trivial
  | set_display_name id display_name =>
    have hrow : users.update_row id ({ · with display_name }) = .ok (reply, after) := hok
    refine iff_of_true (governed_update_row_of_keeps ?_ hgoverned hrow) trivial
    exact fun _ hadmin => hadmin
  | set_role id role =>
    cases role with
    | admin =>
      refine iff_of_true (governed_update_row_of_keeps (fun user hadmin => ?_) hgoverned hok) (.inl rfl)
      simp only [User.is_active_admin, Bool.and_eq_true] at hadmin ⊢
      exact ⟨rfl, hadmin.2⟩
    | user =>
      rw [governed_update_row_of_loses (fun _ => rfl) hok]
      simp [Spares]
  | set_status id status =>
    by_cases hstatus : status = .active
    · refine iff_of_true (governed_update_row_of_keeps (fun user hadmin => ?_) hgoverned hok) (.inl hstatus)
      simp only [User.is_active_admin, Bool.and_eq_true] at hadmin ⊢
      exact ⟨hadmin.1, decide_eq_true hstatus⟩
    · rw [governed_update_row_of_loses (fun user => by simp [User.is_active_admin, hstatus]) hok]
      simp [Spares, hstatus]
  | revoke_sessions id =>
    have hrow : users.update_row id ({ · with session_revoked_at := some users.second }) = .ok (reply, after) := hok
    refine iff_of_true (governed_update_row_of_keeps ?_ hgoverned hrow) trivial
    exact fun _ hadmin => hadmin
  | invalidate_user_cache id =>
    obtain ⟨-, rfl⟩ := Prod.mk.inj (Except.ok.inj hok)
    exact iff_of_true hgoverned trivial

/-- A gateway with an administrator who can log in keeps one throughout exactly
    the runs that take the role or the status of an administrator from nobody
    who is the only one. -/
theorem governed_throughout_iff (hgoverned : users.Governed) (moves : List (Move UserCourse (Option GatewayError) Nat)) :
    Throughout user_requests.step (fun world => world.shared.Governed) (.idle users) moves ↔
      Along user_requests.step (Issued Users.execute Spares) (.idle users) moves :=
  throughout_iff_along (P := fun world : World Users UserCourse => world.shared.Governed)
    (fun _ move hworld => courses_step_iff (P := Users.Governed)
      (fun _ statement reply _ hbefore hok => execute_governed hbefore statement reply hok)
      (fun users seconds hbefore => show (users.tick seconds).Governed from hbefore) hworld move) hgoverned

section Runs

def admin (id : Int) : User where
  id := id
  email := "admin" ++ toString id ++ "@localhost"
  display_name := "Admin"
  role := .admin
  status := .active
  session_revoked_at := none

def admins (ids : List Int) : Users where
  rows := ids.map admin
  user_cache := { ttl := 30 }
  second := 0

/-- A request that is carried out without a pause. -/
def carried_out (id : Nat) (request : UserRequest) (statements : Nat) : List (Move UserCourse (Option GatewayError) Nat) :=
  .begin id (.arrived request) :: List.replicate (statements + 1) (.advance id none)

theorem governed_while_one_of_two_is_disabled :
    Throughout user_requests.step (fun world => world.shared.Governed) (.idle (admins [1, 2])) (carried_out 0 (.disable 1) 2) := by
  refine (governed_throughout_iff (show (admins [1, 2]).Governed by decide) _).mpr ⟨trivial, trivial, fun _ _ _ => trivial, ?_, trivial⟩
  exact fun _ _ _ => .inr ⟨admin 2, by decide, by decide, by decide⟩

/-- The only administrator disables himself. -/
theorem sole_admin_disables_himself :
    ¬∀ users : Users, users.Governed → ∀ moves,
      Throughout user_requests.step (fun world => world.shared.Governed) (.idle users) moves := by
  intro hall
  have hafter := (hall (admins [1]) (by decide) (carried_out 0 (.disable 1) 2)).finish
  exact absurd hafter (by decide)

/-- Two demotions, each of which counts before the other one writes. -/
example :
    ¬(user_requests.run (.idle (admins [1, 2]))
      [.begin 0 (.arrived (.update 1 ⟨none, some .user, none⟩)), .begin 1 (.arrived (.update 2 ⟨none, some .user, none⟩)),
       .advance 0 none, .advance 0 none, .advance 0 none, .advance 1 none, .advance 1 none, .advance 1 none,
       .advance 0 none, .advance 1 none]).shared.Governed := by
  decide

end Runs

end Administrators

end refract.gateway.users
