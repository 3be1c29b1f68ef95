import Mathlib.Logic.Function.Basic
import Refract.Json.Text
import Refract.Machine.Interleaving
import Refract.Router.Affinity

open refract.json refract.machine refract.router refract.upstream

namespace refract.gateway

/-- An address of a client. -/
inductive IpAddr where
  | v4 (bits : BitVec 32)
  | v6 (bits : BitVec 128)
  deriving DecidableEq, Repr

namespace IpAddr

def LOCALHOST : IpAddr := .v4 0x7f000001

def is_unspecified : IpAddr → Bool
  | .v4 bits => bits = 0
  | .v6 bits => bits = 0

end IpAddr

def peer_ip (peer : Option IpAddr) : IpAddr := (peer.filter (!·.is_unspecified)).getD IpAddr.LOCALHOST

/-- How many failures lock an address, and for how long. -/
def LOCK_FAILURES : Nat := 5

def LOCK_TIME : Duration := Duration.from_secs 60

/-- The failures of every address in a row, with the end of its lock. -/
structure AdminGuard where
  failures : IpAddr → Option (Nat × Instant) := fun _ => none

namespace AdminGuard

variable (self : AdminGuard) (ip : IpAddr) (now : Instant)

/-- The seconds that are left of a lock. A lock that is over is removed. -/
def check_locked : Option Nat × AdminGuard :=
  match self.failures ip with
  | none => (none, self)
  | some (failures, until_) =>
    if LOCK_FAILURES ≤ failures then
      if now < until_ then (some (max ((until_ - now) / 1000000000) 1), self)
      else (none, ⟨Function.update self.failures ip none⟩)
    else (none, self)

/-- Counts a failure, and says whether the address is locked for it. -/
def record_failure : Bool × AdminGuard :=
  let entry := (self.failures ip).getD (0, now)
  let failures := min (entry.1 + 1) 4294967295
  if LOCK_FAILURES ≤ failures then (true, ⟨Function.update self.failures ip (some (failures, now + LOCK_TIME))⟩)
  else (false, ⟨Function.update self.failures ip (some (failures, entry.2))⟩)

def record_success : AdminGuard := ⟨Function.update self.failures ip none⟩

end AdminGuard

/-- What becomes of a token of an administrator. -/
inductive TokenOutcome where
  /-- There is no token, or none that it could be compared with. -/
  | absent
  /-- The token is not looked at. -/
  | blocked (wait_secs : Nat)
  | accepted
  | wrong (locks : Bool)
  deriving DecidableEq, Repr

/-- The times at which a request looks at the clock. -/
structure Moments where
  checked : Instant
  compared : Instant
  rechecked : Instant

section Entrances

variable (hash : String → String) (guard : AdminGuard) (ip : IpAddr)

def configured (expected : Option String) : Option String := expected.filter fun hash => trim hash ≠ ""

/-- The token of a login. The lock comes first. -/
def auth_login (token expected : Option String) (moments : Moments) : TokenOutcome × AdminGuard :=
  match token with
  | none => (.absent, guard)
  | some token =>
    match guard.check_locked ip moments.checked with
    | (some wait_secs, guard) => (.blocked wait_secs, guard)
    | (none, guard) =>
      match configured expected with
      | none => (.absent, guard)
      | some expected_hash =>
        if hash token ≠ expected_hash then
          let recorded := guard.record_failure ip moments.compared
          (.wrong recorded.1, if recorded.1 then (recorded.2.check_locked ip moments.rechecked).2 else recorded.2)
        else (.accepted, guard.record_success ip)

/-- The token in a header of any other request. It is compared first. -/
def authenticate_admin_surface (token expected : Option String) (moments : Moments) : TokenOutcome × AdminGuard :=
  match configured expected, token with
  | some expected_hash, some token =>
    if hash token = expected_hash then (.accepted, guard.record_success ip)
    else
      let recorded := guard.record_failure ip moments.compared
      (.wrong recorded.1, (recorded.2.check_locked ip moments.rechecked).2)
  | _, _ => (.absent, guard)

end Entrances

/-- Where a token is presented. -/
inductive Entrance where
  | login
  | surface
  deriving DecidableEq, Repr

/-- A request with a token, and the time that passes before each look at the clock. -/
structure TokenRequest where
  entrance : Entrance
  peer : IpAddr
  token : Option String
  /-- What the settings hold. -/
  expected : Option String
  elapsed : Duration
  comparing : Duration
  counting : Duration

namespace TokenRequest

variable (request : TokenRequest)

/-- The address that the request is counted for. -/
def client_ip : IpAddr :=
  match request.entrance with
  | .login => request.peer
  | .surface => peer_ip (some request.peer)

def moments (now : Instant) : Moments where
  checked := now + request.elapsed
  compared := now + request.elapsed + request.comparing
  rechecked := now + request.elapsed + request.comparing + request.counting

def handle (hash : String → String) (guard : AdminGuard) (now : Instant) : TokenOutcome × AdminGuard :=
  match request.entrance with
  | .login => auth_login hash guard request.client_ip request.token request.expected (request.moments now)
  | .surface => authenticate_admin_surface hash guard request.client_ip request.token request.expected (request.moments now)

/-- The token is the one that is expected. -/
def right (hash : String → String) : Bool :=
  (configured request.expected).any fun expected_hash => request.token.any fun token => hash token = expected_hash

end TokenRequest

/-- What became of a token, and when. -/
structure Attempt where
  ip : IpAddr
  time : Instant
  outcome : TokenOutcome

/-- When the last failure was counted for a lock of an address, since a token of it
    was accepted. -/
def last_lock (past : List Attempt) (ip : IpAddr) : Option Instant :=
  past.foldl (fun lock attempt =>
    if attempt.ip = ip then
      match attempt.outcome with
      | .accepted => none
      | .wrong true => some attempt.time
      | _ => lock
    else lock) none

/-- The wrong tokens of an address in a row that were compared and locked nothing. -/
def wrong_in_a_row (past : List Attempt) (ip : IpAddr) : Nat :=
  past.foldl (fun count attempt =>
    if attempt.ip = ip then
      match attempt.outcome with
      | .accepted | .wrong true => 0
      | .wrong false => count + 1
      | _ => count
    else count) 0

/-- A lock is over. -/
def Over (lock : Option Instant) (now : Instant) : Prop := ∀ since, lock = some since → since + LOCK_TIME ≤ now

/-- No token was accepted during a lock, and of five wrong tokens in a row one locks
    the address. -/
structure LockHolds (past : List Attempt) : Prop where
  accepted : ∀ before attempt, before ++ [attempt] <+: past → attempt.outcome = .accepted →
    Over (last_lock before attempt.ip) attempt.time
  wrong : ∀ ip, wrong_in_a_row past ip < LOCK_FAILURES

/-- The guard, with the tokens that were presented. -/
structure Watch where
  guard : AdminGuard := {}
  now : Instant := 0
  past : List Attempt := []

def Watch.step (hash : String → String) (self : Watch) (request : TokenRequest) : Watch where
  guard := (request.handle hash self.guard self.now).2
  now := (request.moments self.now).rechecked
  past := self.past ++ [⟨request.client_ip, (request.moments self.now).compared, (request.handle hash self.guard self.now).1⟩]

/-- No right token comes in a header while its address is locked. -/
def Watch.Patient (hash : String → String) (self : Watch) (request : TokenRequest) : Prop :=
  request.entrance = .surface → request.right hash = true →
    (self.guard.check_locked request.client_ip (request.moments self.now).compared).1 = none

section Past

variable {past : List Attempt} {attempt : Attempt} {ip : IpAddr} {now after : Instant} {lock : Option Instant}

theorem last_lock_concat :
    last_lock (past ++ [attempt]) ip =
      if attempt.ip = ip then
        match attempt.outcome with
        | .accepted => none
        | .wrong true => some attempt.time
        | _ => last_lock past ip
      else last_lock past ip := by
  simp [last_lock]

theorem wrong_in_a_row_concat :
    wrong_in_a_row (past ++ [attempt]) ip =
      if attempt.ip = ip then
        match attempt.outcome with
        | .accepted | .wrong true => 0
        | .wrong false => wrong_in_a_row past ip + 1
        | _ => wrong_in_a_row past ip
      else wrong_in_a_row past ip := by
  simp [wrong_in_a_row]

theorem Over.later (hover : Over lock now) (hafter : now ≤ after) : Over lock after :=
  fun since hsince => (hover since hsince).trans hafter

theorem Over.none : Over none now := fun _ hsince => nomatch hsince

end Past

/-- What an entry of the guard tells of the last lock and of the failures since. -/
inductive Tells (lock : Option Instant) (count : Nat) (now : Instant) : Option (Nat × Instant) → Prop
  | absent (hover : Over lock now) (hcount : count = 0) : Tells lock count now none
  | counting (until_ : Instant) (hover : Over lock now) (hfew : count < LOCK_FAILURES) : Tells lock count now (some (count, until_))
  | locked (failures since : Nat) (hmany : LOCK_FAILURES ≤ failures) (hsince : lock = some since) (hcount : count = 0) :
    Tells lock count now (some (failures, since + LOCK_TIME))

theorem Tells.later {lock : Option Instant} {count now after : Nat} {entry : Option (Nat × Instant)}
    (htells : Tells lock count now entry) (hafter : now ≤ after) : Tells lock count after entry := by
  cases htells with
  | absent hover hcount => exact .absent (hover.later hafter) hcount
  | counting until_ hover hfew => exact .counting until_ (hover.later hafter) hfew
  | locked failures since hmany hsince hcount => exact .locked failures since hmany hsince hcount

theorem Tells.lt {lock : Option Instant} {count now : Nat} {entry : Option (Nat × Instant)} (htells : Tells lock count now entry) :
    count < LOCK_FAILURES := by
  cases htells with
  | absent _ hcount => exact hcount ▸ (by decide)
  | counting _ _ hfew => exact hfew
  | locked _ _ _ _ hcount => exact hcount ▸ (by decide)

/-- The guard knows of every address what became of its tokens. -/
def AdminGuard.Agrees (guard : AdminGuard) (past : List Attempt) (now : Instant) : Prop :=
  ∀ ip, Tells (last_lock past ip) (wrong_in_a_row past ip) now (guard.failures ip)

namespace AdminGuard

variable {guard : AdminGuard} {past : List Attempt} {ip : IpAddr} {now after : Instant}

theorem Agrees.later (hagrees : guard.Agrees past now) (hafter : now ≤ after) : guard.Agrees past after :=
  fun ip => (hagrees ip).later hafter

/-- An address is locked just until its last lock is over. -/
theorem Agrees.check_locked_fst (hagrees : guard.Agrees past now) :
    (guard.check_locked ip now).1 = none ↔ Over (last_lock past ip) now := by
  have htells := hagrees ip
  unfold check_locked
  generalize hentry : guard.failures ip = entry at htells
  cases htells with
  | absent hover => exact ⟨fun _ => hover, fun _ => rfl⟩
  | counting until_ hover hfew =>
    simp only [if_neg hfew.not_ge]
    exact ⟨fun _ => hover, fun _ => trivial⟩
  | locked failures since hmany hsince =>
    simp only [if_pos hmany, hsince]
    by_cases hlocked : now < since + LOCK_TIME
    · rw [if_pos hlocked]
      exact ⟨fun hnone => (nomatch hnone), fun hover => absurd (hover since rfl) hlocked.not_ge⟩
    · rw [if_neg hlocked]
      exact ⟨fun _ _ hsame => Option.some.inj hsame ▸ not_lt.mp hlocked, fun _ => rfl⟩

theorem Agrees.check_locked (ip : IpAddr) (hagrees : guard.Agrees past now) : (guard.check_locked ip now).2.Agrees past now := by
  have hremoved : Over (last_lock past ip) now → wrong_in_a_row past ip = 0 →
      AdminGuard.Agrees ⟨Function.update guard.failures ip none⟩ past now := by
    intro hover hcount other
    by_cases hother : other = ip
    · subst hother
      simpa using Tells.absent hover hcount
    · simpa [Function.update_of_ne hother] using hagrees other
  have htells := hagrees ip
  have hfree : (guard.check_locked ip now).1 = none ↔ Over (last_lock past ip) now := hagrees.check_locked_fst
  unfold AdminGuard.check_locked at hfree ⊢
  generalize hentry : guard.failures ip = entry at htells hfree
  cases htells with
  | absent => exact hagrees
  | counting until_ hover hfew =>
    simp only [if_neg hfew.not_ge]
    exact hagrees
  | locked failures since hmany hsince hcount =>
    simp only [if_pos hmany] at hfree ⊢
    by_cases hlocked : now < since + LOCK_TIME
    · rw [if_pos hlocked]
      exact hagrees
    · rw [if_neg hlocked] at hfree ⊢
      exact hremoved (hfree.mp rfl) hcount

/-- A token that says nothing of the address leaves all as it is. -/
theorem Agrees.pass (hagrees : guard.Agrees past now) {time : Instant} {outcome : TokenOutcome}
    (hpass : outcome = .absent ∨ ∃ wait_secs, outcome = .blocked wait_secs) : guard.Agrees (past ++ [⟨ip, time, outcome⟩]) now := by
  intro other
  have hsame := hagrees other
  rw [last_lock_concat, wrong_in_a_row_concat]
  rcases hpass with rfl | ⟨wait_secs, rfl⟩ <;> simpa using hsame

theorem Agrees.record_success (hagrees : guard.Agrees past now) {time : Instant} :
    (guard.record_success ip).Agrees (past ++ [⟨ip, time, .accepted⟩]) now := by
  intro other
  rw [last_lock_concat, wrong_in_a_row_concat]
  by_cases hother : ip = other
  · subst hother
    simpa [AdminGuard.record_success] using Tells.absent Over.none rfl
  · have hne : other ≠ ip := fun hsame => hother hsame.symm
    simpa [AdminGuard.record_success, hother, Function.update_of_ne hne] using hagrees other

/-- The step of the count: the fifth failure in a row locks the address, and so does
    every failure after it. -/
theorem Agrees.record_failure (ip : IpAddr) (hagrees : guard.Agrees past now) :
    (guard.record_failure ip now).2.Agrees (past ++ [⟨ip, now, .wrong (guard.record_failure ip now).1⟩]) now := by
  intro other
  rw [last_lock_concat, wrong_in_a_row_concat]
  by_cases hother : ip = other
  · subst hother
    have htells := hagrees ip
    unfold AdminGuard.record_failure
    generalize hentry : guard.failures ip = entry at htells
    cases htells with
    | absent hover hcount =>
      have hfew : ¬LOCK_FAILURES ≤ min (0 + 1) 4294967295 := by decide
      simp only [Option.getD_none, if_neg hfew, hcount, Function.update_self, if_true]
      exact .counting now hover (by decide)
    | counting until_ hover hfew =>
      have hmin : min (wrong_in_a_row past ip + 1) 4294967295 = wrong_in_a_row past ip + 1 := by
        simp only [LOCK_FAILURES] at hfew
        omega
      simp only [Option.getD_some, hmin]
      by_cases hfifth : LOCK_FAILURES ≤ wrong_in_a_row past ip + 1
      · simp only [if_pos hfifth, Function.update_self, if_true]
        exact .locked _ now hfifth rfl rfl
      · simp only [if_neg hfifth, Function.update_self, if_true]
        exact .counting until_ hover (not_le.mp hfifth)
    | locked failures since hmany hsince hcount =>
      have hmore : LOCK_FAILURES ≤ min (failures + 1) 4294967295 := by
        simp only [LOCK_FAILURES] at hmany ⊢
        omega
      simp only [Option.getD_some, if_pos hmore, Function.update_self, if_true]
      exact .locked _ now hmore rfl rfl
  · have hne : other ≠ ip := fun hsame => hother hsame.symm
    have hsame : (guard.record_failure ip now).2.failures other = guard.failures other := by
      unfold AdminGuard.record_failure
      dsimp only
      split <;> exact Function.update_of_ne hne _ _
    rw [if_neg hother, if_neg hother, hsame]
    exact hagrees other

end AdminGuard

section Handle

variable {hash : String → String} {guard : AdminGuard} {past : List Attempt} {request : TokenRequest} {now : Instant}

theorem TokenRequest.checked_le_compared (request : TokenRequest) (now : Instant) :
    (request.moments now).checked ≤ (request.moments now).compared := Nat.le_add_right _ _

theorem TokenRequest.compared_le_rechecked (request : TokenRequest) (now : Instant) :
    (request.moments now).compared ≤ (request.moments now).rechecked := Nat.le_add_right _ _

/-- The guard goes on to know what became of the tokens. -/
theorem AdminGuard.Agrees.login (hagrees : guard.Agrees past now) (hlogin : request.entrance = .login) :
    (request.handle hash guard now).2.Agrees
      (past ++ [⟨request.client_ip, (request.moments now).compared, (request.handle hash guard now).1⟩])
      (request.moments now).rechecked := by
  have hchecked := request.checked_le_compared now
  have hcompared := request.compared_le_rechecked now
  have hnow : now ≤ (request.moments now).checked := Nat.le_add_right _ _
  simp only [TokenRequest.handle, hlogin, auth_login]
  cases request.token with
  | none => exact (hagrees.later (hnow.trans (hchecked.trans hcompared))).pass (.inl rfl)
  | some token =>
    have hafter := (hagrees.later hnow).check_locked request.client_ip
    generalize hcheck : guard.check_locked request.client_ip (request.moments now).checked = check at hafter
    obtain ⟨locked, guard⟩ := check
    cases locked with
    | some wait_secs => exact (hafter.later (hchecked.trans hcompared)).pass (.inr ⟨wait_secs, rfl⟩)
    | none =>
      cases configured request.expected with
      | none => exact (hafter.later (hchecked.trans hcompared)).pass (.inl rfl)
      | some expected_hash =>
        dsimp only
        by_cases hright : hash token ≠ expected_hash
        · have hrecorded := ((hafter.later hchecked).record_failure request.client_ip).later hcompared
          rw [if_pos hright]
          dsimp only
          split
          · exact hrecorded.check_locked _
          · exact hrecorded
        · rw [if_neg hright]
          exact (hafter.later (hchecked.trans hcompared)).record_success

theorem AdminGuard.Agrees.surface (hagrees : guard.Agrees past now) (hsurface : request.entrance = .surface) :
    (request.handle hash guard now).2.Agrees
      (past ++ [⟨request.client_ip, (request.moments now).compared, (request.handle hash guard now).1⟩])
      (request.moments now).rechecked := by
  have hcompared := request.compared_le_rechecked now
  have hnow : now ≤ (request.moments now).compared :=
    (Nat.le_add_right _ _ : now ≤ (request.moments now).checked).trans (request.checked_le_compared now)
  simp only [TokenRequest.handle, hsurface, authenticate_admin_surface]
  cases configured request.expected with
  | none => exact (hagrees.later (hnow.trans hcompared)).pass (.inl rfl)
  | some expected_hash =>
    cases request.token with
    | none => exact (hagrees.later (hnow.trans hcompared)).pass (.inl rfl)
    | some token =>
      dsimp only
      by_cases hright : hash token = expected_hash
      · rw [if_pos hright]
        exact (hagrees.later (hnow.trans hcompared)).record_success
      · rw [if_neg hright]
        exact (((hagrees.later hnow).record_failure _).later hcompared).check_locked _

theorem AdminGuard.Agrees.handle (hagrees : guard.Agrees past now) :
    (request.handle hash guard now).2.Agrees
      (past ++ [⟨request.client_ip, (request.moments now).compared, (request.handle hash guard now).1⟩])
      (request.moments now).rechecked := by
  cases hentrance : request.entrance with
  | login => exact hagrees.login hentrance
  | surface => exact hagrees.surface hentrance

/-- A token that is accepted in a header is right, whatever the guard says. -/
theorem TokenRequest.handle_surface (hsurface : request.entrance = .surface) :
    (request.handle hash guard now).1 = .accepted ↔ request.right hash = true := by
  simp only [handle, hsurface, authenticate_admin_surface, right]
  cases configured request.expected with
  | none => simp
  | some expected_hash =>
    cases request.token with
    | none => simp
    | some token =>
      simp only [Option.any_some, decide_eq_true_eq]
      split <;> simp [*]

/-- A login is accepted only if the address is not locked. -/
theorem TokenRequest.handle_login (hlogin : request.entrance = .login) (haccepted : (request.handle hash guard now).1 = .accepted) :
    (guard.check_locked request.client_ip (request.moments now).checked).1 = none := by
  simp only [handle, hlogin, auth_login] at haccepted
  cases htoken : request.token with
  | none =>
    rw [htoken] at haccepted
    cases haccepted
  | some token =>
    rw [htoken] at haccepted
    generalize guard.check_locked request.client_ip (request.moments now).checked = check at haccepted ⊢
    obtain ⟨locked, guard⟩ := check
    cases locked with
    | some wait_secs => cases haccepted
    | none => rfl

end Handle

section Runs

variable {hash : String → String} {past : List Attempt} {attempt : Attempt} {self : Watch} {request : TokenRequest}

theorem lockHolds_concat :
    LockHolds (past ++ [attempt]) ↔
      (∀ before attempt, before ++ [attempt] <+: past → attempt.outcome = .accepted → Over (last_lock before attempt.ip) attempt.time) ∧
        (attempt.outcome = .accepted → Over (last_lock past attempt.ip) attempt.time) ∧
          ∀ ip, wrong_in_a_row (past ++ [attempt]) ip < LOCK_FAILURES := by
  constructor
  · intro hholds
    refine ⟨fun before earlier hbegins => ?_, hholds.accepted past attempt List.prefix_rfl, hholds.wrong⟩
    exact hholds.accepted before earlier (hbegins.trans (List.prefix_append _ _))
  · rintro ⟨hearlier, hlast, hwrong⟩
    refine ⟨fun before accepted hbegins => ?_, hwrong⟩
    rcases List.prefix_concat_iff.mp hbegins with heq | hbegins
    · obtain ⟨rfl, hsame⟩ := List.append_inj' heq rfl
      obtain rfl := List.singleton_inj.mp hsame
      exact hlast
    · exact hearlier before accepted hbegins

/-- What a run keeps: the guard's knowledge, and the lock. -/
structure Watch.Guarded (state : Watch) : Prop where
  agrees : state.guard.Agrees state.past state.now
  holds : LockHolds state.past

/-- The step: the lock goes on to hold just if the request is patient. -/
theorem Watch.Guarded.step_iff (hguarded : self.Guarded) : (self.step hash request).Guarded ↔ self.Patient hash request := by
  have hagrees : (self.step hash request).guard.Agrees (self.step hash request).past (self.step hash request).now :=
    hguarded.agrees.handle
  have hcompared : self.guard.Agrees self.past (request.moments self.now).compared :=
    hguarded.agrees.later ((Nat.le_add_right _ _ : self.now ≤ (request.moments self.now).checked).trans
      (request.checked_le_compared self.now))
  constructor
  · intro hstep hsurface hright
    exact hcompared.check_locked_fst.mpr
      ((lockHolds_concat.mp hstep.holds).2.1 ((TokenRequest.handle_surface hsurface).mpr hright))
  · intro hpatient
    refine ⟨hagrees, lockHolds_concat.mpr ⟨hguarded.holds.accepted, fun haccepted => ?_, fun ip => (hagrees ip).lt⟩⟩
    cases hentrance : request.entrance with
    | login =>
      have hchecked : self.guard.Agrees self.past (request.moments self.now).checked := hguarded.agrees.later (Nat.le_add_right _ _)
      exact (hchecked.check_locked_fst.mp (TokenRequest.handle_login hentrance haccepted)).later
        (request.checked_le_compared self.now)
    | surface =>
      have hright := (TokenRequest.handle_surface hentrance).mp haccepted
      exact hcompared.check_locked_fst.mp (hpatient hentrance hright)

end Runs

/-- The lock holds in a run of requests just as long as no right token comes in a
    header while its address is locked. -/
theorem lock_holds_iff_patient (hash : String → String) (requests : List TokenRequest) :
    Throughout (Watch.step hash) (fun state => LockHolds state.past) {} requests ↔
      Along (Watch.step hash) (Watch.Patient hash) {} requests := by
  have hstart : Watch.Guarded {} := {
    agrees := fun _ => .absent Over.none rfl
    holds := ⟨fun before attempt hbegins => by simp at hbegins, fun _ => Nat.zero_lt_succ 4⟩ }
  have hagrees : Throughout (Watch.step hash) (fun state => state.guard.Agrees state.past state.now) {} requests :=
    throughout_of_step (fun _ _ hagrees => AdminGuard.Agrees.handle hagrees) hstart.agrees
  rw [← throughout_iff_along (P := Watch.Guarded) (fun _ _ hguarded => hguarded.step_iff) hstart]
  constructor
  · exact fun hholds before hbefore => ⟨hagrees before hbefore, hholds before hbefore⟩
  · exact fun hguarded before hbefore => (hguarded before hbefore).holds

/-- A token in a header, a second after the last, where the right one is "token". -/
def presented (token : String) : TokenRequest where
  entrance := .surface
  peer := IpAddr.LOCALHOST
  token := some token
  expected := some "token"
  elapsed := Duration.from_secs 1
  comparing := 0
  counting := 0

/-- Five wrong tokens, and then the right one. -/
def guessed : List TokenRequest := List.replicate 5 (presented "guess") ++ [presented "token"]

theorem guessed_not_holds : ¬Throughout (Watch.step id) (fun state => LockHolds state.past) {} guessed := by
  intro hholds
  have hover := hholds.finish.accepted _ ⟨IpAddr.LOCALHOST, Duration.from_secs 6, .accepted⟩ List.prefix_rfl rfl
  exact absurd (hover (Duration.from_secs 5) rfl) (by decide)

end refract.gateway
