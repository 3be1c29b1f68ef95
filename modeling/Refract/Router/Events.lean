import Refract.Store.Health

open refract.core refract.upstream refract.store

namespace refract.router

/-- What is told of the calls to an endpoint. -/
inductive RouterEvent where
  | failure (key : Endpoint) (suspended : Bool) (consecutive_fails : Nat)
  | success (key : Endpoint) (recovered : Bool)
  deriving DecidableEq, Repr

/-- What happens to the health of the endpoints, one after the other. -/
inductive HealthCall where
  | record_failure (key : Endpoint) (retry_after : Option Duration)
  | record_success (key : Endpoint)
  | reset (key : Endpoint)
  | pass (time : Duration)
  | set_policy (policy : BreakerPolicy)

/-- The event that a call is followed by, and what the call leaves behind. -/
def perform (repo : HealthRepo) : HealthCall → Option RouterEvent × HealthRepo
  | .record_failure key retry_after =>
    let recorded := repo.record_failure key retry_after
    (some (.failure key recorded.1.suspended_until.isSome (recorded.1.consecutive_fails % 4294967296)), recorded.2)
  | .record_success key =>
    let recorded := repo.record_success key
    (some (.success key recorded.1), recorded.2)
  | .reset key => (none, repo.reset key)
  | .pass time => (none, { repo with now := repo.now + time })
  | .set_policy policy => (none, { repo with policy := policy })

def perform_all (repo : HealthRepo) (calls : List HealthCall) : HealthRepo :=
  calls.foldl (fun repo call => (perform repo call).2) repo

/-- An endpoint is suspended, by the table. -/
def Suspended (repo : HealthRepo) (key : Endpoint) : Prop := ∃ until_, repo.recorded key = some until_ ∧ repo.now < until_

/-- A call is a failure of an endpoint. -/
def HealthCall.Fails (key : Endpoint) (call : HealthCall) : Prop := ∃ retry_after, call = .record_failure key retry_after

/-- A call ends what suspension there is of an endpoint. -/
def HealthCall.Ends (key : Endpoint) (call : HealthCall) : Prop := call = .record_success key ∨ call = .reset key

section Agreement

variable {repo : HealthRepo} {key : Endpoint}

theorem suspended_until_isSome (hagrees : repo.Agrees) : (repo.suspended_until key).1.isSome = true ↔ Suspended repo key := by
  rw [Option.isSome_iff_exists]
  exact exists_congr fun deadline => HealthRepo.suspended_until_fst hagrees

theorem suspended_of_touches {after : HealthRepo} {other : Endpoint} (htouches : HealthRepo.Touches other repo after)
    (hother : key ≠ other) : Suspended after key ↔ Suspended repo key := by
  rw [Suspended, Suspended, htouches.recorded key hother, htouches.now]

theorem not_suspended_of_recorded (hrecorded : repo.recorded key = none) : ¬Suspended repo key := by
  rintro ⟨until_, hsome, -⟩
  cases hrecorded.symm.trans hsome

theorem perform_agrees (hagrees : repo.Agrees) (call : HealthCall) : (perform repo call).2.Agrees := by
  cases call with
  | record_failure key retry_after => exact hagrees.record_failure
  | record_success key => exact hagrees.record_success
  | reset key => exact hagrees.reset
  | pass time =>
    intro key deadline hrunning
    exact hagrees key deadline (Nat.lt_of_le_of_lt (Nat.le_add_right _ _) hrunning)
  | set_policy policy => exact hagrees

theorem perform_all_agrees (hagrees : repo.Agrees) (calls : List HealthCall) : (perform_all repo calls).Agrees := by
  induction calls generalizing repo with
  | nil => exact hagrees
  | cons call calls ih => exact ih (perform_agrees hagrees call)

end Agreement

/-- What a call does to an endpoint and tells of it. -/
structure Tells (key : Endpoint) (repo : HealthRepo) (call : HealthCall) : Prop where
  /-- A failure after which the endpoint is suspended says so. -/
  failure : ∀ suspended consecutive_fails, (perform repo call).1 = some (.failure key suspended consecutive_fails) →
    Suspended (perform repo call).2 key → suspended = true
  /-- A success says whether the endpoint was suspended until then. -/
  success : ∀ recovered, (perform repo call).1 = some (.success key recovered) → (recovered = true ↔ Suspended repo key)
  /-- A success or a reset ends a suspension. -/
  ends : call.Ends key → ¬Suspended (perform repo call).2 key
  /-- Nothing but a failure begins one. -/
  lasts : ¬call.Fails key → Suspended (perform repo call).2 key → Suspended repo key

theorem tells {repo : HealthRepo} (hagrees : repo.Agrees) (key : Endpoint) (call : HealthCall) : Tells key repo call := by
  constructor
  · intro suspended consecutive_fails hevent hsuspended
    cases call with
    | record_failure other retry_after =>
      obtain ⟨rfl, hflag, -⟩ := RouterEvent.failure.inj (Option.some.inj hevent)
      obtain ⟨until_, hrecorded, -⟩ := hsuspended
      have hrow := @HealthRepo.record_failure_row repo other retry_after
      have hsome := Option.isSome_of_eq_some (hrow.trans hrecorded)
      exact hflag.symm.trans hsome
    | record_success other | reset other | pass time | set_policy policy => cases hevent
  · intro recovered hevent
    cases call with
    | record_success other =>
      obtain ⟨rfl, rfl⟩ := RouterEvent.success.inj (Option.some.inj hevent)
      exact suspended_until_isSome hagrees
    | record_failure other retry_after | reset other | pass time | set_policy policy => cases hevent
  · rintro (rfl | rfl)
    · exact not_suspended_of_recorded HealthRepo.recorded_record_success
    · exact not_suspended_of_recorded HealthRepo.recorded_reset
  · intro hfails hsuspended
    cases call with
    | record_failure other retry_after =>
      refine (suspended_of_touches HealthRepo.touches_record_failure fun hother => ?_).mp hsuspended
      exact hfails ⟨retry_after, by rw [hother]⟩
    | record_success other =>
      by_cases hother : key = other
      · subst hother
        exact absurd hsuspended (not_suspended_of_recorded HealthRepo.recorded_record_success)
      · exact (suspended_of_touches HealthRepo.touches_record_success hother).mp hsuspended
    | reset other =>
      by_cases hother : key = other
      · subst hother
        exact absurd hsuspended (not_suspended_of_recorded HealthRepo.recorded_reset)
      · exact (suspended_of_touches HealthRepo.touches_reset hother).mp hsuspended
    | pass time =>
      obtain ⟨until_, hrecorded, hrunning⟩ := hsuspended
      exact ⟨until_, hrecorded, Nat.lt_of_le_of_lt (Nat.le_add_right _ _) hrunning⟩
    | set_policy policy => exact hsuspended

/-- What has ended does not come back without a failure. -/
theorem not_suspended_perform_all {repo : HealthRepo} (hagrees : repo.Agrees) {key : Endpoint}
    (hended : ¬Suspended repo key) (calls : List HealthCall) (hcalls : ∀ call ∈ calls, ¬call.Fails key) :
    ¬Suspended (perform_all repo calls) key := by
  induction calls generalizing repo with
  | nil => exact hended
  | cons call calls ih =>
    have hcall := hcalls call List.mem_cons_self
    refine ih (perform_agrees hagrees call) (fun hsuspended => hended ?_) fun other hother => hcalls other (List.mem_cons_of_mem _ hother)
    exact (tells hagrees key call).lasts hcall hsuspended

/-- In every run each call tells of its endpoint what a call can know, and after
    a success or a reset nothing is told of a recovery before another failure. -/
theorem events_tell_truth (repo : HealthRepo) (calls : List HealthCall) (key : Endpoint) :
    let before := perform_all repo.warm_cache calls
    (∀ call, Tells key before call) ∧
      ∀ call, call.Ends key → ∀ rest, (∀ other ∈ rest, ¬HealthCall.Fails key other) →
        (perform (perform_all (perform before call).2 rest) (.record_success key)).1 = some (.success key false) := by
  have hagrees : (perform_all repo.warm_cache calls).Agrees := perform_all_agrees HealthRepo.agrees_warm_cache calls
  refine ⟨tells hagrees key, fun call hends rest hrest => ?_⟩
  have hafter := perform_agrees hagrees call
  have hended := not_suspended_perform_all hafter ((tells hagrees key call).ends hends) rest hrest
  have htells := (tells (perform_all_agrees hafter rest) key (.record_success key)).success _ rfl
  rw [← htells, Bool.not_eq_true] at hended
  exact congrArg (fun recovered => some (RouterEvent.success key recovered)) hended

/-- Every event of a run tells the truth, where an endpoint has recovered if it
    was suspended at any time since its last success or reset. -/
def Truthful (key : Endpoint) : Prop → HealthRepo → List HealthCall → Prop
  | _, _, [] => True
  | had, repo, call :: calls =>
    let after := (perform repo call).2
    (∀ suspended consecutive_fails, (perform repo call).1 = some (.failure key suspended consecutive_fails) →
        (suspended = true ↔ Suspended after key)) ∧
      (∀ recovered, (perform repo call).1 = some (.success key recovered) → (recovered = true ↔ had)) ∧
        Truthful key ((¬call.Ends key ∧ had) ∨ Suspended after key) after calls

/-- A failure suspends an endpoint, which succeeds after that has expired. -/
def expired_suspension : List HealthCall :=
  [.record_failure first_endpoint (some 10), .pass 20, .record_success first_endpoint]

theorem expired_suspension_not_truthful :
    ¬Truthful first_endpoint (Suspended HealthRepo.fresh.warm_cache first_endpoint) HealthRepo.fresh.warm_cache
      expired_suspension := by
  rintro ⟨-, -, -, -, -, hsuccess, -⟩
  have hsuspended : Suspended (perform HealthRepo.fresh.warm_cache (.record_failure first_endpoint (some 10))).2 first_endpoint :=
    ⟨10, rfl, Nat.succ_pos 9⟩
  have hnot : ¬(HealthCall.pass 20).Ends first_endpoint := by rintro (hends | hends) <;> cases hends
  have hrecovered := (hsuccess false rfl).mpr (.inl ⟨hnot, .inr hsuspended⟩)
  cases hrecovered

end refract.router
