import Refract.Machine.Interleaving
import Refract.Store.Settings

open refract.machine refract.upstream

namespace refract.store

namespace BreakerPolicy

/-- Some failures in a row suspend an endpoint. -/
def Trips (self : BreakerPolicy) (fails : Nat) : Prop := 0 < self.failure_threshold ∧ self.failure_threshold ≤ fails

/-- How long an endpoint is suspended, in seconds. The time doubles with every failure, up to a
    limit. -/
def backoff (self : BreakerPolicy) (fails : Nat) : Nat :=
  min (self.base_cooldown_secs * 1 <<< min (fails - self.failure_threshold) 16) self.max_cooldown_secs

variable {self : BreakerPolicy} {fails : Nat}

theorem validate_ok (hvalid : self.validate = .ok ()) :
    0 < self.base_cooldown_secs ∧ self.base_cooldown_secs ≤ self.max_cooldown_secs ∧ self.max_cooldown_secs ≤ 86400 := by
  unfold validate at hvalid
  split at hvalid
  · cases hvalid
  · split at hvalid
    · cases hvalid
    next hbase =>
      split at hvalid
      · cases hvalid
      next hmax =>
        simp only [Bool.or_eq_true, decide_eq_true_eq] at hbase hmax
        omega

/-- No product that is formed is too large for the machine. -/
theorem product_lt (hvalid : self.validate = .ok ()) : self.base_cooldown_secs * 1 <<< min (fails - self.failure_threshold) 16 < 18446744073709551616 := by
  obtain ⟨-, hbase, hmax⟩ := validate_ok hvalid
  have hfactor : 1 <<< min (fails - self.failure_threshold) 16 ≤ 65536 := by
    rw [Nat.one_shiftLeft]
    exact Nat.pow_le_pow_right (by decide) (Nat.min_le_right _ 16)
  have hproduct : self.base_cooldown_secs * 1 <<< min (fails - self.failure_threshold) 16 ≤ 86400 * 65536 :=
    Nat.mul_le_mul (hbase.trans hmax) hfactor
  omega

theorem cooldown_for_eq (hvalid : self.validate = .ok ()) (htrips : self.Trips fails) : self.cooldown_for fails = Duration.from_secs (self.backoff fails) := by
  have hfits := @product_lt self fails hvalid
  have hproduct : min (self.base_cooldown_secs * 1 <<< min (fails - self.failure_threshold) 16) 18446744073709551615 =
      self.base_cooldown_secs * 1 <<< min (fails - self.failure_threshold) 16 := Nat.min_eq_left (by omega)
  obtain ⟨hpos, hle⟩ := htrips
  unfold cooldown_for
  rw [if_neg (by omega)]
  dsimp only
  rw [hproduct]
  rfl

theorem cooldown_for_of_not_trips (htrips : ¬ self.Trips fails) : self.cooldown_for fails = 0 := by
  unfold Trips at htrips
  rw [cooldown_for, if_pos (by omega)]

theorem backoff_pos (hvalid : self.validate = .ok ()) : 0 < self.backoff fails := by
  obtain ⟨hbase, hle, -⟩ := validate_ok hvalid
  have hfactor : 0 < 1 <<< min (fails - self.failure_threshold) 16 := by
    rw [Nat.one_shiftLeft]
    exact Nat.two_pow_pos _
  exact Nat.lt_min.mpr ⟨Nat.mul_pos hbase hfactor, by omega⟩

end BreakerPolicy

/-- A failure that is recorded, after some time. -/
structure FailureCall where
  elapsed : Duration
  key : Endpoint
  /-- How long the upstream asks to wait. -/
  retry_after : Option Duration

namespace HealthRepo

variable (self : HealthRepo) (call : FailureCall)

def wait (elapsed : Duration) : HealthRepo := { self with now := self.now + elapsed }

def fail : HealthRepo := ((self.wait call.elapsed).record_failure call.key call.retry_after).2

/-- How many failures an endpoint has had in a row with the next one, as far as the machine
    counts. -/
def next_fails (key : Endpoint) : Nat := ((self.row key).consecutive_fails + 1) % 4294967296

/-- No suspension becomes shorter. -/
def Lengthens (before after : HealthRepo) : Prop :=
  ∀ key until_, before.recorded key = some until_ → ∃ later, after.recorded key = some later ∧ until_ ≤ later

/-- What is asked of a failure that is recorded. -/
structure Sound (repo : HealthRepo) (call : FailureCall) : Prop where
  lengthens : Lengthens repo (repo.fail call)
  /-- An end that is written is as far as the limit or as the upstream asks for. -/
  bounded : ∀ until_, ((repo.wait call.elapsed).upsert_failure call.key call.retry_after).1 = some until_ →
    until_ ≤ repo.now + call.elapsed + Duration.from_secs repo.policy.max_cooldown_secs ∨
      ∃ wait, call.retry_after = some wait ∧ until_ ≤ repo.now + call.elapsed + wait
  /-- No number is too large for the machine. -/
  fits : repo.policy.Trips (repo.next_fails call.key) →
    repo.policy.base_cooldown_secs * 1 <<< min (repo.next_fails call.key - repo.policy.failure_threshold) 16 < 18446744073709551616 ∧
      repo.policy.backoff (repo.next_fails call.key) ≤ 9223372036854775807

/-- A failure leaves the suspension alone, or suspends at least as long as what is stored. -/
def Lasts (repo : HealthRepo) (call : FailureCall) : Prop :=
  ∀ until_, repo.recorded call.key = some until_ →
    (¬ repo.policy.Trips (repo.next_fails call.key) ∧ ∀ wait, call.retry_after = some wait → max_duration < wait) ∨
    (repo.policy.Trips (repo.next_fails call.key) ∧
      until_ ≤ repo.now + call.elapsed + Duration.from_secs (repo.policy.backoff (repo.next_fails call.key))) ∨
    ∃ wait, call.retry_after = some wait ∧ wait ≤ max_duration ∧ until_ ≤ repo.now + call.elapsed + wait

variable {self call} {fails : Nat} {retry_after : Option Duration} {until_ : DateTime}

theorem breaker_until_eq_some (hvalid : self.policy.validate = .ok ()) (fails : Nat) :
    (if 0 < self.policy.cooldown_for fails then some (self.now + self.policy.cooldown_for fails) else none) = some until_ ↔
      self.policy.Trips fails ∧ self.now + Duration.from_secs (self.policy.backoff fails) = until_ := by
  by_cases htrips : self.policy.Trips fails
  · have hpos : 0 < Duration.from_secs (self.policy.backoff fails) := Nat.mul_pos (by decide) (BreakerPolicy.backoff_pos hvalid)
    rw [BreakerPolicy.cooldown_for_eq hvalid htrips, if_pos hpos, Option.some_inj, and_iff_right htrips]
  · rw [BreakerPolicy.cooldown_for_of_not_trips htrips, if_neg (Nat.lt_irrefl 0)]
    simp [htrips]

theorem hold_until_eq_some :
    (retry_after.filter (· ≤ max_duration)).map (self.now + ·) = some until_ ↔
      ∃ wait, retry_after = some wait ∧ wait ≤ max_duration ∧ self.now + wait = until_ := by
  simp [Option.filter_eq_some_iff, and_assoc]

/-- When a failure suspends an endpoint, and until when at least. -/
theorem le_suspend_until_iff (hvalid : self.policy.validate = .ok ()) :
    (∃ later, self.suspend_until fails retry_after = some later ∧ until_ ≤ later) ↔
      (self.policy.Trips (fails % 4294967296) ∧ until_ ≤ self.now + Duration.from_secs (self.policy.backoff (fails % 4294967296))) ∨
      ∃ wait, retry_after = some wait ∧ wait ≤ max_duration ∧ until_ ≤ self.now + wait := by
  have hbreaker := fun later => @breaker_until_eq_some self later hvalid (fails % 4294967296)
  have hheld := fun later => @hold_until_eq_some self retry_after later
  unfold suspend_until
  dsimp only
  generalize (if 0 < self.policy.cooldown_for (fails % 4294967296) then
    some (self.now + self.policy.cooldown_for (fails % 4294967296)) else none) = breaker_until at hbreaker ⊢
  generalize (retry_after.filter (· ≤ max_duration)).map (self.now + ·) = hold_until at hheld ⊢
  have hleft : (self.policy.Trips (fails % 4294967296) ∧
      until_ ≤ self.now + Duration.from_secs (self.policy.backoff (fails % 4294967296))) ↔ ∃ later, breaker_until = some later ∧ until_ ≤ later := by
    simp [hbreaker, and_assoc]
  have hright : (∃ wait, retry_after = some wait ∧ wait ≤ max_duration ∧ until_ ≤ self.now + wait) ↔
      ∃ later, hold_until = some later ∧ until_ ≤ later := by
    constructor
    · rintro ⟨wait, hwait, hle, hlate⟩
      exact ⟨_, (hheld _).mpr ⟨wait, hwait, hle, rfl⟩, hlate⟩
    · rintro ⟨later, hlater, hlate⟩
      obtain ⟨wait, hwait, hle, rfl⟩ := (hheld later).mp hlater
      exact ⟨wait, hwait, hle, hlate⟩
  rw [hleft, hright]
  cases breaker_until with
  | none => cases hold_until <;> simp
  | some a =>
    cases hold_until with
    | none => simp
    | some b => simp

/-- An end that is written comes from the limit or from the upstream. -/
theorem suspend_until_le (hvalid : self.policy.validate = .ok ()) (hsome : self.suspend_until fails retry_after = some until_) :
    until_ ≤ self.now + Duration.from_secs self.policy.max_cooldown_secs ∨ ∃ wait, retry_after = some wait ∧ until_ ≤ self.now + wait := by
  rcases (le_suspend_until_iff hvalid).mp ⟨until_, hsome, le_refl _⟩ with ⟨-, hlate⟩ | ⟨wait, hwait, -, hlate⟩
  · refine .inl (hlate.trans (Nat.add_le_add_left (Nat.mul_le_mul_left _ ?_) _))
    exact Nat.min_le_right _ _
  · exact .inr ⟨wait, hwait, hlate⟩

theorem suspend_until_eq_none (hvalid : self.policy.validate = .ok ()) :
    self.suspend_until fails retry_after = none ↔
      ¬ self.policy.Trips (fails % 4294967296) ∧ ∀ wait, retry_after = some wait → max_duration < wait := by
  have hsome : (∃ later, self.suspend_until fails retry_after = some later ∧ 0 ≤ later) ↔ _ := @le_suspend_until_iff self fails retry_after 0 hvalid
  simp only [Nat.zero_le, and_true] at hsome
  rw [← Option.not_isSome_iff_eq_none, Option.isSome_iff_exists, hsome]
  simp only [not_or, not_exists, not_and, Nat.not_le]

theorem upsert_failure_fst {key : Endpoint} :
    (self.upsert_failure key retry_after).1 = self.suspend_until ((self.row key).consecutive_fails + 1) retry_after := by
  have hrow : (self.row key).fail.consecutive_fails = (self.row key).consecutive_fails + 1 := rfl
  unfold upsert_failure
  rw [hrow]
  cases self.suspend_until ((self.row key).consecutive_fails + 1) retry_after <;> rfl

theorem recorded_fail (self : HealthRepo) (call : FailureCall) :
    (self.fail call).recorded call.key =
      ((self.wait call.elapsed).suspend_until ((self.row call.key).consecutive_fails + 1) call.retry_after).or (self.recorded call.key) := by
  have hwritten := @upsert_failure_recorded (self.wait call.elapsed) call.key call.retry_after
  rw [upsert_failure_fst] at hwritten
  have hcached : (self.fail call).recorded call.key =
      ((self.wait call.elapsed).upsert_failure call.key call.retry_after).2.recorded call.key := by
    simp only [HealthRepo.fail, record_failure]
    split
    · exact recorded_cache_suspension
    · rfl
  exact hcached.trans hwritten

theorem recorded_fail_of_ne {key : Endpoint} (hother : key ≠ call.key) : (self.fail call).recorded key = self.recorded key :=
  touches_record_failure.recorded key hother

theorem policy_fail (self : HealthRepo) (call : FailureCall) : (self.fail call).policy = self.policy := by
  have hcached : ∀ (repo : HealthRepo) key until_, (repo.cache_suspension key until_).policy = repo.policy := by
    intro repo key until_
    unfold cache_suspension
    split <;> rfl
  have hwritten : ((self.wait call.elapsed).upsert_failure call.key call.retry_after).2.policy = self.policy := by
    unfold upsert_failure
    split <;> rfl
  simp only [HealthRepo.fail, record_failure]
  split
  · exact (hcached _ _ _).trans hwritten
  · exact hwritten

/-- A failure shortens no suspension if it lasts, and otherwise it does. -/
theorem lengthens_fail_iff (hvalid : self.policy.validate = .ok ()) : Lengthens self (self.fail call) ↔ Lasts self call := by
  have hwait : (self.wait call.elapsed).policy.validate = .ok () := hvalid
  have hlate := fun until_ => @le_suspend_until_iff (self.wait call.elapsed) ((self.row call.key).consecutive_fails + 1) call.retry_after until_ hwait
  have hnone := @suspend_until_eq_none (self.wait call.elapsed) ((self.row call.key).consecutive_fails + 1) call.retry_after hwait
  constructor
  · intro hlengthens until_ hbefore
    obtain ⟨later, hafter, hle⟩ := hlengthens call.key until_ hbefore
    rw [recorded_fail] at hafter
    cases hwritten : (self.wait call.elapsed).suspend_until ((self.row call.key).consecutive_fails + 1) call.retry_after with
    | none => exact .inl (hnone.mp hwritten)
    | some written =>
      rw [hwritten, Option.some_or] at hafter
      obtain rfl := Option.some.inj hafter
      exact .inr ((hlate until_).mp ⟨written, hwritten, hle⟩)
  · intro hlasts key until_ hbefore
    by_cases hkey : key = call.key
    · subst hkey
      rw [recorded_fail]
      rcases hlasts until_ hbefore with hleft | hlasting
      · rw [hnone.mpr hleft, Option.none_or]
        exact ⟨until_, hbefore, le_refl _⟩
      · obtain ⟨later, hwritten, hle⟩ := (hlate until_).mpr hlasting
        rw [hwritten, Option.some_or]
        exact ⟨later, rfl, hle⟩
    · rw [recorded_fail_of_ne hkey]
      exact ⟨until_, hbefore, le_refl _⟩

theorem sound_iff (hvalid : self.policy.validate = .ok ()) : Sound self call ↔ Lasts self call := by
  rw [← lengthens_fail_iff hvalid]
  refine ⟨Sound.lengthens, fun hlengthens => ⟨hlengthens, fun until_ hwritten => ?_, fun _ => ⟨BreakerPolicy.product_lt hvalid, ?_⟩⟩⟩
  · rw [upsert_failure_fst] at hwritten
    exact @suspend_until_le (self.wait call.elapsed) _ call.retry_after until_ hvalid hwritten
  · have hmax := (BreakerPolicy.validate_ok hvalid).2.2
    have hle : self.policy.backoff (self.next_fails call.key) ≤ self.policy.max_cooldown_secs := Nat.min_le_right _ _
    omega

/-- The upstream asks for an hour, and four more requests that were under way fail. -/
def late_failures : List FailureCall :=
  ⟨0, first_endpoint, some (Duration.from_secs 3600)⟩ :: List.replicate 4 ⟨Duration.from_secs 1, first_endpoint, none⟩

end HealthRepo

end refract.store
