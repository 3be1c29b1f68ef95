import Mathlib.Logic.Function.Basic
import Refract.Upstream.Client

open refract.core refract.upstream

namespace refract.store

/-- A point in time, in nanoseconds. -/
abbrev DateTime := Nat

/-- An endpoint of a channel, by the channel and its protocol. -/
abbrev Endpoint := Int × Protocol

/-- When an endpoint is suspended, and for how long. -/
structure BreakerPolicy where
  /-- Zero stands for never. -/
  failure_threshold : Nat := 5
  base_cooldown_secs : Nat := 30
  max_cooldown_secs : Nat := 900
  deriving DecidableEq, Repr

def BreakerPolicy.cooldown_for (self : BreakerPolicy) (consecutive_fails : Nat) : Duration :=
  if self.failure_threshold = 0 ∨ consecutive_fails < self.failure_threshold then 0
  else
    let excess := consecutive_fails - self.failure_threshold
    let factor := 1 <<< min excess 16
    Duration.from_secs (min (min (self.base_cooldown_secs * factor) 18446744073709551615) self.max_cooldown_secs)

/-- A row of the table `channel_health`. -/
structure EndpointHealth where
  consecutive_fails : Nat := 0
  total_requests : Nat := 0
  total_failures : Nat := 0
  suspended_until : Option DateTime := none
  deriving DecidableEq, Repr

def EndpointHealth.is_suspended_at (self : EndpointHealth) (now : DateTime) : Bool := self.suspended_until.any (now < ·)

/-- A row after one more success. -/
def EndpointHealth.succeed (self : EndpointHealth) : EndpointHealth :=
  { self with
    consecutive_fails := 0
    total_requests := self.total_requests + 1
    suspended_until := none }

/-- A row after one more failure, which as such suspends nothing. -/
def EndpointHealth.fail (self : EndpointHealth) : EndpointHealth :=
  { self with
    consecutive_fails := self.consecutive_fails + 1
    total_requests := self.total_requests + 1
    total_failures := self.total_failures + 1 }

/-- The health of the endpoints, with the cache of their suspensions and the
    clock. -/
structure HealthRepo where
  channel_health : Endpoint → Option EndpointHealth
  policy : BreakerPolicy := {}
  suspensions : Endpoint → Option DateTime := fun _ => none
  now : DateTime

/-- What the cache knows of an endpoint. -/
inductive Suspension where
  | running (until_ : DateTime)
  | expired
  | absent
  deriving DecidableEq, Repr

/-- An endpoint of a first channel. -/
def first_endpoint : Endpoint := (1, .chat)

namespace HealthRepo

/-- No endpoint was ever called. -/
def fresh : HealthRepo where
  channel_health _ := none
  now := 0

variable (self : HealthRepo) (key : Endpoint)

/-- Fills the cache from the table. -/
def warm_cache : HealthRepo :=
  { self with suspensions := fun key => ((self.channel_health key).bind (·.suspended_until)).filter (self.now < ·) }

/-- Looks an endpoint up, with the cache locked for reading. -/
def lookup : Suspension :=
  match self.suspensions key with
  | some until_ => if self.now < until_ then .running until_ else .expired
  | none => .absent

/-- Drops the entry of an endpoint from the cache. -/
def remove : HealthRepo := { self with suspensions := Function.update self.suspensions key none }

/-- How long an endpoint is suspended, by the cache alone. -/
def suspended_until : Option DateTime × HealthRepo :=
  match self.lookup key with
  | .running until_ => (some until_, self)
  | .expired => (none, self.remove key)
  | .absent => (none, self)

/-- Writes a suspension, or that there is none, through to the cache. -/
def cache_suspension (until_ : Option DateTime) : HealthRepo :=
  match until_.filter (self.now < ·) with
  | some until_ => { self with suspensions := Function.update self.suspensions key (some until_) }
  | none => self.remove key

/-- The row of an endpoint as a statement finds it. -/
def row : EndpointHealth := (self.channel_health key).getD {}

def put (row : EndpointHealth) : HealthRepo :=
  { self with channel_health := Function.update self.channel_health key (some row) }

/-- The statement of `record_success`. -/
def upsert_success : HealthRepo := self.put key (self.row key).succeed

/-- The largest wait that a duration of the clock can hold, in nanoseconds. -/
def max_duration : Duration := 9223372036854775807 * 1000000

/-- When a failure suspends an endpoint until, if it does. -/
def suspend_until (fails : Nat) (retry_after : Option Duration) : Option DateTime :=
  let cooldown := self.policy.cooldown_for (fails % 4294967296)
  let breaker_until := if 0 < cooldown then some (self.now + cooldown) else none
  let hold_until := (retry_after.filter (· ≤ max_duration)).map (self.now + ·)
  match breaker_until, hold_until with
  | some a, some b => some (max a b)
  | a, b => a.or b

/-- The transaction of `record_failure`, with the suspension it wrote. -/
def upsert_failure (retry_after : Option Duration) : Option DateTime × HealthRepo :=
  match self.suspend_until (self.row key).fail.consecutive_fails retry_after with
  | some until_ => (some until_, self.put key { (self.row key).fail with suspended_until := some until_ })
  | none => (none, self.put key (self.row key).fail)

/-- The statement of `reset`. -/
def update_reset : HealthRepo :=
  match self.channel_health key with
  | some row => self.put key { row with consecutive_fails := 0, suspended_until := none }
  | none => self

/-- Records a success, and tells whether the endpoint was suspended. -/
def record_success : Bool × HealthRepo :=
  let looked := self.suspended_until key
  (looked.1.isSome, (looked.2.upsert_success key).cache_suspension key none)

/-- Records a failure, and returns the row. -/
def record_failure (retry_after : Option Duration) : EndpointHealth × HealthRepo :=
  let written := self.upsert_failure key retry_after
  let cached := if written.1.isSome then written.2.cache_suspension key written.1 else written.2
  (cached.row key, cached)

def reset : HealthRepo := (self.update_reset key).cache_suspension key none

/-- The suspension that the table holds for an endpoint. -/
def recorded : Option DateTime := (self.channel_health key).bind (·.suspended_until)

/-- As far as it runs, a suspension is the one that the table holds. -/
def Holds (until_ : Option DateTime) : Prop :=
  ∀ deadline, self.now < deadline → (until_ = some deadline ↔ self.recorded key = some deadline)

/-- The cache and the table know of the same running suspensions. -/
def Agrees : Prop := ∀ key, self.Holds key (self.suspensions key)

/-- Only one endpoint, or none, fares differently. -/
structure Touches (endpoint : Endpoint) (before after : HealthRepo) : Prop where
  now : after.now = before.now
  suspensions : ∀ other, other ≠ endpoint → after.suspensions other = before.suspensions other
  recorded : ∀ other, other ≠ endpoint → after.recorded other = before.recorded other

variable {self key} {until_ : Option DateTime}

theorem Touches.refl : Touches key self self := ⟨rfl, fun _ _ => rfl, fun _ _ => rfl⟩

theorem Touches.holds {after : HealthRepo} (htouches : Touches key self after) {other : Endpoint} (hother : other ≠ key) :
    after.Holds other until_ ↔ self.Holds other until_ := by
  rw [Holds, Holds, htouches.now, htouches.recorded other hother]

theorem agrees_warm_cache : self.warm_cache.Agrees := by
  intro key deadline hrunning
  have hnow : decide (self.now < deadline) = true := decide_eq_true hrunning
  simp only [warm_cache, recorded, Option.filter_eq_some_iff]
  exact and_iff_left hnow

theorem lookup_expired (hlookup : self.lookup key = .expired) {deadline : DateTime}
    (hentry : self.suspensions key = some deadline) : deadline ≤ self.now := by
  rw [lookup, hentry] at hlookup
  by_cases hrunning : self.now < deadline
  · simp [hrunning] at hlookup
  · exact Nat.le_of_not_lt hrunning

theorem touches_remove : Touches key self (self.remove key) :=
  ⟨rfl, fun _ hother => Function.update_of_ne hother .., fun _ _ => rfl⟩

@[simp] theorem remove_suspensions : (self.remove key).suspensions key = none := Function.update_self ..

theorem touches_put (row : EndpointHealth) : Touches key self (self.put key row) where
  now := rfl
  suspensions _ _ := rfl
  recorded other hother := by
    simp only [recorded, put, Function.update_of_ne hother]

theorem recorded_put (row : EndpointHealth) : (self.put key row).recorded key = row.suspended_until := by
  simp only [recorded, put, Function.update_self, Option.bind_some]

theorem recorded_eq_row : self.recorded key = (self.row key).suspended_until := by
  rw [recorded, row]
  cases self.channel_health key <;> rfl

theorem touches_cache_suspension : Touches key self (self.cache_suspension key until_) := by
  unfold cache_suspension
  split
  · exact ⟨rfl, fun _ hother => Function.update_of_ne hother .., fun _ _ => rfl⟩
  · exact touches_remove

theorem recorded_cache_suspension : (self.cache_suspension key until_).recorded key = self.recorded key := by
  unfold cache_suspension
  split <;> rfl

/-- What is written through to the cache is there as far as it runs. -/
theorem suspensions_cache_suspension {deadline : DateTime} (hrunning : self.now < deadline) :
    (self.cache_suspension key until_).suspensions key = some deadline ↔ until_ = some deadline := by
  have hiff : until_.filter (self.now < ·) = some deadline ↔ until_ = some deadline := by
    rw [Option.filter_eq_some_iff]
    exact and_iff_left (decide_eq_true hrunning)
  rw [← hiff, cache_suspension]
  split
  · next hfilter => simp only [hfilter, Function.update_self]
  · next hfilter => rw [hfilter, remove_suspensions]

theorem holds_cache_suspension (hholds : self.Holds key until_) :
    (self.cache_suspension key until_).Holds key ((self.cache_suspension key until_).suspensions key) := by
  intro deadline hrunning
  rw [touches_cache_suspension.now] at hrunning
  rw [suspensions_cache_suspension hrunning, recorded_cache_suspension]
  exact hholds deadline hrunning

theorem holds_of_recorded (hrecorded : self.recorded key = until_) : self.Holds key until_ := by
  intro deadline _
  rw [hrecorded]

theorem upsert_success_recorded : (self.upsert_success key).recorded key = none := recorded_put _

theorem update_reset_recorded : (self.update_reset key).recorded key = none := by
  unfold update_reset
  split
  · exact recorded_put _
  · next hnone => rw [recorded, hnone, Option.bind_none]

theorem touches_update_reset : Touches key self (self.update_reset key) := by
  unfold update_reset
  split
  · exact touches_put _
  · exact .refl

theorem touches_upsert_failure {retry_after : Option Duration} :
    Touches key self (self.upsert_failure key retry_after).2 := by
  unfold upsert_failure
  split
  · exact touches_put _
  · exact touches_put _

/-- A failure writes the suspension that it reports, and leaves an old one alone
    if it suspends nothing. -/
theorem upsert_failure_recorded {retry_after : Option Duration} :
    (self.upsert_failure key retry_after).2.recorded key =
      (self.upsert_failure key retry_after).1.or (self.recorded key) := by
  unfold upsert_failure
  split
  · exact recorded_put _
  · rw [recorded_put, recorded_eq_row, Option.none_or]
    rfl

theorem upsert_failure_suspensions {retry_after : Option Duration} :
    (self.upsert_failure key retry_after).2.suspensions = self.suspensions := by
  unfold upsert_failure
  split <;> rfl

/-- A failure that suspends nothing leaves cache and table in agreement. -/
theorem upsert_failure_holds {retry_after : Option Duration} (hnone : (self.upsert_failure key retry_after).1 = none)
    (hholds : self.Holds key (self.suspensions key)) :
    (self.upsert_failure key retry_after).2.Holds key ((self.upsert_failure key retry_after).2.suspensions key) := by
  intro deadline hrunning
  rw [touches_upsert_failure.now] at hrunning
  rw [upsert_failure_suspensions, upsert_failure_recorded, hnone, Option.none_or]
  exact hholds deadline hrunning

/-- Dropping an expired entry takes no running suspension away. -/
theorem remove_holds (hexpired : ∀ deadline, self.suspensions key = some deadline → deadline ≤ self.now)
    (hholds : self.Holds key (self.suspensions key)) : (self.remove key).Holds key ((self.remove key).suspensions key) := by
  intro deadline hrunning
  rw [remove_suspensions]
  constructor
  · intro hnone
    cases hnone
  · intro hrecorded
    have hentry := (hholds deadline hrunning).mpr hrecorded
    exact absurd hrunning (Nat.not_lt_of_le (hexpired deadline hentry))

theorem Touches.trans {middle after : HealthRepo} (hfirst : Touches key self middle) (hsecond : Touches key middle after) :
    Touches key self after where
  now := hsecond.now.trans hfirst.now
  suspensions other hother := (hsecond.suspensions other hother).trans (hfirst.suspensions other hother)
  recorded other hother := (hsecond.recorded other hother).trans (hfirst.recorded other hother)

theorem Touches.agrees {after : HealthRepo} (htouches : Touches key self after) (hagrees : self.Agrees)
    (hholds : after.Holds key (after.suspensions key)) : after.Agrees := by
  intro other
  by_cases hother : other = key
  · exact hother ▸ hholds
  · rw [htouches.holds hother, htouches.suspensions other hother]
    exact hagrees other

theorem touches_suspended_until : Touches key self (self.suspended_until key).2 := by
  unfold suspended_until
  split
  · exact .refl
  · exact touches_remove
  · exact .refl

theorem record_success_snd : (self.record_success key).2 =
    ((self.suspended_until key).2.upsert_success key).cache_suspension key none := rfl

theorem touches_record_success : Touches key self (self.record_success key).2 := by
  rw [record_success_snd]
  exact (touches_suspended_until.trans (touches_put _)).trans touches_cache_suspension

theorem touches_reset : Touches key self (self.reset key) := touches_update_reset.trans touches_cache_suspension

theorem touches_record_failure {retry_after : Option Duration} :
    Touches key self (self.record_failure key retry_after).2 := by
  simp only [HealthRepo.record_failure]
  split
  · exact touches_upsert_failure.trans touches_cache_suspension
  · exact touches_upsert_failure

theorem recorded_record_success : (self.record_success key).2.recorded key = none := by
  rw [record_success_snd, recorded_cache_suspension, upsert_success_recorded]

theorem recorded_reset : (self.reset key).recorded key = none := recorded_cache_suspension.trans update_reset_recorded

/-- The row that a failure returns is the one in the table. -/
theorem record_failure_row {retry_after : Option Duration} :
    (self.record_failure key retry_after).1.suspended_until = (self.record_failure key retry_after).2.recorded key :=
  recorded_eq_row.symm

theorem Agrees.record_success (hagrees : self.Agrees) : (self.record_success key).2.Agrees :=
  touches_record_success.agrees hagrees (holds_cache_suspension (holds_of_recorded upsert_success_recorded))

theorem Agrees.reset (hagrees : self.Agrees) : (self.reset key).Agrees :=
  touches_reset.agrees hagrees (holds_cache_suspension (holds_of_recorded update_reset_recorded))

theorem Agrees.record_failure {retry_after : Option Duration} (hagrees : self.Agrees) :
    (self.record_failure key retry_after).2.Agrees := by
  refine touches_record_failure.agrees hagrees ?_
  have hrecorded := @upsert_failure_recorded self key retry_after
  simp only [HealthRepo.record_failure]
  cases hsuspended : (self.upsert_failure key retry_after).1 with
  | some until_ =>
    rw [hsuspended, Option.some_or] at hrecorded
    simp only [Option.isSome_some, if_true]
    exact holds_cache_suspension (holds_of_recorded hrecorded)
  | none =>
    simp only [Option.isSome_none, Bool.false_eq_true, if_false]
    exact upsert_failure_holds hsuspended (hagrees key)

/-- What the cache tells of an endpoint is the running suspension in the table. -/
theorem suspended_until_fst (hagrees : self.Agrees) {deadline : DateTime} :
    (self.suspended_until key).1 = some deadline ↔ self.recorded key = some deadline ∧ self.now < deadline := by
  unfold suspended_until lookup
  cases hentry : self.suspensions key with
  | none =>
    constructor
    · intro hnone
      cases hnone
    · rintro ⟨hrecorded, hrunning⟩
      cases hentry.symm.trans ((hagrees key deadline hrunning).mpr hrecorded)
  | some until_ =>
    by_cases hrunning : self.now < until_
    · simp only [hrunning, if_true]
      constructor
      · intro hsame
        obtain rfl := Option.some.inj hsame
        exact ⟨(hagrees key until_ hrunning).mp hentry, hrunning⟩
      · rintro ⟨hrecorded, hlater⟩
        rw [← hentry]
        exact (hagrees key deadline hlater).mpr hrecorded
    · simp only [hrunning, if_false]
      constructor
      · intro hnone
        cases hnone
      · rintro ⟨hrecorded, hlater⟩
        obtain rfl := Option.some.inj (hentry.symm.trans ((hagrees key deadline hlater).mpr hrecorded))
        exact absurd hlater hrunning

end HealthRepo

end refract.store
