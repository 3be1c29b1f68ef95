import Refract.Machine.Interleaving
import Refract.Store.Health

open refract.machine refract.upstream

namespace refract.store

/-- What is left of an operation on the health of an endpoint. Between two of
    these any other operation may take its steps. -/
inductive HealthOperation where
  /-- Looks the cache up, before a success is recorded or on its own. -/
  | suspended_until (key : Endpoint) (success : Bool)
  /-- Drops an entry that was found expired. -/
  | remove (key : Endpoint) (success : Bool)
  | upsert_success (key : Endpoint)
  | record_failure (key : Endpoint) (retry_after : Option Duration)
  | reset (key : Endpoint)
  | cache_suspension (key : Endpoint) (until_ : Option DateTime)
  deriving DecidableEq, Repr

namespace HealthOperation

/-- The endpoint that an operation is about. -/
def key : HealthOperation → Endpoint
  | .suspended_until key _ | .remove key _ | .upsert_success key | .record_failure key _ | .reset key
  | .cache_suspension key _ => key

def opens : HealthOperation → Bool
  | .suspended_until _ _ | .record_failure _ _ | .reset _ => true
  | .remove _ _ | .upsert_success _ | .cache_suspension _ _ => false

/-- What follows a look at the cache. -/
def looked (key : Endpoint) (success : Bool) : Option HealthOperation := if success then some (.upsert_success key) else none

/-- The next step of an operation. The database may fail its statement, and then
    the operation ends. -/
def advance (repo : HealthRepo) (operation : HealthOperation) (served : Bool) : HealthRepo × Option HealthOperation :=
  match operation with
  | .suspended_until key success =>
    match repo.lookup key with
    | .expired => (repo, some (.remove key success))
    | .running _ | .absent => (repo, looked key success)
  | .remove key success => (repo.remove key, looked key success)
  | .upsert_success key => if served then (repo.upsert_success key, some (.cache_suspension key none)) else (repo, none)
  | .record_failure key retry_after =>
    if served then
      match repo.upsert_failure key retry_after with
      | (some until_, written) => (written, some (.cache_suspension key (some until_)))
      | (none, written) => (written, none)
    else (repo, none)
  | .reset key => if served then (repo.update_reset key, some (.cache_suspension key none)) else (repo, none)
  | .cache_suspension key until_ => (repo.cache_suspension key until_, none)

/-- The statement of an operation comes next. -/
def writes : HealthOperation → Bool
  | .upsert_success _ | .record_failure _ _ | .reset _ => true
  | .suspended_until _ _ | .remove _ _ | .cache_suspension _ _ => false

/-- The look of an operation at the cache comes next. -/
def looks : HealthOperation → Bool
  | .suspended_until _ _ => true
  | _ => false

/-- An operation has changed the table and has yet to change the cache. -/
def Caches (key : Endpoint) (operation : HealthOperation) : Prop := ∃ until_, operation = .cache_suspension key until_

/-- An operation has found an expired entry and has yet to drop it. -/
def Drops (key : Endpoint) (operation : HealthOperation) : Prop := ∃ success, operation = .remove key success

/-- An operation has a step on the cache before it. -/
def Midway (key : Endpoint) (operation : HealthOperation) : Prop := operation.Caches key ∨ operation.Drops key

theorem Midway.key_eq {key : Endpoint} {operation : HealthOperation} (hmidway : operation.Midway key) :
    operation.key = key := by
  rcases hmidway with ⟨until_, rfl⟩ | ⟨success, rfl⟩ <;> rfl

theorem not_caches_of_writes {key : Endpoint} {operation : HealthOperation} (hwrites : operation.writes) :
    ¬operation.Caches key := by
  rintro ⟨_, rfl⟩
  cases hwrites

theorem not_caches_of_looks {key other : Endpoint} {success : Bool} :
    ¬(HealthOperation.suspended_until key success).Caches other := by
  rintro ⟨_, hcaches⟩
  cases hcaches

theorem not_midway_looked {key other : Endpoint} {success : Bool} {operation : HealthOperation}
    (hlooked : looked key success = some operation) : ¬operation.Midway other := by
  unfold looked at hlooked
  split at hlooked
  · obtain rfl := Option.some.inj hlooked
    rintro (⟨until_, hcaches⟩ | ⟨success, hdrops⟩)
    · cases hcaches
    · cases hdrops
  · cases hlooked

end HealthOperation

/-- What happens to the health of the endpoints besides. -/
inductive HealthEvent where
  | pass (time : Duration)
  | set_policy (policy : BreakerPolicy)

def HealthRepo.happen (self : HealthRepo) : HealthEvent → HealthRepo
  | .pass time => { self with now := self.now + time }
  | .set_policy policy => { self with policy := policy }

/-- The operations on the health of the endpoints. -/
def breaker : Interleaving HealthRepo HealthOperation Bool HealthEvent where
  opens := HealthOperation.opens
  advance := HealthOperation.advance
  happen := HealthRepo.happen

namespace HealthOperation

variable (repo : HealthRepo) (operation : HealthOperation) (served : Bool)

theorem looked_key {key : Endpoint} {success : Bool} {after : HealthOperation} (hlooked : looked key success = some after) :
    after.key = key := by
  unfold looked at hlooked
  split at hlooked
  · obtain rfl := Option.some.inj hlooked
    rfl
  · cases hlooked

/-- An operation stays with its endpoint. -/
theorem advance_key {after : HealthOperation} (hafter : (operation.advance repo served).2 = some after) :
    after.key = operation.key := by
  cases operation with
  | suspended_until key success =>
    simp only [advance] at hafter
    split at hafter
    · obtain rfl := Option.some.inj hafter
      rfl
    · exact looked_key hafter
    · exact looked_key hafter
  | remove key success => exact looked_key hafter
  | upsert_success key | reset key =>
    simp only [advance] at hafter
    split at hafter
    · obtain rfl := Option.some.inj hafter
      rfl
    · cases hafter
  | record_failure key retry_after =>
    simp only [advance] at hafter
    split at hafter
    · split at hafter
      · obtain rfl := Option.some.inj hafter
        rfl
      · cases hafter
    · cases hafter
  | cache_suspension key until_ => cases hafter

/-- A step changes nothing of other endpoints. -/
theorem advance_touches : HealthRepo.Touches operation.key repo (operation.advance repo served).1 := by
  cases operation with
  | suspended_until key success =>
    simp only [advance]
    split <;> exact .refl
  | remove key success => exact HealthRepo.touches_remove
  | upsert_success key =>
    simp only [advance]
    split
    · exact HealthRepo.touches_put _
    · exact .refl
  | record_failure key retry_after =>
    simp only [advance]
    split
    · have htouches : HealthRepo.Touches key repo (repo.upsert_failure key retry_after).2 := HealthRepo.touches_upsert_failure
      split
      · next hfailure => rwa [hfailure] at htouches
      · next hfailure => rwa [hfailure] at htouches
    · exact .refl
  | reset key =>
    simp only [advance]
    split
    · exact HealthRepo.touches_update_reset
    · exact .refl
  | cache_suspension key until_ => exact HealthRepo.touches_cache_suspension

end HealthOperation

section Alone

variable (repo : HealthRepo) (key : Endpoint)

/-- Left to themselves, the steps of an operation are the operation. -/
theorem finish_record_success :
    breaker.finish true 4 repo (.suspended_until key true) = (repo.record_success key).2 := by
  unfold HealthRepo.record_success HealthRepo.suspended_until
  cases hlookup : repo.lookup key <;>
    simp [Interleaving.finish, breaker, HealthOperation.advance, HealthOperation.looked, hlookup]

theorem finish_record_failure (retry_after : Option Duration) :
    breaker.finish true 2 repo (.record_failure key retry_after) = (repo.record_failure key retry_after).2 := by
  unfold HealthRepo.record_failure
  rcases hfailure : repo.upsert_failure key retry_after with ⟨_ | until_, written⟩ <;>
    simp [Interleaving.finish, breaker, HealthOperation.advance, hfailure]

theorem finish_reset : breaker.finish true 2 repo (.reset key) = repo.reset key := rfl

theorem finish_suspended_until :
    breaker.finish true 2 repo (.suspended_until key false) = (repo.suspended_until key).2 := by
  unfold HealthRepo.suspended_until
  cases hlookup : repo.lookup key <;>
    simp [Interleaving.finish, breaker, HealthOperation.advance, HealthOperation.looked, hlookup]

end Alone

/-- No statement on an endpoint is made, and no entry of it found expired, while
    another operation on it is between its statement and the cache; nor is a
    statement made while an expired entry of it is about to be dropped. -/
def Undisturbed (world : World HealthRepo HealthOperation) : Move HealthOperation Bool HealthEvent → Prop
  | .advance id _ => ∀ operation, world.pending id = some operation →
    (operation.writes → world.Others id (¬·.Midway operation.key)) ∧
      (operation.looks → world.shared.lookup operation.key = .expired → world.Others id (¬·.Caches operation.key))
  | .begin _ _ | .happen _ => True

/-- What holds of an endpoint between any two steps. -/
structure CoherentAt (world : World HealthRepo HealthOperation) (key : Endpoint) : Prop where
  /-- Unless the cache is behind, it agrees with the table. -/
  settled : (∀ id operation, world.pending id = some operation → ¬operation.Caches key) →
    world.shared.Holds key (world.shared.suspensions key)
  /-- What is to be cached is what the table holds, and nothing comes between. -/
  cached : ∀ id until_, world.pending id = some (.cache_suspension key until_) →
    world.shared.Holds key until_ ∧ world.Others id (¬·.Midway key)
  /-- What is to be dropped has expired. -/
  dropped : ∀ id success, world.pending id = some (.remove key success) →
    ∀ deadline, world.shared.suspensions key = some deadline → deadline ≤ world.shared.now

section Coherence

variable {world : World HealthRepo HealthOperation} {id : Nat} {operation : HealthOperation} {key : Endpoint}
  {repo : HealthRepo} {next : Option HealthOperation}

theorem CoherentAt.idle (hagrees : repo.Agrees) (key : Endpoint) : CoherentAt (.idle repo) key where
  settled _ := hagrees key
  cached _ _ hpending := by cases hpending
  dropped _ _ hpending := by cases hpending

/-- The cache is not behind unless the operation that takes the step makes it so. -/
theorem CoherentAt.holds (hcoherent : CoherentAt world key)
    (hbefore : ∀ before, world.pending id = some before → ¬before.Caches key)
    (hnone : ∀ other after, (world.set id repo next).pending other = some after → ¬after.Caches key) :
    world.shared.Holds key (world.shared.suspensions key) := by
  refine hcoherent.settled fun other before hother => ?_
  by_cases hsame : other = id
  · subst hsame
    exact hbefore before hother
  · exact hnone other before (by rwa [World.set_pending_of_ne hsame])

/-- A step on one endpoint keeps what holds of the others. -/
theorem CoherentAt.frame (hcoherent : CoherentAt world key) (hpending : world.pending id = some operation)
    (hkey : operation.key ≠ key) (hnext : ∀ after, next = some after → after.key = operation.key)
    (htouches : HealthRepo.Touches operation.key world.shared repo) : CoherentAt (world.set id repo next) key where
  settled hnone := by
    rw [World.set_shared, htouches.holds hkey.symm, htouches.suspensions key hkey.symm]
    refine hcoherent.holds (fun before hbefore hcaches => ?_) hnone
    obtain rfl := Option.some.inj (hpending.symm.trans hbefore)
    exact hkey (HealthOperation.Midway.key_eq (.inl hcaches))
  cached other until_ hother := by
    rw [World.set_shared, htouches.holds hkey.symm]
    rcases World.set_pending_cases hother with ⟨-, hafter⟩ | ⟨hne, hbefore⟩
    · exact absurd (hnext _ hafter).symm hkey
    · obtain ⟨hholds, hothers⟩ := hcoherent.cached other until_ hbefore
      refine ⟨hholds, fun third after hthird hafter hmidway => ?_⟩
      rcases World.set_pending_cases hafter with ⟨-, hafter⟩ | ⟨-, hafter⟩
      · exact hkey ((hnext _ hafter).symm.trans hmidway.key_eq)
      · exact hothers third after hthird hafter hmidway
  dropped other success hother := by
    rw [World.set_shared, htouches.suspensions key hkey.symm, htouches.now]
    rcases World.set_pending_cases hother with ⟨-, hafter⟩ | ⟨-, hbefore⟩
    · exact absurd (hnext _ hafter).symm hkey
    · exact hcoherent.dropped other success hbefore

/-- A step of an operation that has the endpoint to itself. -/
theorem CoherentAt.alone (hothers : world.Others id (¬·.Midway key))
    (hsettled : (∀ after, next = some after → ¬after.Caches key) → repo.Holds key (repo.suspensions key))
    (hcached : ∀ until_, next = some (.cache_suspension key until_) → repo.Holds key until_)
    (hdropped : ∀ success, next = some (.remove key success) →
      ∀ deadline, repo.suspensions key = some deadline → deadline ≤ repo.now) :
    CoherentAt (world.set id repo next) key where
  settled hnone := hsettled fun after hafter => hnone id after (by rw [World.set_pending_self, hafter])
  cached other until_ hother := by
    rcases World.set_pending_cases hother with ⟨rfl, hafter⟩ | ⟨hne, hbefore⟩
    · exact ⟨hcached until_ hafter, World.set_others.mpr hothers⟩
    · exact absurd (.inl ⟨until_, rfl⟩) (hothers other _ hne hbefore)
  dropped other success hother := by
    rcases World.set_pending_cases hother with ⟨-, hafter⟩ | ⟨hne, hbefore⟩
    · exact hdropped success hafter
    · exact absurd (.inr ⟨success, rfl⟩) (hothers other _ hne hbefore)

/-- A step that leaves table and cache of the endpoint as they are. -/
theorem CoherentAt.idles (hcoherent : CoherentAt world key)
    (hbefore : ∀ before, world.pending id = some before → ¬before.Caches key) (hafter : ∀ after, next = some after → ¬after.Midway key) :
    CoherentAt (world.set id world.shared next) key where
  settled hnone := hcoherent.holds hbefore hnone
  cached other until_ hother := by
    rcases World.set_pending_cases hother with ⟨-, hnext⟩ | ⟨hne, hold⟩
    · exact absurd (.inl ⟨until_, rfl⟩) (hafter _ hnext)
    · obtain ⟨hholds, hothers⟩ := hcoherent.cached other until_ hold
      refine ⟨hholds, fun third after hthird hset => ?_⟩
      rcases World.set_pending_cases hset with ⟨-, hnext⟩ | ⟨-, hold⟩
      · exact hafter after hnext
      · exact hothers third after hthird hold
  dropped other success hother := by
    rcases World.set_pending_cases hother with ⟨-, hnext⟩ | ⟨-, hold⟩
    · exact absurd (.inr ⟨success, rfl⟩) (hafter _ hnext)
    · exact hcoherent.dropped other success hold

/-- A step after which only expired entries are left to be dropped. -/
theorem CoherentAt.expires (hcoherent : CoherentAt world key)
    (hothers : world.Others id (¬·.Caches key)) (hbefore : ∀ before, world.pending id = some before → ¬before.Caches key)
    (hafter : ∀ after, next = some after → ¬after.Caches key)
    (hholds : world.shared.Holds key (world.shared.suspensions key) → repo.Holds key (repo.suspensions key))
    (hexpired : ∀ deadline, repo.suspensions key = some deadline → deadline ≤ repo.now) :
    CoherentAt (world.set id repo next) key where
  settled hnone := hholds (hcoherent.holds hbefore hnone)
  cached other until_ hother := by
    rcases World.set_pending_cases hother with ⟨-, hnext⟩ | ⟨hne, hold⟩
    · exact absurd ⟨until_, rfl⟩ (hafter _ hnext)
    · exact absurd ⟨until_, rfl⟩ (hothers other _ hne hold)
  dropped _ _ _ := hexpired

/-- A statement that leaves a suspension to be cached. -/
theorem CoherentAt.committed {until_ : Option DateTime} (hothers : world.Others id (¬·.Midway key))
    (hrecorded : repo.recorded key = until_) : CoherentAt (world.set id repo (some (.cache_suspension key until_))) key := by
  refine .alone hothers ?_ ?_ ?_
  · intro hnone
    exact absurd ⟨until_, rfl⟩ (hnone _ rfl)
  · intro after hafter
    obtain ⟨-, rfl⟩ := HealthOperation.cache_suspension.inj (Option.some.inj hafter)
    exact HealthRepo.holds_of_recorded hrecorded
  · intro success hafter
    cases hafter

theorem CoherentAt.advance {served : Bool} (hcoherent : CoherentAt world operation.key)
    (hpending : world.pending id = some operation) (hmove : Undisturbed world (.advance id served)) :
    CoherentAt (world.set id (operation.advance world.shared served).1 (operation.advance world.shared served).2)
      operation.key := by
  obtain ⟨hwrites, hlooks⟩ := hmove operation hpending
  have hbefore : ¬operation.Caches operation.key → ∀ before, world.pending id = some before → ¬before.Caches operation.key := by
    intro hnot before hbefore
    rwa [← Option.some.inj (hpending.symm.trans hbefore)]
  cases operation with
  | suspended_until key success =>
    have hbefore := hbefore HealthOperation.not_caches_of_looks
    simp only [HealthOperation.advance]
    split
    · next hexpired =>
      -- Nobody is about to replace the entry that is going to be dropped.
      refine hcoherent.expires (hlooks rfl hexpired) hbefore ?_ (fun hholds => hholds)
        fun deadline => HealthRepo.lookup_expired hexpired
      intro after hafter
      obtain rfl := Option.some.inj hafter
      rintro ⟨_, hcaches⟩
      cases hcaches
    · exact hcoherent.idles hbefore fun _ => HealthOperation.not_midway_looked
    · exact hcoherent.idles hbefore fun _ => HealthOperation.not_midway_looked
  | remove key success =>
    have hexpired := hcoherent.dropped id success hpending
    have hothers : world.Others id (¬·.Caches key) := by
      rintro other after hother hafter ⟨until_, rfl⟩
      obtain ⟨-, halone⟩ := hcoherent.cached other until_ hafter
      exact halone id _ hother.symm hpending (.inr ⟨success, rfl⟩)
    refine hcoherent.expires hothers (hbefore ?_) ?_ (HealthRepo.remove_holds hexpired) ?_
    · rintro ⟨_, hcaches⟩
      cases hcaches
    · intro after hafter hcaches
      exact HealthOperation.not_midway_looked hafter (.inl hcaches)
    · intro deadline hentry
      have hnone : (world.shared.remove key).suspensions key = none := HealthRepo.remove_suspensions
      cases hnone.symm.trans hentry
  | upsert_success key =>
    simp only [HealthOperation.advance]
    split
    · exact .committed (hwrites rfl) HealthRepo.upsert_success_recorded
    · exact hcoherent.idles (hbefore (HealthOperation.not_caches_of_writes rfl)) fun _ hnone => by cases hnone
  | record_failure key retry_after =>
    have hbefore := hbefore (HealthOperation.not_caches_of_writes rfl)
    simp only [HealthOperation.advance]
    split
    · split
      · next until_ written hfailure =>
        refine .committed (hwrites rfl) ?_
        have hrecorded := @HealthRepo.upsert_failure_recorded world.shared key retry_after
        rwa [hfailure, Option.some_or] at hrecorded
      · next written hfailure =>
        refine .alone (hwrites rfl) (fun _ => ?_) (fun _ hnone => by cases hnone) (fun _ hnone => by cases hnone)
        have hsettled : world.shared.Holds key (world.shared.suspensions key) := by
          refine hcoherent.settled fun other before hother hcaches => ?_
          by_cases hsame : other = id
          · subst hsame
            exact hbefore before hother hcaches
          · exact hwrites rfl other before hsame hother (.inl hcaches)
        have hholds := @HealthRepo.upsert_failure_holds world.shared key retry_after (by rw [hfailure]) hsettled
        rwa [hfailure] at hholds
    · exact hcoherent.idles hbefore fun _ hnone => by cases hnone
  | reset key =>
    simp only [HealthOperation.advance]
    split
    · exact .committed (hwrites rfl) HealthRepo.update_reset_recorded
    · exact hcoherent.idles (hbefore (HealthOperation.not_caches_of_writes rfl)) fun _ hnone => by cases hnone
  | cache_suspension key until_ =>
    obtain ⟨hholds, hothers⟩ := hcoherent.cached id until_ hpending
    exact .alone hothers (fun _ => HealthRepo.holds_cache_suspension hholds) (fun _ hnone => by cases hnone)
      (fun _ hnone => by cases hnone)

/-- Time passes and policies change without harm. -/
theorem CoherentAt.happen (hcoherent : CoherentAt world key) (event : HealthEvent) :
    CoherentAt { world with shared := world.shared.happen event } key := by
  have hnow : world.shared.now ≤ (world.shared.happen event).now := by
    cases event with
    | pass time => exact Nat.le_add_right _ _
    | set_policy policy => exact Nat.le_refl _
  have hsuspensions : (world.shared.happen event).suspensions = world.shared.suspensions := by cases event <;> rfl
  have hholds : ∀ until_, world.shared.Holds key until_ → (world.shared.happen event).Holds key until_ := by
    intro until_ hholds deadline hrunning
    have hrecorded : (world.shared.happen event).recorded key = world.shared.recorded key := by cases event <;> rfl
    rw [hrecorded]
    exact hholds deadline (Nat.lt_of_le_of_lt hnow hrunning)
  constructor
  · intro hnone
    simp only [hsuspensions]
    exact hholds _ (hcoherent.settled hnone)
  · intro id until_ hpending
    obtain ⟨hold, hothers⟩ := hcoherent.cached id until_ hpending
    exact ⟨hholds _ hold, hothers⟩
  · intro id success hpending deadline hentry
    simp only [hsuspensions] at hentry
    exact Nat.le_trans (hcoherent.dropped id success hpending deadline hentry) hnow

/-- An operation that only begins is not midway. -/
theorem CoherentAt.begin (hcoherent : CoherentAt world key) (hopens : operation.opens) (hpending : world.pending id = none) :
    CoherentAt (world.set id world.shared (some operation)) key := by
  refine hcoherent.idles (fun before hbefore => ?_) fun after hafter => ?_
  · cases hpending.symm.trans hbefore
  · obtain rfl := Option.some.inj hafter
    rintro (⟨_, rfl⟩ | ⟨_, rfl⟩) <;> cases hopens

theorem CoherentAt.step (hcoherent : ∀ key, CoherentAt world key) (move : Move HealthOperation Bool HealthEvent)
    (hmove : Undisturbed world move) (key : Endpoint) : CoherentAt (breaker.step world move) key := by
  rcases breaker.step_cases world move with
    hsame | ⟨id, operation, -, hpending, hopens, hstep⟩ | ⟨id, operation, served, rfl, hpending, hstep⟩ | ⟨event, -, hstep⟩
  · rw [hsame]
    exact hcoherent key
  · rw [hstep]
    exact (hcoherent key).begin hopens hpending
  · rw [hstep]
    by_cases hkey : operation.key = key
    · subst hkey
      exact (hcoherent _).advance hpending hmove
    · exact (hcoherent key).frame hpending hkey (fun _ => HealthOperation.advance_key _ _ _)
        (HealthOperation.advance_touches _ _ _)
  · rw [hstep]
    exact (hcoherent key).happen event

end Coherence

/-- Once nothing is under way any more, the cache agrees with the table, provided
    that no operation was disturbed. -/
theorem breaker_cache_agrees (repo : HealthRepo) (moves : List (Move HealthOperation Bool HealthEvent))
    (hmeets : breaker.Meets Undisturbed (.idle repo.warm_cache) moves)
    (hquiet : (breaker.run (.idle repo.warm_cache) moves).Quiescent) :
    (breaker.run (.idle repo.warm_cache) moves).shared.Agrees := by
  intro key
  have hcoherent := breaker.invariant_run (fun world => ∀ key, CoherentAt world key)
    (fun world move hcoherent hmove key => CoherentAt.step hcoherent move hmove key)
    (CoherentAt.idle HealthRepo.agrees_warm_cache) hmeets
  refine (hcoherent key).settled fun id operation hpending => ?_
  cases (hquiet id).symm.trans hpending

/-- A failure that is recorded on its own. -/
def lone_failure : List (Move HealthOperation Bool HealthEvent) :=
  [.begin 0 (.record_failure first_endpoint (some 10)), .advance 0 true, .advance 0 true]

theorem lone_failure_agrees : (breaker.run (.idle HealthRepo.fresh.warm_cache) lone_failure).shared.Agrees := by
  refine breaker_cache_agrees HealthRepo.fresh lone_failure ⟨trivial, ?_, ?_, trivial⟩ ?_
  · intro operation _
    exact ⟨fun _ => World.set_others.mpr (World.idle_others _), fun _ _ => World.set_others.mpr (World.idle_others _)⟩
  · intro operation _
    exact ⟨fun _ => World.set_others.mpr (World.set_others.mpr (World.idle_others _)),
      fun _ _ => World.set_others.mpr (World.set_others.mpr (World.idle_others _))⟩
  · rintro (_ | id) <;> rfl

/-- A success is recorded whole between the transaction of a failure and its
    cache update. -/
def crossed_success : List (Move HealthOperation Bool HealthEvent) :=
  [.begin 0 (.record_failure first_endpoint (some 10)), .advance 0 true,
    .begin 1 (.suspended_until first_endpoint true), .advance 1 true, .advance 1 true, .advance 1 true,
    .advance 0 true]

/-- The endpoint stays suspended in the cache, and is not in the table. -/
theorem crossed_success_disagrees :
    (breaker.run (.idle HealthRepo.fresh.warm_cache) crossed_success).Quiescent ∧
      ¬(breaker.run (.idle HealthRepo.fresh.warm_cache) crossed_success).shared.Agrees := by
  constructor
  · rintro (_ | _ | id) <;> rfl
  · intro hagrees
    have hrecorded := (hagrees first_endpoint 10 (Nat.succ_pos 9)).mp rfl
    cases hrecorded

end refract.store
