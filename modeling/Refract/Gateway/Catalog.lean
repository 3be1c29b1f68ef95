import Refract.Gateway.Admin
import Refract.Machine.Interleaving
import Refract.Machine.Stamped

open refract.core refract.machine refract.store

namespace refract.gateway

/-- The table of channels and the snapshot that requests are routed by. -/
structure Catalog where
  repo : ChannelRepo
  /-- The transactions that were committed. -/
  commits : Nat := 0
  snapshot : Stamped (List Channel)

namespace Catalog

variable (self : Catalog)

/-- What the snapshot is a reading of. -/
def listed : Stamped (List Channel) := ⟨self.repo.list_all, self.commits⟩

/-- The table as it is when the gateway starts. -/
def load (repo : ChannelRepo) : Catalog where
  repo := repo
  snapshot := ⟨repo.list_all, 0⟩

def commit (after : ChannelRepo) : Catalog := { self with repo := after, commits := self.commits + 1 }

def store (channels : Stamped (List Channel)) : Catalog := { self with snapshot := channels }

end Catalog

/-- An operation on the channels under way. -/
inductive Edit where
  | arrived (request : AdminRequest)
  /-- Rows were changed already, or were not. -/
  | working (work : Work) (changed : Bool)
  /-- The channels were read again, and are not in the snapshot yet. -/
  | storing (channels : Stamped (List Channel))

/-- The next step of an operation. A fault is an error of the database, or the
    end of the connection that the operation was asked for on. -/
def Edit.advance (shared : Catalog) (edit : Edit) (fault : Bool) : Catalog × Option Edit :=
  match edit with
  | .arrived request => (shared, some (.working request.work false))
  | .storing channels => (shared.store channels, none)
  | .working work changed =>
    if fault then (shared, none)
    else
      match work with
      | .refuse => (shared, none)
      | .commit_channels => (shared, some (.storing shared.listed))
      | .query next => (shared, some (.working (next shared.repo) changed))
      | .write change next =>
        match change.commit shared.repo with
        | some after => (shared.commit after, some (.working (next after) true))
        | none => (shared, none)

/-- The table changes in transactions alone. -/
theorem Edit.advance_repo (shared : Catalog) (edit : Edit) (fault : Bool) :
    (edit.advance shared fault).1.repo = shared.repo ∨
      ∃ change next changed after, edit = .working (.write change next) changed ∧ fault = false ∧
        change.commit shared.repo = some after ∧ (edit.advance shared fault).1.repo = after := by
  cases edit with
  | arrived => exact .inl rfl
  | storing => exact .inl rfl
  | working work changed =>
    cases fault with
    | true => exact .inl rfl
    | false =>
      cases work with
      | refuse => exact .inl rfl
      | commit_channels => exact .inl rfl
      | query => exact .inl rfl
      | write change next =>
        cases hcommit : change.commit shared.repo with
        | none => exact .inl (by simp [Edit.advance, hcommit])
        | some after => exact .inr ⟨change, next, changed, after, rfl, rfl, hcommit, by simp [Edit.advance, hcommit, Catalog.commit]⟩

/-- Operations on the channels, each in its own time. -/
def catalog : Interleaving Catalog Edit Bool Unit where
  opens
    | .arrived _ => true
    | _ => false
  advance := Edit.advance
  happen shared _ := shared

/-- An operation that has changed rows goes on until it has read the channels
    again, and no reading replaces a later one in the snapshot. -/
def Orderly (world : World Catalog Edit) : Move Edit Bool Unit → Prop
  | .advance id fault =>
    match world.pending id with
    | some (.working work true) => fault = false ∧ work.fails world.shared.repo = false
    | some (.storing channels) => world.shared.snapshot.stamp ≤ channels.stamp
    | _ => True
  | _ => True

/-- The snapshot does not lag behind the table for good. -/
def Edit.Catches (shared : Catalog) : Edit → Prop
  | .arrived _ => False
  | .working _ changed => changed = true
  | .storing channels => channels.stamp = shared.commits

/-- Readings under way are readings of the table. -/
def Edit.Reads (shared : Catalog) : Edit → Prop
  | .storing channels => channels.Of shared.listed
  | _ => True

structure Catalog.Coherent (world : World Catalog Edit) : Prop where
  snapshot : world.shared.snapshot.Of world.shared.listed
  reads : ∀ id edit, world.pending id = some edit → edit.Reads world.shared
  /-- If the snapshot lags behind, an operation is going to replace it. -/
  catches : world.shared.snapshot.stamp = world.shared.commits ∨
    ∃ id edit, world.pending id = some edit ∧ edit.Catches world.shared

namespace Catalog

variable {world : World Catalog Edit} {id : Nat}

theorem Coherent.idle (repo : ChannelRepo) : Coherent (.idle (load repo)) where
  snapshot := .refl _
  reads _ _ hpending := nomatch hpending
  catches := .inl rfl

/-- An operation goes on without changing anything. If it was going to replace
    the snapshot, it still is. -/
theorem Coherent.goes_on (hcoherent : Coherent world) {next : Option Edit}
    (hreads : ∀ edit, next = some edit → edit.Reads world.shared)
    (hcatches : ∀ edit, world.pending id = some edit → edit.Catches world.shared →
      ∃ edit, next = some edit ∧ edit.Catches world.shared) :
    Coherent (world.set id world.shared next) where
  snapshot := hcoherent.snapshot
  reads other edit hpending := by
    rcases World.set_pending_cases hpending with ⟨-, hnext⟩ | ⟨-, hother⟩
    · exact hreads edit hnext
    · exact hcoherent.reads other edit hother
  catches := by
    rcases hcoherent.catches with hsame | ⟨other, edit, hpending, hedit⟩
    · exact .inl hsame
    by_cases hother : other = id
    · subst hother
      obtain ⟨edit, hnext, hedit⟩ := hcatches edit hpending hedit
      exact .inr ⟨other, edit, World.set_pending_self.trans hnext, hedit⟩
    · exact .inr ⟨other, edit, (World.set_pending_of_ne hother).trans hpending, hedit⟩

theorem Coherent.committed (hcoherent : Coherent world) (after : ChannelRepo) (next : Work) :
    Coherent (world.set id (world.shared.commit after) (some (.working next true))) where
  snapshot := hcoherent.snapshot.write after.list_all
  reads other edit hpending := by
    rcases World.set_pending_cases hpending with ⟨-, hnext⟩ | ⟨-, hother⟩
    · obtain rfl := Option.some.inj hnext
      trivial
    · have hreads := hcoherent.reads other edit hother
      cases edit with
      | arrived => trivial
      | working => trivial
      | storing channels => exact Stamped.Of.write hreads after.list_all
  catches := .inr ⟨id, .working next true, World.set_pending_self, rfl⟩

theorem Coherent.stored (hcoherent : Coherent world) {channels : Stamped (List Channel)}
    (hpending : world.pending id = some (.storing channels)) (hlater : world.shared.snapshot.stamp ≤ channels.stamp) :
    Coherent (world.set id (world.shared.store channels) none) where
  snapshot := hcoherent.reads id _ hpending
  reads other edit hpending := by
    rcases World.set_pending_cases hpending with ⟨-, hnone⟩ | ⟨-, hother⟩
    · cases hnone
    · have hreads := hcoherent.reads other edit hother
      cases edit with
      | arrived => trivial
      | working => trivial
      | storing => exact hreads
  catches := by
    have hreading : channels.Of world.shared.listed := hcoherent.reads id _ hpending
    rcases hcoherent.catches with hsame | ⟨other, edit, hother, hedit⟩
    · exact .inl (hreading.current hsame hlater)
    by_cases hid : other = id
    · subst hid
      obtain rfl := Option.some.inj (hpending.symm.trans hother)
      exact .inl hedit
    · refine .inr ⟨other, edit, (World.set_pending_of_ne hid).trans hother, ?_⟩
      cases edit with
      | arrived => exact hedit.elim
      | working => exact hedit
      | storing => exact hedit

/-- An operation that has changed nothing may end at any time, and one that has
    only if its step succeeds. -/
theorem Coherent.works (hcoherent : Coherent world) {work : Work} {changed fault : Bool}
    (hpending : world.pending id = some (.working work changed))
    (horderly : changed = true → fault = false ∧ work.fails world.shared.repo = false) :
    Coherent (world.set id (Edit.advance world.shared (.working work changed) fault).1
      (Edit.advance world.shared (.working work changed) fault).2) := by
  have hends : changed = false → Coherent (world.set id world.shared none) := by
    intro hchanged
    refine hcoherent.goes_on (fun _ hnone => nomatch hnone) fun edit hedit hcatches => ?_
    obtain rfl := Option.some.inj (hpending.symm.trans hedit)
    cases hchanged.symm.trans hcatches
  unfold Edit.advance
  cases fault with
  | true =>
    cases changed with
    | false => exact hends rfl
    | true => cases (horderly rfl).1
  | false =>
    simp only [Bool.false_eq_true, if_false]
    cases work with
    | refuse =>
      cases changed with
      | false => exact hends rfl
      | true => cases (horderly rfl).2
    | commit_channels =>
      refine hcoherent.goes_on (fun edit hnext => ?_) fun _ _ _ => ⟨.storing world.shared.listed, rfl, rfl⟩
      obtain rfl := Option.some.inj hnext
      exact Stamped.Of.refl _
    | query next =>
      refine hcoherent.goes_on (fun edit hnext => ?_) fun edit hedit hcatches =>
        ⟨.working (next world.shared.repo) changed, rfl, ?_⟩
      · obtain rfl := Option.some.inj hnext
        trivial
      · obtain rfl := Option.some.inj (hpending.symm.trans hedit)
        exact hcatches
    | write change next =>
      dsimp only
      cases hcommit : change.commit world.shared.repo with
      | some after => exact hcoherent.committed after (next after)
      | none =>
        have hunchanged : changed = false := by
          cases changed with
          | false => rfl
          | true => simpa [Work.fails, hcommit] using horderly rfl
        exact hends hunchanged

theorem Coherent.step (hcoherent : Coherent world) {move : Move Edit Bool Unit} (horderly : Orderly world move) :
    Coherent (catalog.step world move) := by
  rcases catalog.step_cases world move with
    hsame | ⟨id, edit, rfl, hfree, hopens, hstep⟩ | ⟨id, edit, fault, rfl, hpending, hstep⟩ | ⟨_, -, hstep⟩
  · rw [hsame]
    exact hcoherent
  · rw [hstep]
    refine hcoherent.goes_on (fun next hnext => ?_) fun edit hedit _ => nomatch hfree.symm.trans hedit
    obtain rfl := Option.some.inj hnext
    cases edit with
    | arrived => trivial
    | working => trivial
    | storing => cases hopens
  · rw [hstep]
    simp only [Orderly, hpending] at horderly
    cases edit with
    | arrived request =>
      refine hcoherent.goes_on (fun edit hnext => ?_) fun edit hedit hcatches => ?_
      · obtain rfl := Option.some.inj hnext
        trivial
      · obtain rfl := Option.some.inj (hpending.symm.trans hedit)
        exact hcatches.elim
    | working work changed =>
      refine hcoherent.works hpending fun hchanged => ?_
      subst hchanged
      exact horderly
    | storing channels => exact hcoherent.stored hpending horderly
  · rw [hstep]
    exact hcoherent

/-- When nothing is under way, the snapshot is what the table says. -/
theorem Coherent.agrees (hcoherent : Coherent world) (hquiescent : world.Quiescent) :
    world.shared.snapshot.value = world.shared.repo.list_all := by
  rcases hcoherent.catches with hsame | ⟨id, edit, hpending, -⟩
  · exact hcoherent.snapshot.value_eq hsame
  · cases (hquiescent id).symm.trans hpending

end Catalog

/-- Whatever operations overlap, the snapshot agrees with the table whenever none
    of them is under way. -/
theorem catalog_agrees (repo : ChannelRepo) (moves : List (Move Edit Bool Unit))
    (horderly : catalog.Meets Orderly (.idle (.load repo)) moves)
    (hquiescent : (catalog.run (.idle (.load repo)) moves).Quiescent) :
    (catalog.run (.idle (.load repo)) moves).shared.snapshot.value =
      (catalog.run (.idle (.load repo)) moves).shared.repo.list_all :=
  (Interleaving.invariant_run Catalog.Coherent (fun _ _ hcoherent horderly => hcoherent.step horderly)
    (.idle repo) horderly).agrees hquiescent

/-- One channel of the owner. -/
def sole_channel : Channel where
  id := 1
  owner_id := DEFAULT_OWNER_ID
  tags := []
  visibility := .shared
  user_id := none

def disabling : List (Move Edit Bool Unit) :=
  [.begin 0 (.arrived (.bulk_channels .disable [1])), .advance 0 false, .advance 0 false, .advance 0 false, .advance 0 false]

theorem disabling_agrees :
    (catalog.run (.idle (.load { rows := [sole_channel], next_id := 2 })) disabling).shared.snapshot.value =
      (catalog.run (.idle (.load { rows := [sole_channel], next_id := 2 })) disabling).shared.repo.list_all :=
  catalog_agrees { rows := [sole_channel], next_id := 2 } disabling
    ⟨trivial, trivial, trivial, ⟨rfl, rfl⟩, Nat.zero_le 1, trivial⟩
    (Interleaving.quiescent_of_ended 0 (by simp [disabling]) rfl)

/-- The channels of a backup are written, and its keys are not. -/
def failing_import : List (Move Edit Bool Unit) :=
  [.begin 0 (.arrived (.import_document .replace true 1 [⟨sole_channel, none⟩] 0)), .advance 0 false, .advance 0 false,
    .advance 0 true]

/-- The snapshot does not show the channel that the table has. -/
theorem failing_import_not_agrees :
    ¬ ((catalog.run (.idle (.load {})) failing_import).Quiescent →
      (catalog.run (.idle (.load {})) failing_import).shared.snapshot.value =
        (catalog.run (.idle (.load {})) failing_import).shared.repo.list_all) := by
  intro hagrees
  have hquiescent : (catalog.run (.idle (.load {})) failing_import).Quiescent :=
    Interleaving.quiescent_of_ended 0 (by simp [failing_import]) rfl
  have hrows : (catalog.run (.idle (.load {})) failing_import).shared.repo.rows.length = 1 := rfl
  have hlisted : (catalog.run (.idle (.load {})) failing_import).shared.repo.list_all.length = 1 :=
    (sort_by_key_perm _ _).length_eq.trans hrows
  have hshown : (catalog.run (.idle (.load {})) failing_import).shared.snapshot.value.length = 0 :=
    (sort_by_key_perm _ []).length_eq
  rw [hagrees hquiescent, hlisted] at hshown
  cases hshown

end refract.gateway
