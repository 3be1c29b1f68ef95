import Mathlib.Data.List.Infix
import Mathlib.Tactic.Common

namespace refract.machine

variable {ε ε' α β : Type} {result : Except ε α} {b : β}

theorem bind_eq_ok {f : α → Except ε β} : (result >>= f) = .ok b ↔ ∃ a, result = .ok a ∧ f a = .ok b := by
  constructor
  · intro h
    cases result with
    | error => cases h
    | ok a => exact ⟨a, rfl, h⟩
  · rintro ⟨a, rfl, h⟩
    exact h

theorem map_eq_ok {f : α → β} : result.map f = .ok b ↔ ∃ a, result = .ok a ∧ f a = b := by
  constructor
  · intro h
    cases result with
    | error => cases h
    | ok a => exact ⟨a, rfl, Except.ok.inj h⟩
  · rintro ⟨a, rfl, rfl⟩
    rfl

theorem mapError_eq_ok {f : ε → ε'} {a : α} : result.mapError f = .ok a ↔ result = .ok a := by
  cases result with
  | error => exact iff_of_false nofun nofun
  | ok => rw [Except.mapError, Except.ok.injEq, Except.ok.injEq]

theorem throw_if_eq_ok {p : Prop} [Decidable p] {error : ε} {next : Unit → Except ε β} :
    (if p then throw error >>= next else next ()) = .ok b ↔ ¬p ∧ next () = .ok b := by
  by_cases hp : p
  · rw [if_pos hp]
    exact iff_of_false nofun fun h => h.1 hp
  · rw [if_neg hp]
    exact (and_iff_right hp).symm

theorem exists_ok_unit {result : Except ε Unit} {q : Prop} : (∃ a, result = .ok a ∧ q) ↔ result = .ok () ∧ q := by
  constructor
  · rintro ⟨⟨⟩, h⟩
    exact h
  · exact fun h => ⟨(), h⟩

end refract.machine

namespace refract.machine

section Stages

variable {σ : Type} {stage : σ → σ → Prop} {stages rest : List (σ → σ → Prop)} {before mid after : σ}

/-- Stages follow each other. -/
def Reaches : List (σ → σ → Prop) → σ → σ → Prop
  | [], before, after => after = before
  | stage :: stages, before, after => ∃ mid, stage before mid ∧ Reaches stages mid after

/-- Some of the stages follow each other, and the others do not come. -/
def Stops (stages : List (σ → σ → Prop)) (before after : σ) : Prop := ∃ made, made <+: stages ∧ Reaches made before after

theorem reaches_append : Reaches (stages ++ rest) before after ↔ ∃ mid, Reaches stages before mid ∧ Reaches rest mid after := by
  induction stages generalizing before with
  | nil => simp [Reaches]
  | cons stage stages ih =>
    simp only [List.cons_append, Reaches, ih]
    constructor
    · rintro ⟨first, hfirst, mid, hmid, hafter⟩
      exact ⟨mid, ⟨first, hfirst, hmid⟩, hafter⟩
    · rintro ⟨mid, ⟨first, hfirst, hmid⟩, hafter⟩
      exact ⟨first, hfirst, mid, hmid, hafter⟩

theorem stops_self : Stops stages before before := ⟨[], List.nil_prefix, rfl⟩

theorem Stops.append_right (hstops : Stops stages before after) : Stops (stages ++ rest) before after := by
  obtain ⟨made, hmade, hreaches⟩ := hstops
  exact ⟨made, hmade.trans (List.prefix_append _ _), hreaches⟩

theorem Reaches.stops_append (hreaches : Reaches stages before mid) (hstops : Stops rest mid after) :
    Stops (stages ++ rest) before after := by
  obtain ⟨made, hmade, hrest⟩ := hstops
  exact ⟨stages ++ made, List.prefix_append_right_inj _ |>.mpr hmade, reaches_append.mpr ⟨mid, hreaches, hrest⟩⟩

/-- What every stage keeps is kept wherever a program stops. -/
theorem Reaches.keeps {I : σ → Prop} (hstages : ∀ stage ∈ stages, ∀ before after, stage before after → I before → I after)
    (hreaches : Reaches stages before after) (hI : I before) : I after := by
  induction stages generalizing before with
  | nil =>
    obtain rfl := hreaches
    exact hI
  | cons stage stages ih =>
    obtain ⟨mid, hfirst, hrest⟩ := hreaches
    obtain ⟨hstage, hstages⟩ := List.forall_mem_cons.mp hstages
    exact ih hstages hrest (hstage before mid hfirst hI)

theorem Stops.keeps {I : σ → Prop} (hstages : ∀ stage ∈ stages, ∀ before after, stage before after → I before → I after)
    (hstops : Stops stages before after) (hI : I before) : I after := by
  obtain ⟨made, hmade, hreaches⟩ := hstops
  exact hreaches.keeps (fun stage hstage => hstages stage (hmade.subset hstage)) hI

end Stages

/-- What a program of transactions runs on: a database, and the errors that the accesses to
    come meet. -/
structure Session (σ ε : Type) where
  database : σ
  faults : List (Option ε) := []

/-- A program of transactions on a database. What it wrote before an error stays. -/
def Access (σ ε α : Type) : Type := Session σ ε → Except ε α × Session σ ε

namespace Access

variable {σ ε α β : Type}

instance accessMonad : Monad (Access σ ε) where
  pure a session := (.ok a, session)
  bind program next session :=
    match program session with
    | (.ok a, session) => next a session
    | (.error error, session) => (.error error, session)

/-- What is decided without the database. -/
def check (result : Except ε α) : Access σ ε α := fun session => (result, session)

/-- One access to the database. It is made whole or not at all. -/
def transaction (work : σ → Except ε (α × σ)) : Access σ ε α := fun session =>
  match session.faults.head?.join with
  | some error => (.error error, { session with faults := session.faults.tail })
  | none =>
    match work session.database with
    | .error error => (.error error, { session with faults := session.faults.tail })
    | .ok (a, database) => (.ok a, { database, faults := session.faults.tail })

def query (read : σ → α) : Access σ ε α := transaction fun database => .ok (read database, database)

def exec (program : Access σ ε α) (session : Session σ ε) : Except ε α × Session σ ε := program session

/-- What a program gives, and the database that it leaves. -/
def run (program : Access σ ε α) (database : σ) (faults : List (Option ε)) : Except ε α × σ :=
  ((program.exec { database, faults }).1, (program.exec { database, faults }).2.database)

/-- Whatever the accesses meet, a program ends in one of two ways. -/
def Ends (program : Access σ ε α) (before : σ) (done : α → σ → Prop) (failed : ε → σ → Prop) : Prop :=
  ∀ faults, match program.run before faults with
    | (.ok a, after) => done a after
    | (.error error, after) => failed error after

/-- Without errors of the database a program comes to its end. -/
def Completes (program : Access σ ε α) (before : σ) (a : α) (after : σ) : Prop :=
  program.exec { database := before } = (.ok a, { database := after })

variable {program : Access σ ε α} {next : α → Access σ ε β} {before after : σ} {a : α} {b : β}

theorem exec_bind (session : Session σ ε) :
    (program >>= next).exec session =
      match program.exec session with
      | (.ok a, session) => (next a).exec session
      | (.error error, session) => (.error error, session) :=
  rfl

section Ends

variable {done done' : α → σ → Prop} {failed failed' : ε → σ → Prop}

theorem ends_pure (hdone : done a before) : Ends (pure a) before done failed := fun _ => hdone

theorem ends_check {result : Except ε α} (hdone : ∀ a, result = .ok a → done a before)
    (hfailed : ∀ error, result = .error error → failed error before) : Ends (check result) before done failed := by
  intro faults
  cases hresult : result with
  | ok a => exact hdone a hresult
  | error error => exact hfailed error hresult

/-- An access that fails leaves the database as it was. -/
theorem ends_transaction {work : σ → Except ε (α × σ)} (hdone : ∀ a after, work before = .ok (a, after) → done a after)
    (hfailed : ∀ error, failed error before) : Ends (transaction work) before done failed := by
  intro faults
  cases hfault : faults.head?.join with
  | some error =>
    simp only [run, exec, transaction, hfault]
    exact hfailed error
  | none =>
    cases hwork : work before with
    | error error =>
      simp only [run, exec, transaction, hfault, hwork]
      exact hfailed error
    | ok pair =>
      obtain ⟨a, after⟩ := pair
      simp only [run, exec, transaction, hfault, hwork]
      exact hdone a after hwork

theorem ends_query {read : σ → α} (hdone : done (read before) before) (hfailed : ∀ error, failed error before) :
    Ends (query read) before done failed := by
  refine ends_transaction (fun a after hwork => ?_) hfailed
  obtain ⟨rfl, rfl⟩ := Prod.mk.inj (Except.ok.inj hwork)
  exact hdone

theorem Ends.bind {done : β → σ → Prop} (hprogram : Ends program before (fun a mid => Ends (next a) mid done failed) failed) :
    Ends (program >>= next) before done failed := by
  intro faults
  have hfirst := hprogram faults
  unfold run at hfirst ⊢
  rw [exec_bind]
  rcases hresult : program.exec { database := before, faults } with ⟨error | a, ⟨mid, rest⟩⟩
  · rw [hresult] at hfirst
    exact hfirst
  · rw [hresult] at hfirst
    exact hfirst rest

theorem Ends.imp (hprogram : Ends program before done failed) (hdone : ∀ a after, done a after → done' a after)
    (hfailed : ∀ error after, failed error after → failed' error after) : Ends program before done' failed' := by
  intro faults
  have hfirst := hprogram faults
  rcases hresult : program.run before faults with ⟨error | a, after⟩
  · rw [hresult] at hfirst
    exact hfailed error after hfirst
  · rw [hresult] at hfirst
    exact hdone a after hfirst

/-- A program makes its changes in stages, and may stop between them. -/
def Makes (program : Access σ ε α) (before : σ) (stages : List (σ → σ → Prop)) : Prop :=
  Ends program before (fun _ after => Reaches stages before after) (fun _ after => Stops stages before after)

theorem makes_pure : Makes (pure a : Access σ ε α) before [] := ends_pure rfl

/-- A single transaction is a single stage. -/
theorem makes_transaction {work : σ → Except ε (α × σ)} {stage : σ → σ → Prop}
    (hwork : ∀ a after, work before = .ok (a, after) → stage before after) : Makes (transaction work) before [stage] :=
  ends_transaction (fun a after h => ⟨after, hwork a after h, rfl⟩) fun _ => stops_self

theorem makes_query {read : σ → α} : Makes (query read : Access σ ε α) before [] := ends_query rfl fun _ => stops_self

theorem Makes.bind {stages rest : List (σ → σ → Prop)} (hprogram : Makes program before stages)
    (hnext : ∀ a mid, Makes (next a) mid rest) : Makes (program >>= next) before (stages ++ rest) := by
  refine Ends.bind (hprogram.imp (fun a mid hmid => ?_) fun _ _ hstops => hstops.append_right)
  exact (hnext a mid).imp (fun _ _ hafter => reaches_append.mpr ⟨mid, hmid, hafter⟩) fun _ _ hafter => hmid.stops_append hafter

/-- A program writes nothing, and gives what it reads. -/
def Reads (program : Access σ ε α) (before : σ) (read : α → Prop) : Prop :=
  Ends program before (fun a after => read a ∧ after = before) (fun _ after => after = before)

theorem reads_pure {read : α → Prop} (hread : read a) : Reads (pure a : Access σ ε α) before read := ends_pure ⟨hread, rfl⟩

theorem reads_check {result : Except ε α} : Reads (check result : Access σ ε α) before fun a => result = .ok a :=
  ends_check (fun _ hresult => ⟨hresult, rfl⟩) fun _ _ => rfl

theorem reads_query {read : σ → α} : Reads (query read : Access σ ε α) before fun a => a = read before :=
  ends_query ⟨rfl, rfl⟩ fun _ => rfl

theorem Reads.bind {read : α → Prop} {done : β → σ → Prop} (hprogram : Reads program before read)
    (hnext : ∀ a, read a → Ends (next a) before done failed) (hfailed : ∀ error, failed error before) :
    Ends (program >>= next) before done failed := by
  refine Ends.bind (hprogram.imp ?_ ?_)
  · rintro a _ ⟨hread, rfl⟩
    exact hnext a hread
  · rintro error _ rfl
    exact hfailed error

theorem Reads.bind_reads {read : α → Prop} {read' : β → Prop} (hprogram : Reads program before read)
    (hnext : ∀ a, read a → Reads (next a) before read') : Reads (program >>= next) before read' :=
  hprogram.bind hnext fun _ => rfl

theorem Makes.bind_last {stages : List (σ → σ → Prop)} (hprogram : Makes program before stages)
    (hnext : ∀ a mid, Makes (next a) mid []) : Makes (program >>= next) before stages := by
  have hall := hprogram.bind hnext
  rwa [List.append_nil] at hall

end Ends

section Completes

theorem completes_pure : Completes (pure a : Access σ ε α) before a before := rfl

theorem completes_check {result : Except ε α} (hresult : result = .ok a) : Completes (check result : Access σ ε α) before a before := by
  rw [hresult]
  rfl

theorem completes_transaction {work : σ → Except ε (α × σ)} (hwork : work before = .ok (a, after)) :
    Completes (transaction work) before a after := by
  simp [Completes, exec, transaction, hwork]

theorem completes_query {read : σ → α} : Completes (query read : Access σ ε α) before (read before) before := rfl

theorem Completes.bind {mid : σ} (hprogram : Completes program before a mid) (hnext : Completes (next a) mid b after) :
    Completes (program >>= next) before b after := by
  unfold Completes at hprogram hnext ⊢
  rw [exec_bind, hprogram]
  exact hnext

end Completes

end Access

end refract.machine
