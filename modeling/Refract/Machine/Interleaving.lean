import Mathlib.Data.List.Infix
import Mathlib.Logic.Function.Basic
import Mathlib.Tactic.Common

namespace refract.machine

variable {σ ε : Type} (step : σ → ε → σ)

/-- Every step of a run is taken under a condition. -/
def Along (condition : σ → ε → Prop) : σ → List ε → Prop
  | _, [] => True
  | state, event :: events => condition state event ∧ Along condition (step state event) events

/-- A property of every state that a run comes to. -/
def Throughout (P : σ → Prop) (state : σ) (events : List ε) : Prop :=
  ∀ before, before <+: events → P (before.foldl step state)

variable {step} {condition : σ → ε → Prop} {P : σ → Prop} {state : σ} {event : ε} {events rest : List ε}

theorem along_append :
    Along step condition state (events ++ rest) ↔
      Along step condition state events ∧ Along step condition (events.foldl step state) rest := by
  induction events generalizing state with
  | nil => simp [Along]
  | cons event events ih => simp [Along, ih, and_assoc]

theorem Throughout.start (hall : Throughout step P state events) : P state := hall [] List.nil_prefix

theorem Throughout.finish (hall : Throughout step P state events) : P (events.foldl step state) :=
  hall events List.prefix_rfl

theorem throughout_nil : Throughout step P state [] ↔ P state := by
  constructor
  · exact fun hall => hall.start
  · intro hP before hbefore
    rw [List.prefix_nil.mp hbefore]
    exact hP

theorem throughout_cons :
    Throughout step P state (event :: events) ↔ P state ∧ Throughout step P (step state event) events := by
  constructor
  · intro hall
    exact ⟨hall.start, fun before hbefore => hall (event :: before) (List.cons_prefix_cons.mpr ⟨rfl, hbefore⟩)⟩
  · rintro ⟨hP, hrest⟩ (_ | ⟨first, before⟩) hbefore
    · exact hP
    · obtain ⟨rfl, hbegins⟩ := List.cons_prefix_cons.mp hbefore
      exact hrest before hbegins

/-- What every step keeps under a condition holds throughout the runs whose steps
    are taken under it. -/
theorem Along.throughout (hstep : ∀ state event, P state → condition state event → P (step state event))
    (hP : P state) (halong : Along step condition state events) : Throughout step P state events := by
  induction events generalizing state with
  | nil => exact throughout_nil.mpr hP
  | cons event events ih => exact throughout_cons.mpr ⟨hP, ih (hstep state event hP halong.1) halong.2⟩

/-- What every step keeps holds throughout every run. -/
theorem throughout_of_step (hstep : ∀ state event, P state → P (step state event)) (hP : P state) : Throughout step P state events :=
  fun before _ => List.foldlRecOn before step hP fun state hP event _ => hstep state event hP

/-- If a step keeps a property under a condition alone, the property holds
    throughout no other runs. -/
theorem throughout_iff_along (hstep : ∀ state event, P state → (P (step state event) ↔ condition state event)) (hP : P state) :
    Throughout step P state events ↔ Along step condition state events := by
  constructor
  · intro hall
    induction events generalizing state with
    | nil => trivial
    | cons event events ih =>
      have hrest := (throughout_cons.mp hall).2
      exact ⟨(hstep state event hP).mp hrest.start, ih hrest.start hrest⟩
  · exact Along.throughout (fun state event hP => (hstep state event hP).mpr) hP

end refract.machine

namespace refract.machine

variable {σ ω χ ε : Type}

/-- Operations on a state that they share. Each of them takes its steps in its
    own time, and a step may depend on a choice that is not its own. -/
structure Interleaving (σ ω χ ε : Type) where
  /-- How an operation may begin. -/
  opens : ω → Bool
  /-- The next step of an operation, which has ended if nothing is left of it. -/
  advance : σ → ω → χ → σ × Option ω
  /-- What else may happen to the state. -/
  happen : σ → ε → σ

/-- The shared state and what is left of every operation under way. -/
structure World (σ ω : Type) where
  shared : σ
  pending : Nat → Option ω

/-- What comes next in a run. -/
inductive Move (ω χ ε : Type) where
  | begin (id : Nat) (operation : ω)
  | advance (id : Nat) (choice : χ)
  | happen (event : ε)

namespace World

/-- The world before any operation. -/
def idle (shared : σ) : World σ ω where
  shared := shared
  pending _ := none

variable (world : World σ ω)

/-- No operation is under way. -/
def Quiescent : Prop := ∀ id, world.pending id = none

/-- All operations under way have a property, apart from one. -/
def Others (id : Nat) (P : ω → Prop) : Prop :=
  ∀ other operation, other ≠ id → world.pending other = some operation → P operation

/-- Replaces what is left of an operation. -/
def set (id : Nat) (shared : σ) (next : Option ω) : World σ ω where
  shared := shared
  pending := Function.update world.pending id next

variable {world} {id : Nat} {shared : σ} {next : Option ω}

@[simp] theorem set_shared : (world.set id shared next).shared = shared := rfl

@[simp] theorem set_pending_self : (world.set id shared next).pending id = next := Function.update_self ..

theorem set_pending_of_ne {other : Nat} (hother : other ≠ id) :
    (world.set id shared next).pending other = world.pending other :=
  Function.update_of_ne hother ..

/-- An operation of the new world is the one that was replaced or an old one. -/
theorem set_pending_cases {other : Nat} {operation : ω}
    (hpending : (world.set id shared next).pending other = some operation) :
    (other = id ∧ next = some operation) ∨ (other ≠ id ∧ world.pending other = some operation) := by
  by_cases hother : other = id
  · subst hother
    exact .inl ⟨rfl, by rwa [set_pending_self] at hpending⟩
  · exact .inr ⟨hother, by rwa [set_pending_of_ne hother] at hpending⟩

theorem idle_others (P : ω → Prop) : (idle shared : World σ ω).Others id P := by
  intro other operation _ hpending
  cases hpending

@[simp] theorem set_others {P : ω → Prop} : (world.set id shared next).Others id P ↔ world.Others id P := by
  refine forall_congr' fun other => forall_congr' fun operation => forall_congr' fun hother => ?_
  rw [set_pending_of_ne hother]

theorem Others.imp {P Q : ω → Prop} (himp : ∀ operation, P operation → Q operation) (hothers : world.Others id P) :
    world.Others id Q :=
  fun other operation hother hpending => himp operation (hothers other operation hother hpending)

end World

namespace Interleaving

variable (system : Interleaving σ ω χ ε)

/-- A move that cannot be made changes nothing. -/
def step (world : World σ ω) : Move ω χ ε → World σ ω
  | .begin id operation =>
    if world.pending id = none ∧ system.opens operation then world.set id world.shared (some operation) else world
  | .advance id choice =>
    match world.pending id with
    | none => world
    | some operation =>
      world.set id (system.advance world.shared operation choice).1 (system.advance world.shared operation choice).2
  | .happen event => { world with shared := system.happen world.shared event }

def run (world : World σ ω) (moves : List (Move ω χ ε)) : World σ ω := moves.foldl system.step world

/-- Every move of a run is made under a condition. -/
def Meets (condition : World σ ω → Move ω χ ε → Prop) : World σ ω → List (Move ω χ ε) → Prop
  | _, [] => True
  | world, move :: moves => condition world move ∧ Meets condition (system.step world move) moves

/-- Lets an operation take all its steps, up to a number of them, with the same
    choice. -/
def finish (choice : χ) : Nat → σ → ω → σ
  | 0, shared, _ => shared
  | steps + 1, shared, operation =>
    match system.advance shared operation choice with
    | (after, none) => after
    | (after, some next) => finish choice steps after next

variable {system} {world : World σ ω}

@[simp] theorem run_nil : system.run world [] = world := rfl

@[simp] theorem run_cons (move : Move ω χ ε) (moves : List (Move ω χ ε)) :
    system.run world (move :: moves) = system.run (system.step world move) moves := rfl

theorem run_append (moves rest : List (Move ω χ ε)) :
    system.run world (moves ++ rest) = system.run (system.run world moves) rest := List.foldl_append

theorem meets_append {condition : World σ ω → Move ω χ ε → Prop} {moves rest : List (Move ω χ ε)} :
    system.Meets condition world (moves ++ rest) ↔
      system.Meets condition world moves ∧ system.Meets condition (system.run world moves) rest := by
  induction moves generalizing world with
  | nil => simp [Meets]
  | cons move moves ih => simp [Meets, ih, and_assoc]

theorem step_begin_of_not {id : Nat} {operation : ω} (hnot : ¬(world.pending id = none ∧ system.opens operation)) :
    system.step world (.begin id operation) = world := if_neg hnot

theorem step_advance {id : Nat} {operation : ω} (hpending : world.pending id = some operation) (choice : χ) :
    system.step world (.advance id choice) =
      world.set id (system.advance world.shared operation choice).1 (system.advance world.shared operation choice).2 := by
  simp only [step, hpending]

/-- What a move can come to. -/
theorem step_cases (world : World σ ω) (move : Move ω χ ε) :
    system.step world move = world ∨
      (∃ id operation, move = .begin id operation ∧ world.pending id = none ∧ system.opens operation ∧
        system.step world move = world.set id world.shared (some operation)) ∨
      (∃ id operation choice, move = .advance id choice ∧ world.pending id = some operation ∧
        system.step world move =
          world.set id (system.advance world.shared operation choice).1 (system.advance world.shared operation choice).2) ∨
      ∃ event, move = .happen event ∧ system.step world move = { world with shared := system.happen world.shared event } := by
  cases move with
  | begin id operation =>
    by_cases hbegin : world.pending id = none ∧ system.opens operation
    · exact .inr (.inl ⟨id, operation, rfl, hbegin.1, hbegin.2, if_pos hbegin⟩)
    · exact .inl (if_neg hbegin)
  | advance id choice =>
    cases hpending : world.pending id with
    | none => exact .inl (by simp only [step, hpending])
    | some operation => exact .inr (.inr (.inl ⟨id, operation, choice, rfl, hpending, step_advance hpending choice⟩))
  | happen event => exact .inr (.inr (.inr ⟨event, rfl, rfl⟩))

/-- Nothing is under way that has not begun. -/
theorem run_pending_of_not_begun {id : Nat} (hfree : world.pending id = none) {moves : List (Move ω χ ε)}
    (hbegun : ∀ operation, .begin id operation ∉ moves) : (system.run world moves).pending id = none := by
  induction moves generalizing world with
  | nil => exact hfree
  | cons move moves ih =>
    refine ih ?_ fun operation hmem => hbegun operation (.tail move hmem)
    rcases system.step_cases world move with
      hsame | ⟨other, operation, rfl, -, -, hstep⟩ | ⟨other, operation, choice, rfl, hpending, hstep⟩ | ⟨_, -, hstep⟩
    · rw [hsame]
      exact hfree
    · have hother : id ≠ other := fun hid => hbegun operation (hid ▸ .head moves)
      rw [hstep, World.set_pending_of_ne hother]
      exact hfree
    · have hother : id ≠ other := by
        rintro rfl
        cases hfree.symm.trans hpending
      rw [hstep, World.set_pending_of_ne hother]
      exact hfree
    · rw [hstep]
      exact hfree

/-- Runs of one operation are over once it has ended. -/
theorem quiescent_of_ended {shared : σ} (id : Nat) {moves : List (Move ω χ ε)}
    (hbegun : ∀ other operation, .begin other operation ∈ moves → other = id)
    (hended : (system.run (.idle shared) moves).pending id = none) : (system.run (.idle shared) moves).Quiescent := by
  intro other
  by_cases hother : other = id
  · exact hother ▸ hended
  · exact run_pending_of_not_begun rfl fun operation hmem => hother (hbegun other operation hmem)

/-- An invariant of the moves that are made under a condition is one of the runs
    made of them. -/
theorem invariant_run {condition : World σ ω → Move ω χ ε → Prop} (Inv : World σ ω → Prop)
    (hstep : ∀ world move, Inv world → condition world move → Inv (system.step world move))
    (hinv : Inv world) {moves : List (Move ω χ ε)} (hmeets : system.Meets condition world moves) :
    Inv (system.run world moves) := by
  induction moves generalizing world with
  | nil => exact hinv
  | cons move moves ih => exact ih (hstep world move hinv hmeets.1) hmeets.2

end Interleaving

end refract.machine
