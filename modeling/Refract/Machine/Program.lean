import Refract.Machine.Interleaving

namespace refract.machine

/-- A program that issues statements, and goes on by the reply to each of them. -/
inductive Program (S : Type) (R : S → Type) (ε α : Type) where
  | done (result : Except ε α)
  | issue (statement : S) (next : R statement → Program S R ε α)

namespace Program

variable {S : Type} {R : S → Type} {ε α β σ : Type}

/-- Nothing is issued after an error. -/
def andThen (rest : α → Program S R ε β) : Program S R ε α → Program S R ε β
  | .done (.ok a) => rest a
  | .done (.error error) => .done (.error error)
  | .issue statement next => .issue statement fun reply => (next reply).andThen rest

instance programMonad : Monad (Program S R ε) where
  pure a := .done (.ok a)
  bind program rest := program.andThen rest

def call (statement : S) : Program S R ε (R statement) := .issue statement fun reply => .done (.ok reply)

/-- What is decided without a statement. -/
def check (result : Except ε α) : Program S R ε α := .done result

end Program

/-- How a shared state carries statements out. One that fails changes nothing. -/
abbrev Executor (σ S : Type) (R : S → Type) (ε : Type) : Type := σ → (statement : S) → Except ε (R statement × σ)

/-- A request, before and after its program has begun. -/
inductive Course (ρ S : Type) (R : S → Type) (ε α : Type) where
  | arrived (request : ρ)
  | running (program : Program S R ε α)

section Run

variable {S : Type} {R : S → Type} {ε α β σ : Type}

/-- A program that is carried out alone. What it wrote before an error stays. -/
def Program.run (execute : Executor σ S R ε) : Program S R ε α → σ → Except ε α × σ
  | .done result, shared => (result, shared)
  | .issue statement next, shared =>
    match execute shared statement with
    | .error error => (.error error, shared)
    | .ok (reply, after) => (next reply).run execute after

variable {execute : Executor σ S R ε} {program : Program S R ε α} {rest : α → Program S R ε β} {shared after : σ}

@[simp] theorem Program.run_pure (a : α) : (pure a : Program S R ε α).run execute shared = (.ok a, shared) := rfl

@[simp] theorem Program.run_check (result : Except ε α) : (check result : Program S R ε α).run execute shared = (result, shared) := rfl

theorem Program.run_call {statement : S} {reply : R statement} (hok : execute shared statement = .ok (reply, after)) :
    (call statement : Program S R ε _).run execute shared = (.ok reply, after) := by
  simp only [call, run, hok]

theorem Program.run_bind : (program >>= rest).run execute shared =
    match program.run execute shared with
    | (.ok a, after) => (rest a).run execute after
    | (.error error, after) => (.error error, after) := by
  change (program.andThen rest).run execute shared = _
  induction program generalizing shared with
  | done result => cases result <;> rfl
  | issue statement next ih =>
    simp only [andThen, run]
    cases execute shared statement with
    | error error => rfl
    | ok pair => exact ih pair.1

theorem Program.run_bind_ok {a : α} (hok : program.run execute shared = (.ok a, after)) :
    (program >>= rest).run execute shared = (rest a).run execute after := by
  rw [run_bind, hok]

theorem Program.run_bind_error {error : ε} (herror : program.run execute shared = (.error error, after)) :
    (program >>= rest).run execute shared = (.error error, after) := by
  rw [run_bind, herror]

end Run

section Courses

variable {ρ σ S : Type} {R : S → Type} {ε α χ : Type} (handle : ρ → Program S R ε α) (execute : Executor σ S R ε)

/-- One statement of a program, which ends with an error of its own or of the
    state. -/
def Course.advance (shared : σ) (fault : Option ε) : Course ρ S R ε α → σ × Option (Course ρ S R ε α)
  | .arrived request => (shared, some (.running (handle request)))
  | .running (.done _) => (shared, none)
  | .running (.issue statement next) =>
    match fault with
    | some _ => (shared, none)
    | none =>
      match execute shared statement with
      | .error _ => (shared, none)
      | .ok (reply, after) => (after, some (.running (next reply)))

/-- Requests whose statements are carried out in any order. -/
def courses (happen : σ → χ → σ) : Interleaving σ (Course ρ S R ε α) (Option ε) χ where
  opens
    | .arrived _ => true
    | .running _ => false
  advance shared course fault := course.advance handle execute shared fault
  happen := happen

variable {handle execute} {happen : σ → χ → σ} {world : World σ (Course ρ S R ε α)} {P : σ → Prop} {spares : σ → S → Prop}

/-- The statement that a move carries out, if it does one, is issued under a
    condition. -/
def Issued (execute : Executor σ S R ε) (spares : σ → S → Prop) (world : World σ (Course ρ S R ε α)) :
    Move (Course ρ S R ε α) (Option ε) χ → Prop
  | .advance id none =>
    match world.pending id with
    | some (.running (.issue statement _)) =>
      ∀ reply after, execute world.shared statement = .ok (reply, after) → spares world.shared statement
    | _ => True
  | _ => True

/-- If what is carried out keeps a property under a condition alone, so does
    every move. -/
theorem courses_step_iff
    (hexecute : ∀ shared statement reply after, P shared → execute shared statement = .ok (reply, after) →
      (P after ↔ spares shared statement))
    (hhappen : ∀ shared event, P shared → P (happen shared event)) (hP : P world.shared)
    (move : Move (Course ρ S R ε α) (Option ε) χ) :
    P ((courses handle execute happen).step world move).shared ↔ Issued execute spares world move := by
  cases move with
  | begin id course =>
    refine iff_of_true ?_ trivial
    by_cases hbegin : world.pending id = none ∧ (courses handle execute happen).opens course
    · rw [show (courses handle execute happen).step world (.begin id course) = _ from if_pos hbegin]
      exact hP
    · rw [Interleaving.step_begin_of_not hbegin]
      exact hP
  | happen event => exact iff_of_true (hhappen _ event hP) trivial
  | advance id fault =>
    cases hpending : world.pending id with
    | none =>
      have hstays : (courses handle execute happen).step world (.advance id fault) = world := by
        simp only [Interleaving.step, hpending]
      rw [hstays]
      refine iff_of_true hP ?_
      cases fault <;> simp [Issued, hpending]
    | some course =>
      rw [Interleaving.step_advance hpending, World.set_shared]
      change P (course.advance handle execute world.shared fault).1 ↔ _
      rcases course with request | (result | ⟨statement, next⟩)
      · refine iff_of_true hP ?_
        cases fault <;> simp [Issued, hpending]
      · refine iff_of_true hP ?_
        cases fault <;> simp [Issued, hpending]
      · cases fault with
        | some error => exact iff_of_true hP trivial
        | none =>
          cases hresult : execute world.shared statement with
          | error error =>
            simp only [Course.advance, Issued, hpending, hresult]
            exact iff_of_true hP fun _ _ hok => by cases hok
          | ok pair =>
            obtain ⟨reply, after⟩ := pair
            simp only [Course.advance, Issued, hpending, hresult]
            rw [hexecute _ _ _ _ hP hresult]
            exact ⟨fun hspares _ _ _ => hspares, fun hall => hall _ _ rfl⟩

end Courses

end refract.machine
