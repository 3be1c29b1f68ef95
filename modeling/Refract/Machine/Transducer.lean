import Mathlib.Data.List.Basic
import Mathlib.Tactic.Common

namespace refract.machine

/-- A state machine that answers every input with a list of outputs, and may
    add some more when its input ends. -/
structure Transducer (σ ι ο : Type) where
  init : σ
  step : σ → ι → σ × List ο
  finish : σ → σ × List ο

namespace Transducer

variable {σ ι ο : Type} (T : Transducer σ ι ο)

/-- The state after a list of inputs. -/
def advance (s : σ) : List ι → σ
  | [] => s
  | i :: is => advance (T.step s i).1 is

/-- The outputs along a list of inputs. -/
def emit (s : σ) : List ι → List ο
  | [] => []
  | i :: is => (T.step s i).2 ++ emit (T.step s i).1 is

/-- The outputs of a whole run, the closing ones included. -/
def outputs (is : List ι) : List ο :=
  T.emit T.init is ++ (T.finish (T.advance T.init is)).2

variable (s : σ) (i : ι) (is js : List ι)

@[simp] theorem advance_nil : T.advance s [] = s := rfl

@[simp] theorem advance_cons : T.advance s (i :: is) = T.advance (T.step s i).1 is := rfl

@[simp] theorem emit_nil : T.emit s [] = [] := rfl

@[simp] theorem emit_cons : T.emit s (i :: is) = (T.step s i).2 ++ T.emit (T.step s i).1 is := rfl

theorem advance_append : T.advance s (is ++ js) = T.advance (T.advance s is) js := by
  induction is generalizing s with
  | nil => rfl
  | cons i is ih => simp only [List.cons_append, advance_cons, ih]

theorem emit_append : T.emit s (is ++ js) = T.emit s is ++ T.emit (T.advance s is) js := by
  induction is generalizing s with
  | nil => rfl
  | cons i is ih => simp only [List.cons_append, emit_cons, advance_cons, ih, List.append_assoc]

/-- A run splits at any point of its input. -/
theorem outputs_append :
    T.outputs (is ++ js) =
      T.emit T.init is ++ (T.emit (T.advance T.init is) js ++
        (T.finish (T.advance (T.advance T.init is) js)).2) := by
  simp only [outputs, emit_append, advance_append, List.append_assoc]

/-- Every output is written at some input. -/
theorem mem_emit {o : ο} :
    o ∈ T.emit s is ↔ ∃ pre i post, is = pre ++ i :: post ∧ o ∈ (T.step (T.advance s pre) i).2 := by
  induction is generalizing s with
  | nil => simp
  | cons i is ih =>
    rw [emit_cons, List.mem_append, ih]
    constructor
    · rintro (ho | ⟨pre, j, post, rfl, ho⟩)
      · exact ⟨[], i, is, rfl, ho⟩
      · exact ⟨i :: pre, j, post, rfl, ho⟩
    · rintro ⟨pre, j, post, hsplit, ho⟩
      cases pre with
      | nil =>
        obtain ⟨rfl, rfl⟩ := List.cons.inj hsplit
        exact .inl ho
      | cons k pre =>
        obtain ⟨rfl, rfl⟩ := List.cons.inj hsplit
        exact .inr ⟨pre, j, post, rfl, ho⟩

/-- Two machines that answer corresponding inputs alike agree on whole runs. -/
theorem run_map {κ : Type} {T : Transducer σ ι ο} {U : Transducer σ κ ο} {f : κ → ι} {ks : List κ}
    (hstep : ∀ s, ∀ k ∈ ks, T.step s (f k) = U.step s k) (s : σ) :
    T.emit s (ks.map f) = U.emit s ks ∧ T.advance s (ks.map f) = U.advance s ks := by
  induction ks generalizing s with
  | nil => exact ⟨rfl, rfl⟩
  | cons k ks ih =>
    obtain ⟨hemit, hadvance⟩ := ih (fun s k hk => hstep s k (List.mem_cons_of_mem _ hk)) (U.step s k).1
    rw [List.map_cons, emit_cons, advance_cons, hstep s k List.mem_cons_self, hemit, hadvance]
    exact ⟨rfl, rfl⟩

theorem outputs_map {κ : Type} {T : Transducer σ ι ο} {U : Transducer σ κ ο} {f : κ → ι} {ks : List κ}
    (hinit : T.init = U.init) (hfinish : T.finish = U.finish)
    (hstep : ∀ s, ∀ k ∈ ks, T.step s (f k) = U.step s k) : T.outputs (ks.map f) = U.outputs ks := by
  obtain ⟨hemit, hadvance⟩ := run_map hstep U.init
  rw [outputs, outputs, hinit, hemit, hadvance, hfinish]

section Related

variable {κ : Type} {T : Transducer σ ι ο} {U : Transducer σ κ ο} {R : ι → κ → Prop} {is : List ι} {ks : List κ}

/-- Two machines that answer related inputs alike agree on whole runs. -/
theorem run_related (hstep : ∀ s i k, R i k → T.step s i = U.step s k) (h : List.Forall₂ R is ks) (s : σ) :
    T.emit s is = U.emit s ks ∧ T.advance s is = U.advance s ks := by
  induction h generalizing s with
  | nil => exact ⟨rfl, rfl⟩
  | @cons i k is ks hfirst _ ih =>
    obtain ⟨hemit, hadvance⟩ := ih (U.step s k).1
    rw [emit_cons, advance_cons, hstep s i k hfirst, hemit, hadvance]
    exact ⟨rfl, rfl⟩

theorem outputs_related (hinit : T.init = U.init) (hfinish : T.finish = U.finish) (hstep : ∀ s i k, R i k → T.step s i = U.step s k)
    (h : List.Forall₂ R is ks) : T.outputs is = U.outputs ks := by
  obtain ⟨hemit, hadvance⟩ := run_related hstep h U.init
  rw [outputs, outputs, hinit, hemit, hadvance, hfinish]

end Related

/-- From one state to another a machine reads some inputs and writes some outputs. -/
structure Passes (is : List ι) (os : List ο) (t : σ) : Prop where
  emit : T.emit s is = os
  advance : T.advance s is = t

variable {T s i is js} {os ps : List ο} {t u : σ}

theorem Passes.nil (T : Transducer σ ι ο) (s : σ) : T.Passes s [] [] s := ⟨rfl, rfl⟩

theorem Passes.single (h : T.step s i = (t, os)) : T.Passes s [i] os t := by
  refine ⟨?_, ?_⟩
  · rw [emit_cons, h, emit_nil, List.append_nil]
  · rw [advance_cons, h, advance_nil]

theorem Passes.append (h : T.Passes s is os t) (h' : T.Passes t js ps u) : T.Passes s (is ++ js) (os ++ ps) u := by
  refine ⟨?_, ?_⟩
  · rw [emit_append, h.advance, h.emit, h'.emit]
  · rw [advance_append, h.advance, h'.advance]

theorem Passes.outputs (h : T.Passes T.init is os t) : T.outputs is = os ++ (T.finish t).2 := by
  rw [Transducer.outputs, h.emit, h.advance]

end Transducer

section Invariants

variable {σ ι ο : Type} {T : Transducer σ ι ο}

/-- A property of the state that every step preserves holds at the end of any
    run from a state that has it. -/
theorem Transducer.advance_invariant {P : σ → Prop} (hstep : ∀ s i, P s → P (T.step s i).1)
    {s : σ} (hs : P s) (is : List ι) : P (T.advance s is) := by
  induction is generalizing s with
  | nil => exact hs
  | cons i is ih => exact ih (hstep s i hs)

/-- A relation between the inputs read, the outputs written and the state that
    every step extends holds after every run. -/
theorem Transducer.history {P : List ι → List ο → σ → Prop}
    (hstep : ∀ is os s i, P is os s → P (is ++ [i]) (os ++ (T.step s i).2) (T.step s i).1)
    {s : σ} (hs : P [] [] s) (is : List ι) : P is (T.emit s is) (T.advance s is) := by
  have hrun : ∀ before written s, P before written s →
      P (before ++ is) (written ++ T.emit s is) (T.advance s is) := by
    induction is with
    | nil =>
      intro before written s hs
      simpa using hs
    | cons i is ih =>
      intro before written s hs
      have htail := ih _ _ _ (hstep before written s i hs)
      simpa only [List.append_assoc, List.cons_append, List.nil_append, emit_cons, advance_cons] using htail
  exact hrun [] [] s hs

/-- An absorbing state writes nothing, whatever still arrives. -/
theorem Transducer.emit_absorbed {P : σ → Prop} (hstep : ∀ s i, P s → P (T.step s i).1)
    (hquiet : ∀ s i, P s → (T.step s i).2 = []) {s : σ} (hs : P s) (is : List ι) : T.emit s is = [] := by
  induction is generalizing s with
  | nil => rfl
  | cons i is ih => rw [emit_cons, hquiet s i hs, List.nil_append, ih (hstep s i hs)]

end Invariants

/-- A machine whose steps may fail. A failed step has moved the state all the
    same. -/
structure Fallible (ε σ ι ο : Type) where
  init : σ
  step : σ → ι → σ × Except ε (List ο)
  finish : σ → σ × Except ε (List ο)

namespace Fallible

variable {ε σ ι ο : Type} (M : Fallible ε σ ι ο)

/-- The outputs along a list of inputs, up to the first failure. -/
def emit (s : σ) : List ι → List ο
  | [] => []
  | i :: is =>
    match M.step s i with
    | (_, .error _) => []
    | (s, .ok os) => os ++ emit s is

/-- The state after a list of inputs, or after the first that failed. -/
def advance (s : σ) : List ι → σ
  | [] => s
  | i :: is =>
    match M.step s i with
    | (s, .error _) => s
    | (s, .ok _) => advance s is

/-- The first failure along a list of inputs. -/
def failure (s : σ) : List ι → Option ε
  | [] => none
  | i :: is =>
    match M.step s i with
    | (_, .error error) => some error
    | (s, .ok _) => failure s is

/-- What the end of the input adds to a run that did not fail. -/
def closing (s : σ) (is : List ι) : Except ε (List ο) :=
  match M.failure s is with
  | some error => .error error
  | none => (M.finish (M.advance s is)).2

/-- All outputs of a run, up to the first failure. -/
def outputs (s : σ) (is : List ι) : List ο := M.emit s is ++ (M.closing s is).toOption.getD []

variable {M} {s : σ} {i : ι} {is : List ι}

theorem closing_nil : M.closing s [] = (M.finish s).2 := rfl

theorem outputs_nil : M.outputs s [] = (M.finish s).2.toOption.getD [] := rfl

variable (is) in
theorem run_cons_ok {t : σ} {os : List ο} (hstep : M.step s i = (t, .ok os)) :
    M.emit s (i :: is) = os ++ M.emit t is ∧ M.failure s (i :: is) = M.failure t is ∧
      M.closing s (i :: is) = M.closing t is ∧ M.outputs s (i :: is) = os ++ M.outputs t is := by
  have hemit : M.emit s (i :: is) = os ++ M.emit t is := by rw [emit, hstep]
  have hfailure : M.failure s (i :: is) = M.failure t is := by rw [failure, hstep]
  have hclosing : M.closing s (i :: is) = M.closing t is := by rw [closing, hfailure, advance, hstep, closing]
  exact ⟨hemit, hfailure, hclosing, by rw [outputs, outputs, hemit, hclosing, List.append_assoc]⟩

variable (is) in
theorem run_cons_error {t : σ} {error : ε} (hstep : M.step s i = (t, .error error)) :
    M.emit s (i :: is) = [] ∧ M.failure s (i :: is) = some error ∧ M.closing s (i :: is) = .error error ∧
      M.outputs s (i :: is) = [] := by
  have hemit : M.emit s (i :: is) = [] := by rw [emit, hstep]
  have hfailure : M.failure s (i :: is) = some error := by rw [failure, hstep]
  have hclosing : M.closing s (i :: is) = .error error := by rw [closing, hfailure]
  exact ⟨hemit, hfailure, hclosing, by rw [outputs, hemit, hclosing]; rfl⟩

/-- A run that did not fail goes on with what follows. -/
theorem run_append (hok : M.failure s is = none) (js : List ι) :
    M.emit s (is ++ js) = M.emit s is ++ M.emit (M.advance s is) js ∧
      M.closing s (is ++ js) = M.closing (M.advance s is) js ∧
      M.outputs s (is ++ js) = M.emit s is ++ M.outputs (M.advance s is) js := by
  induction is generalizing s with
  | nil => exact ⟨rfl, rfl, rfl⟩
  | cons i is ih =>
    rcases hstep : M.step s i with ⟨t, error | os⟩
    · rw [(run_cons_error is hstep).2.1] at hok
      cases hok
    · obtain ⟨hemit, hfailure, -, -⟩ := run_cons_ok is hstep
      obtain ⟨hemit', -, hclosing', houtputs'⟩ := run_cons_ok (is ++ js) hstep
      have hadvance : M.advance s (i :: is) = M.advance t is := by rw [advance, hstep]
      rw [hfailure] at hok
      obtain ⟨ihemit, ihclosing, ihoutputs⟩ := ih hok
      rw [List.cons_append, hemit', hclosing', houtputs', hemit, hadvance, ihemit, ihclosing, ihoutputs]
      exact ⟨by rw [List.append_assoc], rfl, by rw [List.append_assoc]⟩

end Fallible

/-- The machine that never fails. -/
def Transducer.fallible {ε σ ι ο : Type} (T : Transducer σ ι ο) : Fallible ε σ ι ο where
  init := T.init
  step s i := (T.step s i).map id .ok
  finish s := (T.finish s).map id .ok

@[simp] theorem Transducer.fallible_init {ε σ ι ο : Type} (T : Transducer σ ι ο) :
    (T.fallible : Fallible ε σ ι ο).init = T.init := rfl

@[simp] theorem Transducer.fallible_step {ε σ ι ο : Type} (T : Transducer σ ι ο) (s : σ) (i : ι) :
    (T.fallible : Fallible ε σ ι ο).step s i = ((T.step s i).1, .ok (T.step s i).2) := rfl

@[simp] theorem Transducer.fallible_finish {ε σ ι ο : Type} (T : Transducer σ ι ο) (s : σ) :
    (T.fallible : Fallible ε σ ι ο).finish s = ((T.finish s).1, .ok (T.finish s).2) := rfl

end refract.machine

namespace refract.machine

section Mute

variable {σ ι ο : Type} {T : Transducer σ ι ο} {s : σ} {is : List ι}

/-- Inputs that do nothing may be left out. -/
theorem run_filter {heard : ι → Bool} (hidle : ∀ s i, heard i = false → T.step s i = (s, [])) (s : σ) (is : List ι) :
    T.emit s (is.filter heard) = T.emit s is ∧ T.advance s (is.filter heard) = T.advance s is := by
  induction is generalizing s with
  | nil => exact ⟨rfl, rfl⟩
  | cons i is ih =>
    cases hheard : heard i with
    | true =>
      rw [List.filter_cons_of_pos hheard, Transducer.emit_cons, Transducer.emit_cons, (ih _).1]
      exact ⟨rfl, (ih _).2⟩
    | false =>
      rw [List.filter_cons_of_neg (by rw [hheard]; decide), Transducer.emit_cons, Transducer.advance_cons, hidle s i hheard]
      exact ih s

theorem outputs_filter {heard : ι → Bool} (hidle : ∀ s i, heard i = false → T.step s i = (s, [])) (is : List ι) :
    T.outputs (is.filter heard) = T.outputs is := by
  rw [Transducer.outputs, Transducer.outputs, (run_filter hidle T.init is).1, (run_filter hidle T.init is).2]

variable {mute : ι → ι} {Speaks : σ → ι → Prop}

/-- No input of a run speaks in the state it finds. -/
def Silent (T : Transducer σ ι ο) (Speaks : σ → ι → Prop) (s : σ) (is : List ι) : Prop :=
  ∀ before i after, is = before ++ i :: after → ¬Speaks (T.advance s before) i

theorem silent_cons {i : ι} : Silent T Speaks s (i :: is) ↔ ¬Speaks s i ∧ Silent T Speaks (T.step s i).1 is := by
  constructor
  · exact fun h => ⟨h [] i is rfl, fun before j after hsplit => h (i :: before) j after (by rw [hsplit]; rfl)⟩
  · rintro ⟨hfirst, hrest⟩ before j after hsplit
    cases before with
    | nil =>
      obtain ⟨rfl, -⟩ := List.cons.inj hsplit
      exact hfirst
    | cons k before =>
      obtain ⟨rfl, hsplit'⟩ := List.cons.inj hsplit
      exact hrest before j after hsplit'

/-- Muting what does not speak changes nothing. -/
theorem run_mute (hmute : ∀ s i, ¬Speaks s i → T.step s (mute i) = T.step s i) (hsilent : Silent T Speaks s is) :
    T.emit s (is.map mute) = T.emit s is ∧ T.advance s (is.map mute) = T.advance s is := by
  induction is generalizing s with
  | nil => exact ⟨rfl, rfl⟩
  | cons i is ih =>
    obtain ⟨hfirst, hrest⟩ := silent_cons.mp hsilent
    rw [List.map_cons, Transducer.emit_cons, Transducer.emit_cons, Transducer.advance_cons, hmute s i hfirst, (ih hrest).1]
    exact ⟨rfl, (ih hrest).2⟩

theorem Silent.take (h : Silent T Speaks s is) (n : Nat) : Silent T Speaks s (is.take n) := by
  intro before i after hsplit
  refine h before i (after ++ is.drop n) ?_
  rw [← List.cons_append, ← List.append_assoc, ← hsplit, List.take_append_drop]

/-- At every moment of a run the same was put out, exactly where what is muted did
    not speak. -/
theorem emit_mute_iff (hmute : ∀ s i, ¬Speaks s i → T.step s (mute i) = T.step s i)
    (hspeaks : ∀ s i, Speaks s i → (T.step s (mute i)).2 = [] ∧ (T.step s i).2 ≠ []) :
    (∀ n, T.emit s ((is.map mute).take n) = T.emit s (is.take n)) ↔ Silent T Speaks s is := by
  constructor
  · intro h
    induction is generalizing s with
    | nil => exact fun before i after hsplit => absurd hsplit (by simp)
    | cons i is ih =>
      have hfirst : ¬Speaks s i := by
        intro hspeak
        obtain ⟨hmuted, hheard⟩ := hspeaks s i hspeak
        have hone := h 1
        rw [List.map_cons, List.take_succ_cons, List.take_succ_cons, List.take_zero, List.take_zero, Transducer.emit_cons,
          Transducer.emit_cons, hmuted, Transducer.emit_nil, Transducer.emit_nil, List.append_nil, List.append_nil] at hone
        exact hheard hone.symm
      refine silent_cons.mpr ⟨hfirst, ih fun n => ?_⟩
      have hnext := h (n + 1)
      rw [List.map_cons, List.take_succ_cons, List.take_succ_cons, Transducer.emit_cons, Transducer.emit_cons, hmute s i hfirst] at hnext
      exact List.append_cancel_left hnext
  · intro h n
    rw [← List.map_take]
    exact (run_mute hmute (h.take n)).1

theorem outputs_mute (hmute : ∀ s i, ¬Speaks s i → T.step s (mute i) = T.step s i) (hsilent : Silent T Speaks T.init is) :
    T.outputs (is.map mute) = T.outputs is := by
  rw [Transducer.outputs, Transducer.outputs, (run_mute hmute hsilent).1, (run_mute hmute hsilent).2]

end Mute

end refract.machine
