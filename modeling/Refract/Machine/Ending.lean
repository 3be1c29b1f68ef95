import Refract.Machine.Transducer
import Mathlib.Data.List.TakeWhile

namespace refract.machine

section Splitting

variable {α : Type} (p : α → Bool)

/-- The entries before the first one with a property. -/
def before (xs : List α) : List α := xs.takeWhile (!p ·)

/-- The entries after the first one with a property. -/
def after (xs : List α) : List α := (xs.dropWhile (!p ·)).tail

variable {p}

theorem of_mem_before {xs : List α} {x : α} (hx : x ∈ before p xs) : p x = false := by
  have hbefore := List.mem_takeWhile_imp hx
  simpa using hbefore

/-- A list has no entry with the property, or splits at its first one. -/
theorem split_first (xs : List α) :
    (before p xs = xs ∧ xs.find? p = none ∧ after p xs = []) ∨
      ∃ x, xs = before p xs ++ x :: after p xs ∧ p x = true ∧ xs.find? p = some x := by
  induction xs with
  | nil => exact .inl ⟨rfl, rfl, rfl⟩
  | cons x xs ih =>
    cases hx : p x with
    | true =>
      refine .inr ⟨x, ?_, hx, ?_⟩
      · simp [before, after, hx]
      · simp [hx]
    | false =>
      have hbefore : before p (x :: xs) = x :: before p xs := by simp [before, hx]
      have hafter : after p (x :: xs) = after p xs := by simp [after, hx]
      have hfind : (x :: xs).find? p = xs.find? p := by simp [hx]
      rw [hbefore, hafter, hfind]
      obtain ⟨hall, hnone, hnil⟩ | ⟨y, hsplit, hy, hsome⟩ := ih
      · exact .inl ⟨by rw [hall], hnone, hnil⟩
      · exact .inr ⟨y, by rw [List.cons_append, ← hsplit], hy, hsome⟩

/-- What comes after the first entry of a kind. -/
theorem after_append_cons {xs rest : List α} {x : α} (hxs : ∀ y ∈ xs, p y = false) (hx : p x = true) :
    after p (xs ++ x :: rest) = rest := by
  induction xs with
  | nil => simp [after, hx]
  | cons y xs ih =>
    have hy := hxs y List.mem_cons_self
    have hrest := ih fun z hz => hxs z (List.mem_cons_of_mem _ hz)
    simpa [after, hy] using hrest

/-- A position after an entry of a kind lies after the first one. -/
theorem split_after {pre post xs ys : List α} {x y : α} (hpre : ∀ z ∈ pre, p z = false)
    (hsplit : pre ++ x :: post = xs ++ y :: ys) (hxs : xs.any p = true) :
    ∃ mid, xs = pre ++ x :: mid ∧ post = mid ++ y :: ys := by
  obtain ⟨mid, rfl, hmid⟩ | ⟨mid, rfl, hmid⟩ := List.append_eq_append_iff.mp hsplit
  · cases mid with
    | nil =>
      rw [List.append_nil, List.any_eq_true] at hxs
      obtain ⟨z, hz, hpz⟩ := hxs
      rw [hpre z hz] at hpz
      cases hpz
    | cons z mid =>
      obtain ⟨rfl, rfl⟩ := List.cons.inj hmid
      exact ⟨mid, rfl, rfl⟩
  · rw [List.any_eq_true] at hxs
    obtain ⟨z, hz, hpz⟩ := hxs
    rw [hpre z (List.mem_append_left _ hz)] at hpz
    cases hpz

variable (p)

/-- The last entry is the only one with the property. -/
def EndsWith (xs : List α) : Prop :=
  ∃ init last, xs = init ++ [last] ∧ p last = true ∧ ∀ x ∈ init, p x = false

variable {p} {init rest xs : List α} {x : α}

/-- A list with a first entry of the kind ends with it when nothing follows. -/
theorem endsWith_append_cons (hinit : ∀ y ∈ init, p y = false) (hx : p x = true) :
    EndsWith p (init ++ x :: rest) ↔ rest = [] := by
  constructor
  · rintro ⟨others, last, heq, _, hothers⟩
    cases hrest : rest.reverse with
    | nil => exact List.reverse_eq_nil_iff.mp hrest
    | cons y ys =>
      have hsplit : rest = ys.reverse ++ [y] := by
        rw [← List.reverse_reverse rest, hrest, List.reverse_cons]
      rw [hsplit, ← List.cons_append, ← List.append_assoc] at heq
      obtain ⟨hothers', _⟩ := List.append_inj' heq rfl
      have hmem : x ∈ others := by
        rw [← hothers']
        simp
      have hnot := hothers x hmem
      rw [hx] at hnot
      cases hnot
  · rintro rfl
    exact ⟨init, x, rfl, hx, hinit⟩

theorem EndsWith.singleton (hx : p x = true) : EndsWith p [x] := ⟨[], x, rfl, hx, by simp⟩

theorem EndsWith.prepend (h : EndsWith p xs) (hinit : ∀ y ∈ init, p y = false) : EndsWith p (init ++ xs) := by
  obtain ⟨others, last, rfl, hlast, hothers⟩ := h
  refine ⟨init ++ others, last, by rw [List.append_assoc], hlast, ?_⟩
  intro y hy
  rcases List.mem_append.mp hy with hy | hy
  · exact hinit y hy
  · exact hothers y hy

/-- What follows an ended list is empty exactly when the whole still ends so. -/
theorem EndsWith.append_iff (h : EndsWith p xs) : EndsWith p (xs ++ rest) ↔ rest = [] := by
  obtain ⟨others, last, rfl, hlast, hothers⟩ := h
  rw [List.append_assoc, List.singleton_append]
  exact endsWith_append_cons hothers hlast

theorem not_endsWith (h : ∀ x ∈ xs, p x = false) : ¬ EndsWith p xs := by
  rintro ⟨others, last, rfl, hlast, _⟩
  have hnot := h last (by simp)
  rw [hlast] at hnot
  cases hnot

end Splitting

variable {σ ι ο : Type} {T : Transducer σ ι ο}

/-- Outputs that no step of a kind of state produces are absent from a run that
    stays in that kind of state. -/
theorem Transducer.emit_forall {P : σ → Prop} {Q : ι → Prop} {R : ο → Prop}
    (hstep : ∀ s i, P s → Q i → P (T.step s i).1 ∧ ∀ o ∈ (T.step s i).2, R o) {s : σ} (hs : P s)
    (is : List ι) (his : ∀ i ∈ is, Q i) : P (T.advance s is) ∧ ∀ o ∈ T.emit s is, R o := by
  induction is generalizing s with
  | nil => exact ⟨hs, by simp⟩
  | cons i is ih =>
    obtain ⟨hnext, hout⟩ := hstep s i hs (his i List.mem_cons_self)
    obtain ⟨hend, hrest⟩ := ih hnext fun j hj => his j (List.mem_cons_of_mem _ hj)
    refine ⟨hend, ?_⟩
    intro o ho
    rcases List.mem_append.mp ho with ho | ho
    · exact hout o ho
    · exact hrest o ho

/-- A run is silent exactly when each of its inputs is idle, in states in which
    idle inputs are the silent ones. -/
theorem Transducer.emit_eq_nil_iff {P : σ → Prop} {Q : ι → Prop}
    (hstep : ∀ s i, P s → ((T.step s i).2 = [] ↔ Q i) ∧ (Q i → P (T.step s i).1)) {s : σ} (hs : P s)
    (is : List ι) : T.emit s is = [] ↔ ∀ i ∈ is, Q i := by
  induction is generalizing s with
  | nil => simp
  | cons i is ih =>
    obtain ⟨hquiet, hnext⟩ := hstep s i hs
    rw [emit_cons, List.append_eq_nil_iff, hquiet, List.forall_mem_cons]
    apply and_congr_right
    intro hidle
    exact ih (hnext hidle)

/-- A machine that closes itself at the first input of a kind, with a last
    output, and closes at the end of its input otherwise. -/
structure Transducer.Closes (T : Transducer σ ι ο) (closed : σ → Bool) (marks : ι → Bool) (p : ο → Bool) :
    Prop where
  init : closed T.init = false
  running : ∀ s i, closed s = false → marks i = false →
    closed (T.step s i).1 = false ∧ ∀ o ∈ (T.step s i).2, p o = false
  stays : ∀ s i, closed s = true → closed (T.step s i).1 = true
  finish_running : ∀ s, closed s = false → EndsWith p (T.finish s).2
  finish_closed : ∀ s, closed s = true → (T.finish s).2 = []

namespace Transducer.Closes

variable {closed : σ → Bool} {marks : ι → Bool} {p : ο → Bool} (h : T.Closes closed marks p)

include h

theorem run (is : List ι) (his : ∀ i ∈ is, marks i = false) :
    closed (T.advance T.init is) = false ∧ ∀ o ∈ T.emit T.init is, p o = false :=
  Transducer.emit_forall h.running h.init is his

/-- A run without a marked input ends with its last output. -/
theorem endsWith_of_unmarked {is : List ι} (his : ∀ i ∈ is, marks i = false) : EndsWith p (T.outputs is) := by
  obtain ⟨hopen, hout⟩ := h.run is his
  exact (h.finish_running _ hopen).prepend hout

variable {pre post : List ι} {i : ι} (hpre : ∀ j ∈ pre, marks j = false)
  (hclosed : ∀ s, closed s = false → closed (T.step s i).1 = true)

include hpre hclosed

/-- The outputs of a run with a closing input. -/
theorem outputs_eq :
    T.outputs (pre ++ i :: post) =
      T.emit T.init pre ++ ((T.step (T.advance T.init pre) i).2 ++
        T.emit (T.step (T.advance T.init pre) i).1 post) := by
  obtain ⟨hopen, _⟩ := h.run pre hpre
  have hend := Transducer.advance_invariant (T := T) (P := fun s => closed s = true)
    (fun s j => h.stays s j) (hclosed _ hopen) post
  rw [outputs_append, emit_cons, advance_cons, h.finish_closed _ hend, List.append_nil]

/-- A run with a closing input ends with the last output exactly when nothing
    follows it. -/
theorem endsWith_iff (hlast : ∀ s, closed s = false → EndsWith p (T.step s i).2) :
    EndsWith p (T.outputs (pre ++ i :: post)) ↔ T.emit (T.step (T.advance T.init pre) i).1 post = [] := by
  obtain ⟨hopen, hout⟩ := h.run pre hpre
  rw [h.outputs_eq hpre hclosed, ← List.append_assoc]
  exact ((hlast _ hopen).prepend hout).append_iff

/-- A run that closes without the last output never ends with it, when no step
    of a closed machine writes it. -/
theorem not_endsWith (hstep : ∀ s, closed s = false → ∀ o ∈ (T.step s i).2, p o = false)
    (hsilent : ∀ s j, closed s = true → ∀ o ∈ (T.step s j).2, p o = false) :
    ¬ EndsWith p (T.outputs (pre ++ i :: post)) := by
  obtain ⟨hopen, hout⟩ := h.run pre hpre
  have hrest := (Transducer.emit_forall (T := T) (P := fun s => closed s = true) (Q := fun _ => True)
    (R := fun o => p o = false) (fun s j hs _ => ⟨h.stays s j hs, hsilent s j hs⟩)
    (hclosed _ hopen) post (by simp)).2
  rw [h.outputs_eq hpre hclosed]
  apply machine.not_endsWith
  intro o ho
  rcases List.mem_append.mp ho with ho | ho
  · exact hout o ho
  · rcases List.mem_append.mp ho with ho | ho
    · exact hstep _ hopen o ho
    · exact hrest o ho

end Transducer.Closes

end refract.machine
