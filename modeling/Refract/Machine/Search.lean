import Mathlib.Data.List.Infix
import Mathlib.Data.Nat.Find
import Mathlib.Tactic.Common

namespace refract.machine

section First

/-- The first place from some place on at which something holds. -/
structure First (P : Nat → Prop) (start i : Nat) : Prop where
  holds : P i
  start_le : start ≤ i
  before : ∀ j, start ≤ j → j < i → ¬P j

variable {P Q : Nat → Prop} {start next i j : Nat}

theorem First.unique (h : First P start i) (h' : First P start j) : i = j := by
  rcases Nat.lt_trichotomy i j with hlt | heq | hlt
  · exact absurd h.holds (h'.before i h.start_le hlt)
  · exact heq
  · exact absurd h'.holds (h.before j h'.start_le hlt)

theorem exists_first (hstart : start ≤ j) (hj : P j) : ∃ i, First P start i ∧ i ≤ j := by
  classical
  have hexists : ∃ i, start ≤ i ∧ P i := ⟨j, hstart, hj⟩
  refine ⟨Nat.find hexists, ⟨(Nat.find_spec hexists).2, (Nat.find_spec hexists).1, fun k hk hlt hholds => ?_⟩, ?_⟩
  · exact Nat.find_min hexists hlt ⟨hk, hholds⟩
  · exact Nat.find_min' hexists ⟨hstart, hj⟩

/-- A search may start anywhere before what it finds. -/
theorem first_iff_of_skip (hstart : start ≤ next) (hskip : ∀ j, start ≤ j → j < next → ¬P j) :
    First P start i ↔ First P next i := by
  constructor
  · intro h
    have hnext : next ≤ i := by
      by_contra hlt
      exact hskip i h.start_le (by omega) h.holds
    exact ⟨h.holds, hnext, fun j hj => h.before j (by omega)⟩
  · intro h
    refine ⟨h.holds, by have := h.start_le; omega, fun j hj hlt => ?_⟩
    by_cases hnext : j < next
    · exact hskip j hj hnext
    · exact h.before j (by omega) hlt

theorem First.later (h : First P start i) (hstart : start ≤ next) (hnext : next ≤ i) : First P next i :=
  (first_iff_of_skip hstart fun j hj hlt => h.before j hj (by omega)).mp h

/-- Only what stands up to the place that is found matters. -/
theorem First.congr (h : First P start i) (hsame : ∀ j ≤ i, P j ↔ Q j) : First Q start i where
  holds := (hsame i (Nat.le_refl i)).mp h.holds
  start_le := h.start_le
  before j hj hlt := fun hholds => h.before j hj hlt ((hsame j (by omega)).mpr hholds)

end First

section Search

variable {α : Type}

/-- One list stands in another at a place. -/
def StandsAt (needle body : List α) (i : Nat) : Prop := needle <+: body.drop i

variable {needle body front rest : List α} {i k : Nat}

theorem standsAt_iff_getElem? : StandsAt needle body i ↔ ∀ k < needle.length, body[i + k]? = needle[k]? := by
  rw [StandsAt, List.prefix_iff_getElem?]
  constructor
  · intro h k hk
    rw [← List.getElem?_drop, h k hk, List.getElem?_eq_getElem hk]
  · intro h k hk
    rw [List.getElem?_drop, h k hk, List.getElem?_eq_getElem hk]

theorem StandsAt.getElem? (h : StandsAt needle body i) (hk : k < needle.length) : body[i + k]? = needle[k]? :=
  standsAt_iff_getElem?.mp h k hk

theorem StandsAt.length_le (h : StandsAt needle body i) (hneedle : needle ≠ []) : i + needle.length ≤ body.length := by
  have hpos := List.length_pos_iff.mpr hneedle
  have hlen := List.IsPrefix.length_le h
  rw [List.length_drop] at hlen
  omega

/-- What stands early in a list stands in every list that starts alike. -/
theorem standsAt_congr {other : List α} {n : Nat} (hsame : body.take n = other.take n) (hn : i + needle.length ≤ n) :
    StandsAt needle body i ↔ StandsAt needle other i := by
  have hget : ∀ k < needle.length, body[i + k]? = other[i + k]? := by
    intro k hk
    have h := congrArg (·[i + k]?) hsame
    simpa only [List.getElem?_take, if_pos (show i + k < n by omega)] using h
  rw [standsAt_iff_getElem?, standsAt_iff_getElem?]
  exact forall₂_congr fun k hk => by rw [hget k hk]

theorem standsAt_append_left (h : i + needle.length ≤ front.length) :
    StandsAt needle (front ++ rest) i ↔ StandsAt needle front i :=
  standsAt_congr (by rw [List.take_left', List.take_length]; rfl) h

theorem standsAt_append_right : StandsAt needle (front ++ rest) (front.length + i) ↔ StandsAt needle rest i := by
  rw [StandsAt, StandsAt, List.drop_length_add_append]

theorem First.append_right (h : First (StandsAt needle rest) 0 i) :
    First (StandsAt needle (front ++ rest)) front.length (front.length + i) where
  holds := standsAt_append_right.mpr h.holds
  start_le := Nat.le_add_right _ _
  before j hj hlt hstands := by
    obtain ⟨k, rfl⟩ := Nat.exists_eq_add_of_le hj
    exact h.before k (Nat.zero_le k) (by omega) (standsAt_append_right.mp hstands)

/-- Where no beginning of one list is in another, the two do not overlap. -/
theorem StandsAt.disjoint {other : List α} (h : StandsAt needle body i) {j : Nat} (hother : StandsAt other body j)
    (hapart : ∀ k < needle.length, needle[k]? ≠ other[0]?) (hpos : 0 < other.length) (hle : i ≤ j) : i + needle.length ≤ j := by
  by_contra hlt
  have hbyte := hother.getElem? hpos
  have hsame := h.getElem? (show j - i < needle.length by omega)
  rw [show i + (j - i) = j + 0 by omega, hbyte] at hsame
  exact hapart _ (by omega) hsame.symm

end Search

end refract.machine
