import Mathlib.Data.List.Basic
import Mathlib.Data.List.Infix
import Mathlib.Data.List.Nodup
import Mathlib.Tactic.Common

namespace refract.machine

variable {α : Type} [DecidableEq α]

/-- Appends an element that is not listed yet. The position of an element is
    the order in which it was first noted. -/
def note (noted : List α) (x : α) : List α := if x ∈ noted then noted else noted ++ [x]

variable {noted : List α} {x y : α}

@[simp] theorem note_of_mem (hx : x ∈ noted) : note noted x = noted := if_pos hx

theorem note_of_not_mem (hx : x ∉ noted) : note noted x = noted ++ [x] := if_neg hx

theorem mem_note : y ∈ note noted x ↔ y ∈ noted ∨ y = x := by
  by_cases hx : x ∈ noted
  · rw [note_of_mem hx]
    exact ⟨.inl, fun h => h.elim id fun heq => heq ▸ hx⟩
  · simp [note_of_not_mem hx]

@[simp] theorem mem_note_self : x ∈ note noted x := mem_note.mpr (.inr rfl)

theorem mem_note_of_mem (hy : y ∈ noted) : y ∈ note noted x := mem_note.mpr (.inl hy)

theorem nodup_note (hnodup : noted.Nodup) : (note noted x).Nodup := by
  by_cases hx : x ∈ noted
  · rwa [note_of_mem hx]
  · rw [note_of_not_mem hx, List.nodup_append]
    refine ⟨hnodup, List.nodup_singleton x, ?_⟩
    intro y hy z hz heq
    rw [List.mem_singleton] at hz
    exact hx (hz ▸ heq ▸ hy)

/-- Noting more elements does not move the earlier ones. -/
theorem idxOf_note (hy : y ∈ noted) : (note noted x).idxOf y = noted.idxOf y := by
  by_cases hx : x ∈ noted
  · rw [note_of_mem hx]
  · rw [note_of_not_mem hx, List.idxOf_append_of_mem hy]

theorem idxOf_note_self (hx : x ∉ noted) : (note noted x).idxOf x = noted.length := by
  rw [note_of_not_mem hx, List.idxOf_append_of_notMem hx, List.idxOf_cons_self, Nat.add_zero]

/-- A table of the noted elements and their positions. -/
theorem lookup_zipIdx (noted : List α) (x : α) (start : Nat) :
    (noted.zipIdx start).lookup x = if x ∈ noted then some (start + noted.idxOf x) else none := by
  induction noted generalizing start with
  | nil => rfl
  | cons y noted ih =>
    by_cases hxy : x = y
    · subst hxy
      simp
    · have hbeq : (x == y) = false := by simpa using hxy
      have hidx : (y :: noted).idxOf x = noted.idxOf x + 1 := List.idxOf_cons_ne _ (Ne.symm hxy)
      simp only [List.zipIdx_cons, List.lookup_cons, hbeq, ih, List.mem_cons, hxy, false_or, hidx]
      split
      · congr 1
        omega
      · rfl

theorem zipIdx_note (hx : x ∉ noted) : (note noted x).zipIdx = noted.zipIdx ++ [(x, noted.length)] := by
  rw [note_of_not_mem hx, List.zipIdx_append]
  simp

/-- The positions of a list of noted elements count up from zero exactly when
    the list is an initial part of the noted ones. -/
theorem map_idxOf_eq_range {chosen : List α} (hnodup : noted.Nodup) (hchosen : ∀ x ∈ chosen, x ∈ noted) :
    chosen.map (noted.idxOf ·) = List.range chosen.length ↔ chosen <+: noted := by
  constructor
  · intro hmap
    rw [List.prefix_iff_getElem?]
    intro i hi
    have hidx : noted.idxOf chosen[i] = i := by
      have hget := congrArg (·[i]?) hmap
      simpa [hi] using hget
    have hmem := hchosen chosen[i] (List.getElem_mem hi)
    have hlt : noted.idxOf chosen[i] < noted.length := List.idxOf_lt_length_iff.mpr hmem
    have hget : noted[noted.idxOf chosen[i]] = chosen[i] := List.getElem_idxOf hlt
    have hi' : i < noted.length := hidx ▸ hlt
    rw [List.getElem?_eq_getElem hi']
    simpa [hidx] using hget
  · rintro ⟨rest, rfl⟩
    apply List.ext_getElem
    · simp
    · intro i hi hi'
      simp only [List.length_map] at hi
      have hlong : i < (chosen ++ rest).length := by
        rw [List.length_append]
        omega
      have hget : chosen[i] = (chosen ++ rest)[i] := by
        rw [List.getElem_append_left hi]
      simp only [List.getElem_map, List.getElem_range]
      rw [hget, hnodup.idxOf_getElem i hlong]

end refract.machine

namespace refract.machine

variable {κ α : Type} [DecidableEq κ] (key_of : α → κ)

/-- Changes the first entry under a key, which is put at the end if there is none. -/
def upsert (k : κ) (fresh : α) (f : α → α) : List α → List α
  | [] => [f fresh]
  | a :: entries => if key_of a = k then f a :: entries else a :: upsert k fresh f entries

variable {key_of} {k : κ} {fresh : α} {f : α → α} {before : List α}

theorem upsert_append (hbefore : ∀ a ∈ before, key_of a ≠ k) (entries : List α) :
    upsert key_of k fresh f (before ++ entries) = before ++ upsert key_of k fresh f entries := by
  induction before with
  | nil => rfl
  | cons a before ih =>
    obtain ⟨ha, hrest⟩ := List.forall_mem_cons.mp hbefore
    rw [List.cons_append, upsert, if_neg ha, ih hrest, List.cons_append]

/-- A new key gets a new entry. -/
theorem upsert_absent (hbefore : ∀ a ∈ before, key_of a ≠ k) :
    upsert key_of k fresh f before = before ++ [f fresh] := by
  calc upsert key_of k fresh f before
    _ = upsert key_of k fresh f (before ++ []) := by rw [List.append_nil]
    _ = before ++ [f fresh] := upsert_append hbefore []

/-- The key of the last entry finds that entry. -/
theorem upsert_last (hbefore : ∀ a ∈ before, key_of a ≠ k) {a : α} (ha : key_of a = k) :
    upsert key_of k fresh f (before ++ [a]) = before ++ [f a] := by
  rw [upsert_append hbefore, upsert, if_pos ha]

/-- A shelf with an entry for every noted key gets the changed entry under its key,
    which is noted with it. -/
theorem upsert_map {noted : List κ} {entry : κ → α} (hkey : ∀ k, key_of (entry k) = k) (hnodup : noted.Nodup)
    (hfresh : k ∉ noted → entry k = fresh) :
    upsert key_of k fresh f (noted.map entry) = (note noted k).map (Function.update entry k (f (entry k))) := by
  have hothers : ∀ {others : List κ}, k ∉ others → others.map (Function.update entry k (f (entry k))) = others.map entry := by
    intro others hothers
    refine List.map_congr_left fun other hother => Function.update_of_ne ?_ ..
    rintro rfl
    exact hothers hother
  by_cases hk : k ∈ noted
  · obtain ⟨before, after, rfl⟩ := List.append_of_mem hk
    obtain ⟨hafter, -⟩ := List.nodup_cons.mp hnodup.of_append_right
    have hbefore : k ∉ before := fun hmem => List.disjoint_of_nodup_append hnodup hmem List.mem_cons_self
    have hne : ∀ a ∈ before.map entry, key_of a ≠ k := by
      intro a ha heq
      obtain ⟨other, hother, rfl⟩ := List.mem_map.mp ha
      exact hbefore (by rwa [← heq, hkey])
    rw [note_of_mem hk, List.map_append, List.map_append, upsert_append hne, List.map_cons, List.map_cons, upsert,
      if_pos (hkey k), Function.update_self, hothers hbefore, hothers hafter]
  · have hne : ∀ a ∈ noted.map entry, key_of a ≠ k := by
      intro a ha heq
      obtain ⟨other, hother, rfl⟩ := List.mem_map.mp ha
      exact hk (by rwa [← heq, hkey])
    rw [note_of_not_mem hk, List.map_append, upsert_absent hne, hothers hk, List.map_singleton, Function.update_self, hfresh hk]

end refract.machine

namespace refract.machine

variable {α : Type} [Inhabited α]

/-- The entry at an index of a vector that grows on demand. -/
def slot (slots : List α) (i : Nat) : α := slots[i]?.getD default

/-- The vector, extended by default entries until the index exists. -/
def grow (slots : List α) (i : Nat) : List α := slots ++ List.replicate (i + 1 - slots.length) default

/-- Stores an entry, extending the vector as needed. -/
def put (slots : List α) (i : Nat) (a : α) : List α := (grow slots i).set i a

variable (slots : List α) (i j : Nat) (a : α)

theorem lt_length_grow : i < (grow slots i).length := by
  simp only [grow, List.length_append, List.length_replicate]
  omega

@[simp] theorem length_put : (put slots i a).length = max slots.length (i + 1) := by
  simp only [put, grow, List.length_set, List.length_append, List.length_replicate]
  omega

@[simp] theorem slot_nil : slot ([] : List α) i = default := rfl

/-- Growing a vector does not change what is read from it. -/
@[simp] theorem slot_grow : slot (grow slots i) j = slot slots j := by
  unfold slot grow
  by_cases hj : j < slots.length
  · rw [List.getElem?_append_left hj]
  · rw [List.getElem?_append_right (by omega), List.getElem?_eq_none (l := slots) (by omega), List.getElem?_replicate]
    split <;> rfl

@[simp] theorem slot_put_self : slot (put slots i a) i = a := by
  simp [slot, put, lt_length_grow]

theorem slot_put_of_ne (hne : j ≠ i) : slot (put slots i a) j = slot slots j := by
  rw [← slot_grow slots i j]
  simp [slot, put, Ne.symm hne]

theorem slot_put : slot (put slots i a) j = if j = i then a else slot slots j := by
  by_cases hji : j = i
  · rw [hji, slot_put_self, if_pos rfl]
  · rw [slot_put_of_ne slots i j a hji, if_neg hji]

/-- Storing right behind the last entry. -/
theorem put_length : put slots slots.length a = slots ++ [a] := by
  have hone : slots.length + 1 - slots.length = 1 := Nat.add_sub_cancel_left ..
  rw [put, grow, hone, List.replicate_one, List.set_append_right _ _ (Nat.le_refl _), Nat.sub_self]
  rfl

theorem slot_of_length_le (hj : slots.length ≤ j) : slot slots j = default := by
  simp [slot, List.getElem?_eq_none hj]

end refract.machine
