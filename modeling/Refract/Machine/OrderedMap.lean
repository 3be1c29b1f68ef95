import Mathlib.Data.List.Sort
import Mathlib.Order.Basic
import Mathlib.Tactic.Common

namespace refract.machine

/-- An association list that is kept in key order. -/
abbrev OrderedMap (κ β : Type) := List (κ × β)

namespace OrderedMap

variable {κ β : Type} [LinearOrder κ]

/-- Stores a value under a key, replacing an earlier one. -/
def insert (map : OrderedMap κ β) (key : κ) (value : β) : OrderedMap κ β :=
  match map with
  | [] => [(key, value)]
  | (k, v) :: map =>
    if k = key then (key, value) :: map
    else if key < k then (key, value) :: (k, v) :: map
    else (k, v) :: insert map key value

def remove (map : OrderedMap κ β) (key : κ) : OrderedMap κ β := map.filter (·.1 ≠ key)

/-- The keys are strictly increasing. -/
def Sorted (map : OrderedMap κ β) : Prop := (map.map Prod.fst).Pairwise (· < ·)

variable (map : OrderedMap κ β) (key other : κ) (value : β)

@[simp] theorem lookup_insert_self : (insert map key value).lookup key = some value := by
  induction map with
  | nil => simp [insert]
  | cons entry map ih =>
    obtain ⟨k, v⟩ := entry
    unfold insert
    split
    · simp
    · rename_i hk
      split
      · simp
      · have hbeq : (key == k) = false := by simpa using Ne.symm hk
        simpa [List.lookup_cons, hbeq] using ih

theorem lookup_insert_of_ne {map : OrderedMap κ β} {key other : κ} (hne : other ≠ key) :
    (insert map key value).lookup other = map.lookup other := by
  have hbeq : (other == key) = false := by simpa using hne
  induction map with
  | nil => simp [insert, List.lookup_cons, hbeq]
  | cons entry map ih =>
    obtain ⟨k, v⟩ := entry
    unfold insert
    split
    · rename_i hk
      subst hk
      simp [List.lookup_cons, hbeq]
    · split
      · simp [List.lookup_cons, hbeq]
      · simp only [List.lookup_cons, ih]

theorem lookup_insert :
    (insert map key value).lookup other = if other = key then some value else map.lookup other := by
  by_cases hother : other = key
  · rw [hother, lookup_insert_self, if_pos rfl]
  · rw [lookup_insert_of_ne value hother, if_neg hother]

theorem lookup_remove : (remove map key).lookup other = if other = key then none else map.lookup other := by
  induction map with
  | nil => simp [remove]
  | cons entry map ih =>
    obtain ⟨k, v⟩ := entry
    simp only [remove, List.filter_cons] at ih ⊢
    by_cases hk : k = key
    · subst hk
      simp only [ne_eq, not_true_eq_false, decide_false, Bool.false_eq_true, if_false, ih]
      by_cases hother : other = k
      · simp [hother]
      · have hbeq : (other == k) = false := by simpa using hother
        simp [hother, List.lookup_cons, hbeq]
    · simp only [ne_eq, hk, not_false_eq_true, decide_true, if_true, List.lookup_cons, ih]
      by_cases hother : other = key
      · subst hother
        have hbeq : (other == k) = false := by simpa using Ne.symm hk
        simp only [hbeq, if_true]
      · simp only [hother, if_false]

theorem mem_keys_insert {map : OrderedMap κ β} {key k : κ} :
    k ∈ (insert map key value).map Prod.fst ↔ k = key ∨ k ∈ map.map Prod.fst := by
  induction map with
  | nil => simp [insert]
  | cons entry map ih =>
    obtain ⟨k', v⟩ := entry
    unfold insert
    split
    · rename_i hk
      subst hk
      simp
    · split
      · simp
      · simp only [List.map_cons, List.mem_cons, ih]
        tauto

theorem Sorted.nil : Sorted ([] : OrderedMap κ β) := List.Pairwise.nil

theorem Sorted.insert {map : OrderedMap κ β} (hmap : Sorted map) : Sorted (insert map key value) := by
  unfold Sorted at hmap ⊢
  induction map with
  | nil => simp [OrderedMap.insert]
  | cons entry map ih =>
    obtain ⟨k, v⟩ := entry
    rw [List.map_cons, List.pairwise_cons] at hmap
    unfold OrderedMap.insert
    split
    · rename_i hk
      subst hk
      exact List.pairwise_cons.mpr hmap
    · rename_i hk
      split
      · rename_i hlt
        refine List.pairwise_cons.mpr ⟨?_, List.pairwise_cons.mpr hmap⟩
        intro k' hk'
        rcases List.mem_cons.mp hk' with rfl | hk'
        · exact hlt
        · exact hlt.trans (hmap.1 k' hk')
      · rename_i hlt
        refine List.pairwise_cons.mpr ⟨?_, ih hmap.2⟩
        intro k' hk'
        rcases (mem_keys_insert value).mp hk' with rfl | hk'
        · exact lt_of_le_of_ne (not_lt.mp hlt) hk
        · exact hmap.1 k' hk'

theorem Sorted.remove {map : OrderedMap κ β} (hmap : Sorted map) : Sorted (remove map key) :=
  hmap.sublist (List.filter_sublist.map _)

/-- A key that is not there has no value. -/
theorem lookup_eq_none_of_not_mem {map : OrderedMap κ β} {key : κ} (hkey : key ∉ map.map Prod.fst) : map.lookup key = none := by
  rw [List.lookup_eq_none_iff]
  intro entry hentry
  have hne : key ≠ entry.1 := fun heq => hkey (heq ▸ List.mem_map_of_mem hentry)
  simpa using hne

theorem Sorted.lookup_of_mem {map : OrderedMap κ β} (hmap : Sorted map) {key : κ} {value : β} (hmem : (key, value) ∈ map) :
    map.lookup key = some value := by
  induction map with
  | nil => cases hmem
  | cons entry map ih =>
    obtain ⟨k, v⟩ := entry
    obtain ⟨hbelow, hrest⟩ := List.pairwise_cons.mp hmap
    rcases List.mem_cons.mp hmem with hhead | hmem
    · obtain ⟨rfl, rfl⟩ := Prod.mk.inj hhead
      simp
    · have hne : (key == k) = false := by simpa using (hbelow key (List.mem_map_of_mem hmem)).ne'
      simpa only [List.lookup_cons, hne] using ih hrest hmem

/-- Entries are kept by what they are, since no key is there twice. -/
theorem Sorted.lookup_filter {map : OrderedMap κ β} (hmap : Sorted map) (keep : κ × β → Bool) (key : κ) :
    (map.filter keep).lookup key = (map.lookup key).filter fun value => keep (key, value) := by
  induction map with
  | nil => rfl
  | cons entry map ih =>
    obtain ⟨k, v⟩ := entry
    obtain ⟨hbelow, hrest⟩ := List.pairwise_cons.mp hmap
    by_cases hk : key = k
    · subst hk
      have hgone : (map.filter keep).lookup key = none := by
        refine lookup_eq_none_of_not_mem fun hmem => ?_
        exact lt_irrefl key (hbelow key ((List.filter_sublist.map _).subset hmem))
      by_cases hkeep : keep (key, v)
      · simp [hkeep, Option.filter]
      · simp [hkeep, Option.filter, hgone]
    · have hbeq : (key == k) = false := by simpa using hk
      have htail := ih hrest
      by_cases hkeep : keep (k, v)
      · simp [hkeep, List.lookup_cons, hbeq, htail]
      · simp [hkeep, List.lookup_cons, hbeq, htail]

end OrderedMap

/-- A map whose entries are in key order. -/
structure SortedMap (κ β : Type) [LinearOrder κ] where
  entries : OrderedMap κ β := []
  sorted : OrderedMap.Sorted entries := by exact OrderedMap.Sorted.nil

namespace SortedMap

variable {κ β : Type} [LinearOrder κ] (map : SortedMap κ β)

def get (key : κ) : Option β := map.entries.lookup key

def len : Nat := map.entries.length

def insert (key : κ) (value : β) : SortedMap κ β := ⟨map.entries.insert key value, map.sorted.insert key value⟩

def remove (key : κ) : SortedMap κ β := ⟨map.entries.remove key, map.sorted.remove key⟩

def retain (keep : κ × β → Bool) : SortedMap κ β := ⟨map.entries.filter keep, map.sorted.sublist (List.filter_sublist.map _)⟩

variable (key other : κ) (value : β) (keep : κ × β → Bool)

@[simp] theorem get_insert : (map.insert key value).get other = if other = key then some value else map.get other :=
  OrderedMap.lookup_insert map.entries key other value

@[simp] theorem get_remove : (map.remove key).get other = if other = key then none else map.get other :=
  OrderedMap.lookup_remove map.entries key other

@[simp] theorem get_retain : (map.retain keep).get key = (map.get key).filter fun value => keep (key, value) :=
  map.sorted.lookup_filter keep key

section Counting

variable {map : SortedMap κ β} {key : κ} {value : β}

theorem mem_entries_iff : (key, value) ∈ map.entries ↔ map.get key = some value := by
  constructor
  · exact fun hmem => map.sorted.lookup_of_mem hmem
  · intro hget
    obtain ⟨before, after, hsplit, -⟩ := List.lookup_eq_some_iff.mp hget
    rw [hsplit]
    exact List.mem_append_right _ (.head _)

theorem nodup_entries (map : SortedMap κ β) : map.entries.Nodup := by
  have hkeys : (map.entries.map Prod.fst).Nodup := map.sorted.imp fun hlt => hlt.ne
  exact hkeys.of_map Prod.fst

theorem not_mem_remove : (key, value) ∉ (map.remove key).entries := by
  rw [mem_entries_iff, get_remove, if_pos rfl]
  exact (Option.some_ne_none value).symm

/-- An entry that is stored joins those under other keys. -/
theorem insert_perm (map : SortedMap κ β) (key : κ) (value : β) :
    (map.insert key value).entries.Perm ((key, value) :: (map.remove key).entries) := by
  have hnodup : ((key, value) :: (map.remove key).entries).Nodup :=
    List.nodup_cons.mpr ⟨not_mem_remove, (map.remove key).nodup_entries⟩
  refine (List.perm_ext_iff_of_nodup (map.insert key value).nodup_entries hnodup).mpr ?_
  rintro ⟨k, v⟩
  rw [List.mem_cons, mem_entries_iff, mem_entries_iff, get_insert, get_remove, Prod.mk.injEq]
  by_cases hk : k = key
  · simp [hk, eq_comm]
  · simp [hk]

theorem perm_of_get (hget : map.get key = some value) : map.entries.Perm ((key, value) :: (map.remove key).entries) := by
  have hnodup : ((key, value) :: (map.remove key).entries).Nodup :=
    List.nodup_cons.mpr ⟨not_mem_remove, (map.remove key).nodup_entries⟩
  refine (List.perm_ext_iff_of_nodup map.nodup_entries hnodup).mpr ?_
  rintro ⟨k, v⟩
  rw [List.mem_cons, mem_entries_iff, mem_entries_iff, get_remove, Prod.mk.injEq]
  by_cases hk : k = key
  · simp [hk, hget, eq_comm]
  · simp [hk]

theorem len_remove (hget : map.get key = some value) : (map.remove key).len + 1 = map.len :=
  (perm_of_get hget).length_eq.symm

theorem len_remove_le (map : SortedMap κ β) (key : κ) : (map.remove key).len ≤ map.len := List.length_filter_le ..

theorem len_insert (map : SortedMap κ β) (key : κ) (value : β) : (map.insert key value).len = (map.remove key).len + 1 :=
  (map.insert_perm key value).length_eq

theorem len_retain_le (map : SortedMap κ β) (keep : κ × β → Bool) : (map.retain keep).len ≤ map.len := List.length_filter_le ..

/-- What is kept of a map in which an entry that is kept was replaced. -/
theorem len_retain_insert_le {old : β} {keep : κ × β → Bool} (hget : map.get key = some old) (hkept : keep (key, old) = true) :
    ((map.insert key value).retain keep).len ≤ (map.retain keep).len := by
  have hinserted : ((map.insert key value).retain keep).len ≤ ((map.remove key).entries.filter keep).length + 1 := by
    refine ((map.insert_perm key value).filter keep).length_eq.le.trans ?_
    rw [List.filter_cons]
    split
    · exact Nat.le_refl _
    · exact Nat.le_succ _
  have hbefore : (map.retain keep).len = ((map.remove key).entries.filter keep).length + 1 := by
    refine ((perm_of_get hget).filter keep).length_eq.trans ?_
    rw [List.filter_cons, if_pos hkept, List.length_cons]
  exact hinserted.trans hbefore.ge

end Counting

end SortedMap

end refract.machine
