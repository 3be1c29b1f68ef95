import Mathlib.Data.List.Nodup
import Refract.Json.Value

namespace refract.json

/-- A member that may be missing. -/
def member (key : String) (value : Option Value) : Map := (value.map fun v => (key, v)).toList

theorem lookup_cons_ite {map : Map} {key other : String} {value : Value} :
    ((key, value) :: map).lookup other = if other = key then some value else map.lookup other := by
  rw [List.lookup_cons]
  by_cases hother : other = key
  · simp [hother]
  · have hbeq : (other == key) = false := by simpa using hother
    rw [hbeq, if_neg hother]

theorem lookup_member (key : String) (value : Option Value) (other : String) :
    (member key value).lookup other = if other = key then value else none := by
  cases value with
  | none => simp [member]
  | some v => exact lookup_cons_ite

theorem keys_member (key : String) (value : Option Value) : ((member key value).map Prod.fst).Sublist [key] := by
  cases value with
  | none => exact List.nil_sublist _
  | some value => exact List.Sublist.refl _

/-- Writing members leaves the fields alone that none of them is. -/
theorem lookup_foldl_insert {members : Map} {key : String} (h : members.lookup key = none) (out : Map) :
    (members.foldl (fun out (k, value) => Map.insert out k value) out).lookup key = out.lookup key := by
  induction members generalizing out with
  | nil => rfl
  | cons entry members ih =>
    obtain ⟨k, v⟩ := entry
    by_cases hk : key = k
    · subst hk
      simp at h
    · rw [lookup_cons_ite, if_neg hk] at h
      rw [List.foldl_cons, ih h]
      exact Map.get_insert_of_ne _ _ _ hk

/-- Members without repetition go before the fields that are there. -/
theorem lookup_foldl_insert_of_nodup {members : Map} (hkeys : (members.map Prod.fst).Nodup) (out : Map) (key : String) :
    (members.foldl (fun out (k, value) => Map.insert out k value) out).lookup key = (members.lookup key).or (out.lookup key) := by
  induction members generalizing out with
  | nil => rfl
  | cons entry members ih =>
    obtain ⟨k, v⟩ := entry
    obtain ⟨hfresh, hkeys⟩ := List.nodup_cons.mp hkeys
    rw [List.foldl_cons, ih hkeys, lookup_cons_ite]
    by_cases hkey : key = k
    · subst hkey
      have hnone : members.lookup key = none := by
        refine List.lookup_eq_none_iff.mpr fun entry hentry => ?_
        have hne : key ≠ entry.1 := fun heq => hfresh (List.mem_map.mpr ⟨entry, hentry, heq.symm⟩)
        simpa using hne
      rw [hnone, if_pos rfl, Map.get_insert_self]
      rfl
    · rw [if_neg hkey, Map.get_insert_of_ne _ _ _ hkey]

/-- Members without repetition that are written one after another stand in that order. -/
theorem foldl_insert_of_nodup {members : Map} (hkeys : (members.map Prod.fst).Nodup) :
    members.foldl (fun out (key, value) => Map.insert out key value) [] = members := by
  have hfresh : ∀ (out : Map) (key : String) (value : Value), key ∉ out.map Prod.fst → Map.insert out key value = out ++ [(key, value)] := by
    intro out key value hkey
    induction out with
    | nil => rfl
    | cons entry out ih =>
      obtain ⟨k, v⟩ := entry
      rw [List.map_cons, List.mem_cons, not_or] at hkey
      rw [Map.insert, if_neg fun heq => hkey.1 heq.symm, ih hkey.2]
      rfl
  have hfrom : ∀ out : Map, ((out ++ members).map Prod.fst).Nodup →
      members.foldl (fun out (key, value) => Map.insert out key value) out = out ++ members := by
    clear hkeys
    induction members with
    | nil => exact fun out _ => (List.append_nil out).symm
    | cons entry members ih =>
      intro out hkeys
      obtain ⟨key, value⟩ := entry
      have hout : key ∉ out.map Prod.fst := by
        rw [List.map_append, List.map_cons] at hkeys
        exact fun hmem => (List.nodup_append.mp hkeys).2.2 key hmem key List.mem_cons_self rfl
      have hnext := ih (out ++ [(key, value)]) (by rw [List.append_assoc]; exact hkeys)
      rw [← hfresh out key value hout] at hnext
      rw [List.foldl_cons]
      refine hnext.trans ?_
      rw [hfresh out key value hout, List.append_assoc]
      rfl
  exact hfrom [] hkeys

section Remove

variable {map : Map} (hkeys : (map.map Prod.fst).Nodup)

include hkeys

theorem lookup_eq_some_iff_mem {key : String} {value : Value} : map.lookup key = some value ↔ (key, value) ∈ map := by
  constructor
  · intro hlookup
    obtain ⟨before, after, rfl, -⟩ := List.lookup_eq_some_iff.mp hlookup
    simp
  · intro hmem
    induction map with
    | nil => cases hmem
    | cons entry map ih =>
      obtain ⟨k, v⟩ := entry
      obtain ⟨hfresh, hrest⟩ := List.nodup_cons.mp hkeys
      rcases List.mem_cons.mp hmem with heq | hmem
      · obtain ⟨rfl, rfl⟩ := Prod.mk.inj heq
        exact List.lookup_cons_self
      · have hne : key ≠ k := fun heq => hfresh (List.mem_map.mpr ⟨(key, value), hmem, heq⟩)
        have hbeq : (key == k) = false := by simpa using hne
        rw [List.lookup_cons, hbeq]
        exact ih hrest hmem

/-- The order of the members does not matter. -/
theorem lookup_eq_of_perm {other : Map} (hperm : map.Perm other) (key : String) : map.lookup key = other.lookup key := by
  have hother : (other.map Prod.fst).Nodup := (hperm.map Prod.fst).nodup_iff.mp hkeys
  refine Option.ext fun value => ?_
  rw [lookup_eq_some_iff_mem hkeys, lookup_eq_some_iff_mem hother, hperm.mem_iff]

/-- What is left after a removal is in another order. -/
theorem swap_remove_perm (key : String) : (Map.swap_remove map key).Perm (map.filter fun entry => entry.1 ≠ key) := by
  rcases List.eq_nil_or_concat map with rfl | ⟨init, last, rfl⟩
  · exact .refl _
  · rw [List.concat_eq_append] at hkeys ⊢
    obtain ⟨hinit, -, hdisjoint⟩ := List.nodup_append.mp (by simpa using hkeys)
    have hlast : ∀ entry ∈ init, entry.1 ≠ last.1 := fun entry hentry =>
      hdisjoint entry.1 (List.mem_map.mpr ⟨entry, hentry, rfl⟩) last.1 (by simp)
    rw [Map.swap_remove, List.getLast?_concat]
    dsimp only
    by_cases hkey : last.1 = key
    · have hkeep : init.filter (fun entry => entry.1 ≠ key) = init := by
        rw [List.filter_eq_self]
        intro entry hentry
        simpa [hkey] using hlast entry hentry
      rw [if_pos hkey, List.dropLast_concat, List.filter_append, hkeep]
      simp [hkey]
    · rw [if_neg hkey, List.filter_append, List.filter_cons_of_pos (by simpa using hkey), List.filter_nil]
      split
      next hsome =>
        obtain ⟨value, hvalue⟩ := Option.isSome_iff_exists.mp hsome
        have hmem : (key, value) ∈ init := by
          rcases List.mem_append.mp ((lookup_eq_some_iff_mem hkeys).mp hvalue) with hmem | hmem
          · exact hmem
          · exact absurd (congrArg Prod.fst (List.mem_singleton.mp hmem)).symm hkey
        obtain ⟨before, after, rfl⟩ := List.append_of_mem hmem
        have hother : ∀ entry ∈ before ++ after, entry.1 ≠ key := by
          rw [List.map_append, List.map_cons, List.nodup_middle, List.nodup_cons] at hinit
          exact fun entry hentry heq => hinit.1 (by
            rw [← List.map_append]
            exact List.mem_map.mpr ⟨entry, hentry, heq⟩)
        have hbefore : ∀ entry ∈ before, entry.1 ≠ key := fun entry hentry => hother entry (List.mem_append_left _ hentry)
        have hafter : ∀ entry ∈ after, entry.1 ≠ key := fun entry hentry => hother entry (List.mem_append_right _ hentry)
        have hmoved : ((before ++ (key, value) :: after).map fun entry => if entry.1 = key then last else entry) =
            before ++ last :: after := by
          rw [List.map_append, List.map_cons, if_pos rfl, List.map_congr_left fun entry hentry => if_neg (hbefore entry hentry),
            List.map_congr_left fun entry hentry => if_neg (hafter entry hentry), List.map_id', List.map_id']
        have hkept : (before ++ (key, value) :: after).filter (fun entry => entry.1 ≠ key) = before ++ after := by
          rw [List.filter_append, List.filter_cons_of_neg (by simp), ← List.filter_append, List.filter_eq_self]
          exact fun entry hentry => by simpa using hother entry hentry
        rw [List.dropLast_concat, hmoved, hkept]
        exact List.perm_middle.trans (List.perm_append_singleton last (before ++ after)).symm
      next hnone =>
        have habsent : ∀ entry ∈ init, entry.1 ≠ key := by
          intro entry hentry heq
          refine hnone ?_
          have hlookup := (lookup_eq_some_iff_mem hkeys).mpr
            (show (key, entry.2) ∈ init ++ [last] by rw [← heq]; exact List.mem_append_left [last] hentry)
          rw [Map.get, hlookup]
          rfl
        rw [List.filter_eq_self.mpr fun entry hentry => by simpa using habsent entry hentry]

theorem lookup_swap_remove (key other : String) :
    (Map.swap_remove map key).lookup other = if other = key then none else map.lookup other := by
  have hfiltered : (map.filter fun entry => entry.1 ≠ key).Sublist map := List.filter_sublist
  have hnodup := (hfiltered.map Prod.fst).nodup hkeys
  rw [lookup_eq_of_perm (((swap_remove_perm hkeys key).map Prod.fst).nodup_iff.mpr hnodup) (swap_remove_perm hkeys key)]
  refine Option.ext fun value => ?_
  rw [lookup_eq_some_iff_mem hnodup, List.mem_filter]
  by_cases hother : other = key
  · simp [hother]
  · rw [if_neg hother, lookup_eq_some_iff_mem hkeys]
    simp [hother]

theorem keys_swap_remove_nodup (key : String) : ((Map.swap_remove map key).map Prod.fst).Nodup := by
  have hfiltered : (map.filter fun entry => entry.1 ≠ key).Sublist map := List.filter_sublist
  exact ((swap_remove_perm hkeys key).map Prod.fst).nodup_iff.mpr ((hfiltered.map Prod.fst).nodup hkeys)

theorem keys_insert_nodup (key : String) (value : Value) : ((Map.insert map key value).map Prod.fst).Nodup := by
  rw [Map.keys_insert]
  split
  · exact hkeys
  next hfresh => exact List.nodup_append.mpr ⟨hkeys, List.nodup_singleton key, by grind⟩

end Remove

end refract.json
