import Refract.Json.Parse

namespace refract.json

theorem Map.wellFormed_foldl_insert {entries : List (String × Value)} (hentries : ∀ e ∈ entries, e.2.WellFormed)
    {acc : Map} (hacc : (Value.object acc).WellFormed) :
    (Value.object (entries.foldl (fun map entry => Map.insert map entry.1 entry.2) acc)).WellFormed := by
  induction entries generalizing acc with
  | nil => exact hacc
  | cons e entries ih =>
    rw [List.foldl_cons]
    apply ih fun e he => hentries e (List.mem_cons_of_mem _ he)
    exact Value.wellFormed_object_insert hacc (hentries e List.mem_cons_self)

theorem readWord_eq {word : List Char} {v w : Value} {cs rest : List Char}
    (h : readWord word v cs = some (w, rest)) : w = v := by
  unfold readWord at h
  split at h
  · simp only [Option.some.injEq, Prod.mk.injEq] at h
    exact h.1.symm
  · cases h

/-- Whatever is read within a bound of fuel is well-formed. -/
theorem read_wellFormed_of_fuel (fuel : Nat) :
    (∀ cs v rest, readValue fuel cs = some (v, rest) → v.WellFormed) ∧
      (∀ cs items rest, readItems fuel cs = some (items, rest) → ∀ v ∈ items, v.WellFormed) ∧
      (∀ cs entry rest, readMember fuel cs = some (entry, rest) → entry.2.WellFormed) ∧
      (∀ cs map rest, readMembers fuel cs = some (map, rest) → ∀ e ∈ map, e.2.WellFormed) := by
  induction fuel with
  | zero => simp [readValue, readItems, readMember, readMembers]
  | succ fuel ih =>
    obtain ⟨hvalue, hitems, hmember, hmembers⟩ := ih
    refine ⟨?_, ?_, ?_, ?_⟩
    · intro cs v rest h
      unfold readValue at h
      split at h
      · cases h
      · split at h
        · rw [readWord_eq h]
          exact .null
        split at h
        · rw [readWord_eq h]
          exact .bool true
        split at h
        · rw [readWord_eq h]
          exact .bool false
        split at h
        · simp only [Option.map_eq_some_iff, Prod.mk.injEq] at h
          obtain ⟨_, _, rfl, _⟩ := h
          exact .string _
        split at h
        · split at h
          · simp only [Option.some.injEq, Prod.mk.injEq] at h
            rw [← h.1]
            simp
          · simp only [Option.bind_eq_bind, Option.bind_eq_some_iff, Option.some.injEq, Prod.mk.injEq, Prod.exists] at h
            obtain ⟨first, _, hfirst, items, _, hrest, rfl, _⟩ := h
            rw [Value.wellFormed_array, List.forall_mem_cons]
            exact ⟨hvalue _ _ _ hfirst, hitems _ _ _ hrest⟩
        split at h
        · split at h
          · simp only [Option.some.injEq, Prod.mk.injEq] at h
            rw [← h.1]
            simp
          · simp only [Option.bind_eq_bind, Option.bind_eq_some_iff, Option.some.injEq, Prod.mk.injEq] at h
            obtain ⟨⟨entry, rest'⟩, hentry, ⟨map, rest''⟩, hmap, rfl, _⟩ := h
            apply Map.wellFormed_foldl_insert
            · rw [List.forall_mem_cons]
              exact ⟨hmember _ _ _ hentry, hmembers _ _ _ hmap⟩
            · simp
        · simp only [Option.map_eq_some_iff, Prod.mk.injEq] at h
          obtain ⟨_, _, rfl, _⟩ := h
          exact .number _
    · intro cs items rest h
      unfold readItems at h
      split at h
      · simp only [Option.bind_eq_bind, Option.bind_eq_some_iff, Option.some.injEq, Prod.mk.injEq, Prod.exists] at h
        obtain ⟨v, _, hv, items', _, hrest, rfl, _⟩ := h
        rw [List.forall_mem_cons]
        exact ⟨hvalue _ _ _ hv, hitems _ _ _ hrest⟩
      · simp only [Option.some.injEq, Prod.mk.injEq] at h
        rw [← h.1]
        simp
      · cases h
    · intro cs entry rest h
      unfold readMember at h
      split at h
      · simp only [Option.bind_eq_bind, Option.bind_eq_some_iff, Prod.exists] at h
        obtain ⟨key, rest', _, h⟩ := h
        split at h
        · simp only [Option.bind_eq_some_iff, Option.some.injEq, Prod.mk.injEq, Prod.exists] at h
          obtain ⟨v, _, hv, rfl, _⟩ := h
          exact hvalue _ _ _ hv
        · cases h
      · cases h
    · intro cs map rest h
      unfold readMembers at h
      split at h
      · simp only [Option.bind_eq_bind, Option.bind_eq_some_iff, Option.some.injEq, Prod.mk.injEq] at h
        obtain ⟨⟨entry, rest'⟩, hentry, ⟨map', rest''⟩, hrest, rfl, _⟩ := h
        rw [List.forall_mem_cons]
        exact ⟨hmember _ _ _ hentry, hmembers _ _ _ hrest⟩
      · simp only [Option.some.injEq, Prod.mk.injEq] at h
        rw [← h.1]
        simp
      · cases h

/-- Every document that is read is well-formed. -/
theorem read_wellFormed {cs : List Char} {v : Value} (h : read cs = some v) : v.WellFormed := by
  unfold read at h
  split at h
  · rename_i w rest hread
    split at h
    · rw [← Option.some.inj h]
      exact (read_wellFormed_of_fuel _).1 _ _ _ hread
    · cases h
  · cases h

end refract.json
