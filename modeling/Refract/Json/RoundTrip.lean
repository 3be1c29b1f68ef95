import Refract.Json.WellFormed

namespace refract.json

theorem isDigit_digitChar {d : Nat} (hd : d < 10) : isDigit (Nat.digitChar d) = true := by
  have hall : ∀ d < 10, isDigit (Nat.digitChar d) = true := by decide
  exact hall d hd

theorem toNat_digitChar {d : Nat} (hd : d < 10) : (Nat.digitChar d).toNat - 48 = d := by
  have hall : ∀ d < 10, (Nat.digitChar d).toNat - 48 = d := by decide
  exact hall d hd

theorem digits_isDigit (n : Nat) : ∀ c ∈ digits n, isDigit c = true := by
  induction n using Nat.strong_induction_on with
  | h n ih =>
    intro c hc
    rw [digits] at hc
    split at hc
    · rename_i hn
      rw [List.mem_singleton] at hc
      exact hc ▸ isDigit_digitChar hn
    · rcases List.mem_append.mp hc with hc | hc
      · exact ih (n / 10) (by omega) c hc
      · rw [List.mem_singleton] at hc
        exact hc ▸ isDigit_digitChar (Nat.mod_lt n (by omega))

theorem digits_ne_nil (n : Nat) : digits n ≠ [] := by
  rw [digits]
  split <;> simp

theorem ofDigits_digits (n : Nat) : ofDigits (digits n) = n := by
  induction n using Nat.strong_induction_on with
  | h n ih =>
    rw [digits]
    split
    · rename_i hn
      simp [ofDigits, toNat_digitChar hn]
    · have hrec := ih (n / 10) (by omega)
      have hlast := toNat_digitChar (Nat.mod_lt n (by omega : 0 < 10))
      simp only [ofDigits, List.foldl_append, List.foldl_cons, List.foldl_nil] at hrec ⊢
      rw [hrec, hlast]
      omega

/-- A decimal numeral of more than one digit does not start with zero. -/
theorem digits_head_ne_zero (n : Nat) (hlen : 1 < (digits n).length) : (digits n).head? ≠ some '0' := by
  induction n using Nat.strong_induction_on with
  | h n ih =>
    rw [digits] at hlen ⊢
    split at hlen
    · simp at hlen
    · rename_i hn
      rw [if_neg hn, List.head?_append_of_ne_nil _ (digits_ne_nil _)]
      by_cases hmore : 1 < (digits (n / 10)).length
      · exact ih (n / 10) (by omega) hmore
      · have hsmall : n / 10 < 10 := by
          by_contra hbig
          apply hmore
          rw [digits, if_neg hbig, List.length_append, List.length_singleton]
          have := List.length_pos_of_ne_nil (digits_ne_nil (n / 10 / 10))
          omega
        rw [digits, if_pos hsmall, List.head?_cons]
        have hall : ∀ d < 10, 0 < d → some (Nat.digitChar d) ≠ some '0' := by decide
        exact hall (n / 10) hsmall (by omega)

/-- Text after a number that cannot be read as part of it. -/
def Boundary (rest : List Char) : Prop :=
  ∀ c, rest.head? = some c → isDigit c = false ∧ c ≠ '.' ∧ c ≠ 'e' ∧ c ≠ 'E'

theorem boundary_nil : Boundary [] := by
  intro c hc
  cases hc

theorem boundary_cons {c : Char} {rest : List Char}
    (hc : isDigit c = false ∧ c ≠ '.' ∧ c ≠ 'e' ∧ c ≠ 'E') : Boundary (c :: rest) := by
  intro c' hc'
  cases hc'
  exact hc

theorem spanDigits_append {ds rest : List Char} (hds : ∀ c ∈ ds, isDigit c = true)
    (hrest : ∀ c, rest.head? = some c → isDigit c = false) : spanDigits (ds ++ rest) = (ds, rest) := by
  induction ds with
  | nil =>
    cases rest with
    | nil => rfl
    | cons c rest => simp [spanDigits, hrest c rfl]
  | cons d ds ih =>
    have htail := ih (fun c hc => hds c (List.mem_cons_of_mem _ hc))
    simp [spanDigits, hds d List.mem_cons_self, htail]

theorem readDigits_digits (n : Nat) {rest : List Char}
    (hrest : ∀ c, rest.head? = some c → isDigit c = false) :
    readDigits (digits n ++ rest) = some (digits n, rest) := by
  rw [readDigits, spanDigits_append (digits_isDigit n) hrest]
  cases hds : digits n with
  | nil => exact absurd hds (digits_ne_nil n)
  | cons d ds => rfl

theorem readSign_digits (n : Nat) (rest : List Char) :
    readSign (digits n ++ rest) = (false, digits n ++ rest) := by
  cases hds : digits n with
  | nil => exact absurd hds (digits_ne_nil n)
  | cons d ds =>
    have hd := digits_isDigit n d (by rw [hds]; exact List.mem_cons_self)
    have hne : d ≠ '-' := by
      rintro rfl
      exact absurd hd (by decide)
    rw [List.cons_append, readSign]
    intro cs heq
    exact hne (List.cons.inj heq).1

/-- The sign of an integer and its absolute value, as the reader splits them. -/
theorem readSign_printInt (i : Int) (rest : List Char) :
    readSign (printInt i ++ rest) = (decide (i < 0), digits i.natAbs ++ rest) := by
  cases i with
  | ofNat n =>
    have hneg : ¬ (Int.ofNat n < 0) := by simp
    simp only [printInt, readSign_digits, hneg, decide_false]
    rfl
  | negSucc n =>
    have hneg : Int.negSucc n < 0 := Int.negSucc_lt_zero n
    simp only [printInt, List.cons_append, readSign, hneg, decide_true]
    rfl

theorem signed_natAbs (i : Int) :
    (if decide (i < 0) = true then -(i.natAbs : Int) else (i.natAbs : Int)) = i := by
  by_cases hneg : i < 0
  · simp only [hneg, decide_true, if_true]
    omega
  · simp only [hneg, decide_false, Bool.false_eq_true, if_false]
    omega

theorem readExponent_boundary {rest : List Char} (hrest : Boundary rest) :
    readExponent rest = some (none, rest) := by
  cases rest with
  | nil => rfl
  | cons c rest =>
    obtain ⟨_, _, he, hE⟩ := hrest c rfl
    simp [readExponent, he, hE]

theorem readFraction_of_ne {rest : List Char} (hrest : rest.head? ≠ some '.') :
    readFraction rest = some ([], rest) := by
  cases rest with
  | nil => rfl
  | cons c rest =>
    rw [readFraction]
    intro cs heq
    exact hrest (by rw [heq, List.head?_cons])

/-- A written number is read back, whatever follows it, as long as the rest
    cannot be read as part of the literal. -/
theorem readNumber_print (n : Number) {rest : List Char} (hrest : Boundary rest) :
    readNumber (n.print ++ rest) = some (n, rest) := by
  have hdigit : ∀ c, rest.head? = some c → isDigit c = false := fun c hc => (hrest c hc).1
  have hleading (i : Int) : ¬ ((digits i.natAbs).head? = some '0' ∧ 1 < (digits i.natAbs).length) :=
    fun h => digits_head_ne_zero _ h.2 h.1
  cases n with
  | int i =>
    have hdot : rest.head? ≠ some '.' := fun h => (hrest _ h).2.1 rfl
    simp only [Number.print, readNumber, readSign_printInt, readDigits_digits _ hdigit,
      Option.bind_eq_bind, Option.bind_some, if_neg (hleading i), readFraction_of_ne hdot,
      readExponent_boundary hrest, ofDigits_digits, signed_natAbs]
  | float mantissa exponent =>
    have hstop : ∀ c, ('e' :: (printInt exponent ++ rest)).head? = some c → isDigit c = false := by
      intro c hc
      cases hc
      rfl
    have hplus : (printInt exponent ++ rest).head? ≠ some '+' := by
      intro h
      cases exponent with
      | negSucc e => exact absurd h (by simp [printInt])
      | ofNat e =>
        simp only [printInt] at h
        rw [List.head?_append_of_ne_nil _ (digits_ne_nil e)] at h
        have := digits_isDigit e '+' (List.mem_of_mem_head? h)
        exact absurd this (by decide)
    have hexp : readExponent ('e' :: (printInt exponent ++ rest)) = some (some exponent, rest) := by
      simp only [readExponent, true_or, if_true, if_neg hplus, readSign_printInt,
        readDigits_digits _ hdigit, Option.map_some, ofDigits_digits, signed_natAbs]
    have hfrac : readFraction ('e' :: (printInt exponent ++ rest)) =
        some ([], 'e' :: (printInt exponent ++ rest)) := readFraction_of_ne (by simp)
    simp only [Number.print, readNumber, List.append_assoc, List.cons_append, readSign_printInt,
      readDigits_digits _ hstop, Option.bind_eq_bind, Option.bind_some, if_neg (hleading mantissa), hfrac, hexp]
    rw [List.append_nil, ofDigits_digits, signed_natAbs, Option.getD_some, List.length_nil, Int.natCast_zero,
      Int.sub_zero]

theorem readHex_control {n : Nat} (hn : n < 32) :
    readHex '0' '0' (hexDigit (n / 16)) (hexDigit (n % 16)) = some n := by
  have hall : ∀ n < 32, readHex '0' '0' (hexDigit (n / 16)) (hexDigit (n % 16)) = some n := by decide
  exact hall n hn

theorem readString_escape (c : Char) (rest : List Char) :
    readString none (escape c ++ rest) = (readString none rest).map fun (cs, rest) => (c :: cs, rest) := by
  unfold escape
  split
  · rename_i hc
    subst hc
    rw [List.cons_append, readString.eq_def]
    simp [unescape]
  split
  · rename_i hc
    subst hc
    rw [List.cons_append, readString.eq_def]
    simp [unescape]
  split
  · rename_i hc
    have hhigh : isHighSurrogate c.toNat = false := by simp [isHighSurrogate]; omega
    have hlow : isLowSurrogate c.toNat = false := by simp [isLowSurrogate]; omega
    rw [List.cons_append, readString.eq_def]
    simp [readHex_control hc, hhigh, hlow, Char.ofNat_toNat]
  · rename_i hquote hback hcontrol
    rw [List.cons_append, readString.eq_def]
    simp [hquote, hback, hcontrol]

theorem readString_flatMap (cs rest : List Char) :
    readString none (cs.flatMap escape ++ '"' :: rest) = some (cs, rest) := by
  induction cs with
  | nil =>
    rw [List.flatMap_nil, List.nil_append, readString.eq_def]
    simp
  | cons c cs ih => simp only [List.flatMap_cons, List.append_assoc, readString_escape, ih, Option.map_some]

/-- The characters a written document can start with. -/
def Opening (c : Char) : Prop := isDigit c = true ∨ c ∈ ['n', 't', 'f', '"', '[', '{', '-']

instance decidableOpening (c : Char) : Decidable (Opening c) := inferInstanceAs (Decidable (_ ∨ _))

theorem Opening.skipSpace {c : Char} (hc : Opening c) (cs : List Char) : skipSpace (c :: cs) = c :: cs := by
  have hspace : ¬ (c = ' ' ∨ c = '\n' ∨ c = '\r' ∨ c = '\t') := by
    rintro (rfl | rfl | rfl | rfl) <;> revert hc <;> decide
  rw [json.skipSpace, if_neg hspace]

theorem printInt_opening (i : Int) : ∃ c cs, printInt i = c :: cs ∧ (isDigit c = true ∨ c = '-') := by
  cases i with
  | ofNat n =>
    cases hds : digits n with
    | nil => exact absurd hds (digits_ne_nil n)
    | cons d ds => exact ⟨d, ds, hds, .inl (digits_isDigit n d (by rw [hds]; exact List.mem_cons_self))⟩
  | negSucc n => exact ⟨'-', _, rfl, .inr rfl⟩

theorem Number.print_opening (n : Number) : ∃ c cs, n.print = c :: cs ∧ (isDigit c = true ∨ c = '-') := by
  cases n with
  | int i => exact printInt_opening i
  | float mantissa exponent =>
    obtain ⟨c, cs, hcs, hc⟩ := printInt_opening mantissa
    exact ⟨c, cs ++ 'e' :: printInt exponent, by rw [Number.print, hcs, List.cons_append], hc⟩

theorem Value.print_opening (v : Value) : ∃ c cs, v.print = c :: cs ∧ Opening c := by
  match v with
  | .null => exact ⟨'n', _, rfl, by decide⟩
  | .bool true => exact ⟨'t', _, rfl, by decide⟩
  | .bool false => exact ⟨'f', _, rfl, by decide⟩
  | .string s => exact ⟨'"', _, rfl, by decide⟩
  | .array [] => exact ⟨'[', _, rfl, by decide⟩
  | .array (_ :: _) => exact ⟨'[', _, by rw [Value.print]; rfl, by decide⟩
  | .object [] => exact ⟨'{', _, rfl, by decide⟩
  | .object ((_, _) :: _) => exact ⟨'{', _, by rw [Value.print]; rfl, by decide⟩
  | .number n =>
    obtain ⟨c, cs, hcs, hc⟩ := n.print_opening
    exact ⟨c, cs, by rw [Value.print, hcs], hc.imp_right fun h => by simp [h]⟩

theorem Value.skipSpace_print (v : Value) (rest : List Char) : skipSpace (v.print ++ rest) = v.print ++ rest := by
  obtain ⟨c, cs, hcs, hc⟩ := v.print_opening
  rw [hcs, List.cons_append, hc.skipSpace]

theorem boundary_printItems (items : List Value) (rest : List Char) : Boundary (printItems items ++ rest) := by
  cases items <;> simp only [printItems, List.cons_append] <;> exact boundary_cons (by decide)

theorem boundary_printMembers (map : List (String × Value)) (rest : List Char) :
    Boundary (printMembers map ++ rest) := by
  cases map <;> simp only [printMembers, List.cons_append] <;> exact boundary_cons (by decide)

theorem Map.insert_of_absent {map : Map} {key : String} {value : Value} (habsent : key ∉ map.map Prod.fst) :
    Map.insert map key value = map ++ [(key, value)] := by
  induction map with
  | nil => rfl
  | cons entry map ih =>
    obtain ⟨k, v⟩ := entry
    simp only [List.map_cons, List.mem_cons, not_or] at habsent
    simp [Map.insert, Ne.symm habsent.1, ih habsent.2]

/-- Collecting members without repeated keys keeps them in order. -/
theorem Map.foldl_insert {map acc : Map} (hkeys : ((acc ++ map).map Prod.fst).Nodup) :
    map.foldl (fun map entry => Map.insert map entry.1 entry.2) acc = acc ++ map := by
  induction map generalizing acc with
  | nil => simp
  | cons entry map ih =>
    obtain ⟨k, v⟩ := entry
    have habsent : k ∉ acc.map Prod.fst := by
      intro hmem
      rw [List.map_append, List.map_cons, List.nodup_append] at hkeys
      exact hkeys.2.2 k hmem k List.mem_cons_self rfl
    rw [List.foldl_cons, Map.insert_of_absent habsent, ih (by simpa using hkeys)]
    simp

/-- Once its value is read, so is a written member. -/
theorem readMember_print {fuel : Nat} (key : String) {v : Value} {cs rest : List Char}
    (hvalue : readValue fuel cs = some (v, rest)) :
    readMember (fuel + 1) (printString key ++ ':' :: cs) = some ((key, v), rest) := by
  simp [readMember, printString, skipSpace, readString_flatMap, String.ofList_toList, hvalue]

@[simp] theorem printString_head (key : String) : (printString key).head? = some '"' := rfl

theorem skipSpace_printString (key : String) (rest : List Char) :
    skipSpace (printString key ++ rest) = printString key ++ rest := by
  simp [printString, skipSpace]

mutual

/-- Reading a written document returns it and leaves the rest of the text. -/
theorem readValue_print : ∀ (v : Value) (fuel : Nat) (rest : List Char), v.WellFormed →
    2 * v.size ≤ fuel → Boundary rest → readValue fuel (v.print ++ rest) = some (v, rest)
  | .null, fuel + 1, rest, _, _, _ => by
    simp [Value.print, readValue, skipSpace, readWord]
  | .bool true, fuel + 1, rest, _, _, _ => by
    simp [Value.print, readValue, skipSpace, readWord]
  | .bool false, fuel + 1, rest, _, _, _ => by
    simp [Value.print, readValue, skipSpace, readWord]
  | .number n, fuel + 1, rest, _, _, hrest => by
    obtain ⟨c, cs, hcs, hc⟩ := n.print_opening
    have hne : c ≠ 'n' ∧ c ≠ 't' ∧ c ≠ 'f' ∧ c ≠ '"' ∧ c ≠ '[' ∧ c ≠ '{' := by
      refine ⟨?_, ?_, ?_, ?_, ?_, ?_⟩ <;> rintro rfl <;> revert hc <;> decide
    have hread := readNumber_print n hrest
    have hspace := Value.skipSpace_print (.number n) rest
    simp only [Value.print, hcs, List.cons_append] at hread hspace ⊢
    simp only [readValue, hspace, hne, if_false, hread, Option.map_some]
  | .string s, fuel + 1, rest, _, _, _ => by
    simp [Value.print, printString, readValue, skipSpace, readString_flatMap, String.ofList_toList]
  | .array [], fuel + 1, rest, _, _, _ => by
    simp [Value.print, readValue, skipSpace]
  | .array (v :: items), fuel + 1, rest, hv, hfuel, _ => by
    rw [Value.wellFormed_array] at hv
    simp only [Value.size] at hfuel
    have hfirst := readValue_print v fuel (printItems items ++ rest) (hv v List.mem_cons_self)
      (by omega) (boundary_printItems items rest)
    have htail := readItems_print items fuel rest (fun w hw => hv w (List.mem_cons_of_mem _ hw)) (by omega)
    obtain ⟨c, cs, hcs, hc⟩ := v.print_opening
    have hclose : ¬ (skipSpace (v.print ++ (printItems items ++ rest))).head? = some ']' := by
      rw [Value.skipSpace_print, hcs, List.cons_append, List.head?_cons]
      rintro ⟨⟩
      revert hc
      decide
    simp only [Value.print, List.cons_append, List.append_assoc, readValue, skipSpace]
    simp [hclose, hfirst, htail]
  | .object [], fuel + 1, rest, _, _, _ => by
    simp [Value.print, readValue, skipSpace]
  | .object ((key, v) :: map), fuel + 1, rest, hv, hfuel, _ => by
    rw [Value.wellFormed_object] at hv
    simp only [Value.size] at hfuel
    obtain ⟨fuel, rfl⟩ : ∃ n, fuel = n + 1 := ⟨fuel - 1, by omega⟩
    have hfirst := readValue_print v fuel (printMembers map ++ rest) (hv.2 _ List.mem_cons_self)
      (by omega) (boundary_printMembers map rest)
    have htail := readMembers_print map (fuel + 1) rest (fun e he => hv.2 e (List.mem_cons_of_mem _ he)) (by omega)
    have hmember := readMember_print key hfirst
    have hcollect : map.foldl (fun map entry => Map.insert map entry.1 entry.2) (Map.insert [] key v) =
        (key, v) :: map := @Map.foldl_insert ((key, v) :: map) [] hv.1
    simp only [Value.print, List.cons_append, List.append_assoc, readValue, skipSpace]
    simp [skipSpace_printString, hmember, htail, hcollect]
  | v, 0, _, _, hfuel, _ => by
    have hpos : 0 < v.size := by
      unfold Value.size
      split <;> omega
    omega

theorem readItems_print : ∀ (items : List Value) (fuel : Nat) (rest : List Char),
    (∀ v ∈ items, v.WellFormed) → 2 * sizeItems items ≤ fuel →
    readItems fuel (printItems items ++ rest) = some (items, rest)
  | [], fuel + 1, rest, _, _ => by simp [printItems, readItems, skipSpace]
  | v :: items, fuel + 1, rest, hv, hfuel => by
    simp only [sizeItems] at hfuel
    have hfirst := readValue_print v fuel (printItems items ++ rest) (hv v List.mem_cons_self)
      (by omega) (boundary_printItems items rest)
    have htail := readItems_print items fuel rest (fun w hw => hv w (List.mem_cons_of_mem _ hw)) (by omega)
    simp only [printItems, List.cons_append, List.append_assoc, readItems, skipSpace]
    simp [hfirst, htail]
  | items, 0, _, _, hfuel => by
    cases items <;> simp only [sizeItems] at hfuel <;> omega

theorem readMembers_print : ∀ (map : List (String × Value)) (fuel : Nat) (rest : List Char),
    (∀ entry ∈ map, entry.2.WellFormed) → 2 * sizeMembers map ≤ fuel →
    readMembers fuel (printMembers map ++ rest) = some (map, rest)
  | [], fuel + 1, rest, _, _ => by simp [printMembers, readMembers, skipSpace]
  | (key, v) :: map, fuel + 1, rest, hv, hfuel => by
    simp only [sizeMembers] at hfuel
    obtain ⟨fuel, rfl⟩ : ∃ n, fuel = n + 1 := ⟨fuel - 1, by omega⟩
    have hfirst := readValue_print v fuel (printMembers map ++ rest) (hv _ List.mem_cons_self)
      (by omega) (boundary_printMembers map rest)
    have htail := readMembers_print map (fuel + 1) rest (fun e he => hv e (List.mem_cons_of_mem _ he)) (by omega)
    have hmember := readMember_print key hfirst
    rw [readMembers]
    simp only [printMembers, List.cons_append, List.append_assoc, skipSpace]
    simp [hmember, htail]
  | map, 0, _, _, hfuel => by
    cases map <;> simp only [sizeMembers] at hfuel <;> omega

end

theorem Number.print_length_pos (n : Number) : 0 < n.print.length := by
  obtain ⟨c, cs, hcs, _⟩ := n.print_opening
  rw [hcs]
  simp

mutual

/-- The text of a document is at least as long as the reader's fuel bound. -/
theorem Value.size_le_print : ∀ v : Value, v.size ≤ v.print.length
  | .null => by simp [Value.size, Value.print]
  | .bool true => by simp [Value.size, Value.print]
  | .bool false => by simp [Value.size, Value.print]
  | .number n => by
    have := n.print_length_pos
    simp only [Value.size, Value.print]
    omega
  | .string s => by simp [Value.size, Value.print, printString]
  | .array [] => by simp [Value.size, Value.print]
  | .array (v :: items) => by
    have hv := Value.size_le_print v
    have hitems := sizeItems_le_print items
    simp only [Value.size, Value.print, List.length_cons, List.length_append]
    omega
  | .object [] => by simp [Value.size, Value.print]
  | .object ((key, v) :: map) => by
    have hv := Value.size_le_print v
    have hmap := sizeMembers_le_print map
    simp only [Value.size, Value.print, List.length_cons, List.length_append]
    omega

theorem sizeItems_le_print : ∀ items : List Value, sizeItems items ≤ (printItems items).length
  | [] => by simp [sizeItems, printItems]
  | v :: items => by
    have hv := Value.size_le_print v
    have hitems := sizeItems_le_print items
    simp only [sizeItems, printItems, List.length_cons, List.length_append]
    omega

theorem sizeMembers_le_print : ∀ map : List (String × Value), sizeMembers map ≤ (printMembers map).length
  | [] => by simp [sizeMembers, printMembers]
  | (key, v) :: map => by
    have hv := Value.size_le_print v
    have hmap := sizeMembers_le_print map
    simp only [sizeMembers, printMembers, List.length_cons, List.length_append]
    omega

end

theorem isDigit_not_whitespace {c : Char} (hc : isDigit c = true) : is_whitespace c = false := by
  simp only [isDigit, Bool.and_eq_true, decide_eq_true_eq] at hc
  simp only [is_whitespace, Bool.or_eq_false_iff, Bool.and_eq_false_iff, decide_eq_false_iff_not, beq_eq_false_iff_ne]
  omega

theorem Opening.not_whitespace {c : Char} (hc : Opening c) : is_whitespace c = false := by
  rcases hc with hc | hc
  · exact isDigit_not_whitespace hc
  · simp only [List.mem_cons, List.not_mem_nil, or_false] at hc
    rcases hc with rfl | rfl | rfl | rfl | rfl | rfl | rfl <;> decide

theorem digits_getLast (n : Nat) : ∀ c, (digits n).getLast? = some c → is_whitespace c = false := by
  intro c hc
  exact isDigit_not_whitespace (digits_isDigit n c (List.mem_of_getLast? hc))

theorem printInt_getLast (i : Int) : ∀ c, (printInt i).getLast? = some c → is_whitespace c = false := by
  cases i with
  | ofNat n => exact digits_getLast n
  | negSucc n =>
    intro c hc
    rw [printInt, List.getLast?_cons_of_ne_nil (digits_ne_nil _)] at hc
    exact digits_getLast _ c hc

theorem printItems_getLast (items : List Value) : (printItems items).getLast? = some ']' := by
  induction items with
  | nil => rfl
  | cons v items ih => simp [printItems, List.getLast?_cons, List.getLast?_append, ih]

theorem printMembers_getLast (map : List (String × Value)) : (printMembers map).getLast? = some '}' := by
  induction map with
  | nil => rfl
  | cons entry map ih => simp [printMembers, List.getLast?_cons, List.getLast?_append, ih]

theorem printInt_ne_nil (i : Int) : printInt i ≠ [] := by
  obtain ⟨c, cs, hcs, _⟩ := printInt_opening i
  simp [hcs]

theorem Value.print_getLast (v : Value) : ∀ c, v.print.getLast? = some c → is_whitespace c = false := by
  intro c hc
  match v with
  | .null | .bool true | .bool false | .array [] | .object [] =>
    simp [Value.print] at hc
    subst hc
    decide
  | .string s =>
    simp [Value.print, printString, List.getLast?_cons, List.getLast?_append] at hc
    subst hc
    decide
  | .array (v :: items) =>
    simp [Value.print, List.getLast?_cons, List.getLast?_append, printItems_getLast] at hc
    subst hc
    decide
  | .object ((key, v) :: map) =>
    simp [Value.print, List.getLast?_cons, List.getLast?_append, printMembers_getLast] at hc
    subst hc
    decide
  | .number (.int i) => exact printInt_getLast i c hc
  | .number (.float mantissa exponent) =>
    rw [Value.print, Number.print, List.getLast?_append_of_ne_nil _ (by simp),
      List.getLast?_cons_of_ne_nil (printInt_ne_nil exponent)] at hc
    exact printInt_getLast exponent c hc

/-- Every well-formed document is read back from its compact text. -/
theorem read_print {v : Value} (hv : v.WellFormed) : read v.print = some v := by
  have hsize := v.size_le_print
  have hread := readValue_print v (2 * v.print.length + 1) [] hv (by omega) boundary_nil
  rw [List.append_nil] at hread
  simp [read, hread, skipSpace]

/-- The concrete reader and writer behave as the program relies on. -/
theorem Serde.compact_lawful : Serde.compact.Lawful where
  from_str_to_string v hv := by
    simp only [Serde.compact, String.toList_ofList, read_print hv]
  from_str_wellFormed s v hv := read_wellFormed hv
  trim_to_string v hv := by
    obtain ⟨c, cs, hcs, hc⟩ := v.print_opening
    have hhead : ∀ c, v.print.head? = some c → is_whitespace c = false := by
      rw [hcs, List.head?_cons]
      rintro d ⟨⟩
      exact hc.not_whitespace
    simp only [Serde.compact, trim, String.toList_ofList, trimChars_eq_self hhead v.print_getLast]
  from_str_empty := by decide
  from_str_done := by decide

theorem skipSpace_suffix (cs : List Char) : skipSpace cs <:+ cs := by
  induction cs with
  | nil => exact List.suffix_rfl
  | cons c cs ih =>
    rw [skipSpace]
    split
    · exact ih.trans (List.suffix_cons c cs)
    · exact List.suffix_rfl

/-- No document begins with whitespace that the reader does not skip. -/
theorem readValue_blank {cs : List Char} (h : ∀ c ∈ cs, is_whitespace c = true) (fuel : Nat) : readValue fuel cs = none := by
  cases fuel with
  | zero => rw [readValue]
  | succ fuel =>
    rw [readValue]
    cases hskip : skipSpace cs with
    | nil => rfl
    | cons c rest =>
      have hc : is_whitespace c = true := h c ((skipSpace_suffix cs).subset (hskip ▸ List.mem_cons_self))
      have hne : ∀ d, is_whitespace d = false → c ≠ d := by
        rintro d hd rfl
        cases hc.symm.trans hd
      have hdigit : isDigit c = false := by
        simp only [is_whitespace, Bool.or_eq_true, Bool.and_eq_true, decide_eq_true_eq, beq_iff_eq] at hc
        simp only [isDigit, Bool.and_eq_false_iff, decide_eq_false_iff_not]
        omega
      have hsign : readSign (c :: rest) = (false, c :: rest) := by
        unfold readSign
        split
        next heq => exact absurd (List.cons.inj heq).1 (hne '-' (by decide))
        · rfl
      have hnumber : readNumber (c :: rest) = none := by
        unfold readNumber
        rw [hsign]
        simp [readDigits, spanDigits, hdigit]
      dsimp only
      rw [if_neg (hne 'n' (by decide)), if_neg (hne 't' (by decide)), if_neg (hne 'f' (by decide)),
        if_neg (hne '"' (by decide)), if_neg (hne '[' (by decide)), if_neg (hne '{' (by decide)), hnumber]
      rfl

theorem Serde.compact_rejectsBlank : Serde.compact.RejectsBlank := by
  intro s hs
  have hchars : trimChars s.toList = [] := by
    rw [← String.toList_ofList (l := trimChars s.toList)]
    exact congrArg String.toList hs
  have hall : ∀ c ∈ s.toList, is_whitespace c = true := by
    rw [trimChars, List.reverse_eq_nil_iff, List.dropWhile_eq_nil_iff] at hchars
    rw [← List.dropWhile_eq_nil_iff]
    have hhead := List.head?_dropWhile_not is_whitespace s.toList
    cases hrest : s.toList.dropWhile is_whitespace with
    | nil => rfl
    | cons c rest =>
      rw [hrest] at hhead hchars
      have hnot : is_whitespace c = false := by simpa using hhead
      cases (hchars c (List.mem_reverse.mpr List.mem_cons_self)).symm.trans hnot
  simp only [Serde.compact, read, readValue_blank hall]


/-- The character is none of the control characters, which no document holds. -/
def Visible (c : Char) : Prop := 0x20 ≤ c.toNat

instance decidableVisible : DecidablePred Visible := fun c => inferInstanceAs (Decidable (0x20 ≤ c.toNat))

theorem visible_of_all {cs : List Char} (h : (cs.all fun c => decide (Visible c)) = true) : ∀ c ∈ cs, Visible c :=
  fun c hc => of_decide_eq_true (List.all_eq_true.mp h c hc)

theorem isDigit_visible {c : Char} (hc : isDigit c = true) : Visible c := by
  simp only [isDigit, Bool.and_eq_true, decide_eq_true_eq] at hc
  unfold Visible
  omega

theorem printInt_visible (i : Int) : ∀ c ∈ printInt i, Visible c := by
  intro c hc
  cases i with
  | ofNat n => exact isDigit_visible (digits_isDigit n c hc)
  | negSucc n =>
    rcases List.mem_cons.mp hc with rfl | hc
    · decide
    · exact isDigit_visible (digits_isDigit _ c hc)

theorem Number.print_visible (n : Number) : ∀ c ∈ n.print, Visible c := by
  intro c hc
  cases n with
  | int i => exact printInt_visible i c hc
  | float mantissa exponent =>
    rcases List.mem_append.mp hc with hc | hc
    · exact printInt_visible mantissa c hc
    · rcases List.mem_cons.mp hc with rfl | hc
      · decide
      · exact printInt_visible exponent c hc

theorem escape_visible (c : Char) : ∀ d ∈ escape c, Visible d := by
  have hquote : ∀ d ∈ ['\\', '"'], Visible d := visible_of_all (by decide)
  have hbackslash : ∀ d ∈ ['\\', '\\'], Visible d := visible_of_all (by decide)
  intro d hd
  unfold escape at hd
  split at hd
  · exact hquote d hd
  · split at hd
    · exact hbackslash d hd
    · split at hd
      next hcontrol =>
        have hhex : ∀ n < 16, Visible (hexDigit n) := by decide
        simp only [List.mem_cons, List.not_mem_nil, or_false] at hd
        rcases hd with rfl | rfl | rfl | rfl | rfl | rfl
        any_goals decide
        · exact hhex _ (by omega)
        · exact hhex _ (by omega)
      next hcontrol =>
        rw [List.mem_singleton] at hd
        rw [hd]
        exact Nat.le_of_not_lt hcontrol

theorem printString_visible (s : String) : ∀ c ∈ printString s, Visible c := by
  intro c hc
  simp only [printString, List.cons_append, List.mem_cons, List.mem_append, List.mem_flatMap, List.not_mem_nil,
    or_false] at hc
  rcases hc with rfl | ⟨d, -, hc⟩ | rfl
  · decide
  · exact escape_visible d c hc
  · decide

mutual

/-- A document is written without control characters. -/
theorem Value.print_visible : ∀ v : Value, ∀ c ∈ v.print, Visible c
  | .null => visible_of_all (by decide)
  | .bool true => visible_of_all (by decide)
  | .bool false => visible_of_all (by decide)
  | .number n => n.print_visible
  | .string s => printString_visible s
  | .array [] => visible_of_all (by decide)
  | .array (v :: items) => by
    intro c hc
    simp only [Value.print, List.cons_append, List.mem_cons, List.mem_append] at hc
    rcases hc with rfl | hc | hc
    · decide
    · exact Value.print_visible v c hc
    · exact printItems_visible items c hc
  | .object [] => visible_of_all (by decide)
  | .object ((key, v) :: map) => by
    intro c hc
    simp only [Value.print, List.cons_append, List.append_assoc, List.mem_cons, List.mem_append] at hc
    rcases hc with rfl | hc | rfl | hc | hc
    · decide
    · exact printString_visible key c hc
    · decide
    · exact Value.print_visible v c hc
    · exact printMembers_visible map c hc

theorem printItems_visible : ∀ items : List Value, ∀ c ∈ printItems items, Visible c
  | [] => visible_of_all (by decide)
  | v :: items => by
    intro c hc
    simp only [printItems, List.cons_append, List.mem_cons, List.mem_append] at hc
    rcases hc with rfl | hc | hc
    · decide
    · exact Value.print_visible v c hc
    · exact printItems_visible items c hc

theorem printMembers_visible : ∀ map : List (String × Value), ∀ c ∈ printMembers map, Visible c
  | [] => visible_of_all (by decide)
  | (key, v) :: map => by
    intro c hc
    simp only [printMembers, List.cons_append, List.append_assoc, List.mem_cons, List.mem_append] at hc
    rcases hc with rfl | hc | rfl | hc | hc
    · decide
    · exact printString_visible key c hc
    · decide
    · exact Value.print_visible v c hc
    · exact printMembers_visible map c hc

end

theorem Serde.compact_oneLine : Serde.compact.OneLine := by
  intro v hbreak
  have hvisible := v.print_visible '\n' (by simpa only [Serde.compact, String.toList_ofList] using hbreak)
  exact absurd hvisible (by decide)

end refract.json
