import Mathlib.Data.List.DropRight
import Mathlib.Data.List.Flatten
import Mathlib.Data.List.TakeWhile
import Mathlib.Tactic.Common

namespace refract.machine.web

section Weight

variable {α : Type} {w : α → Nat} {xs ys zs : List α}

/-- The sum of what the elements of a list weigh. -/
def weight (w : α → Nat) : List α → Nat
  | [] => 0
  | x :: xs => w x + weight w xs

@[simp] theorem weight_nil : weight w [] = 0 := rfl

@[simp] theorem weight_cons (x : α) (xs : List α) : weight w (x :: xs) = w x + weight w xs := rfl

@[simp] theorem weight_append (xs ys : List α) : weight w (xs ++ ys) = weight w xs + weight w ys := by
  induction xs with
  | nil => rw [List.nil_append, weight_nil, Nat.zero_add]
  | cons x xs ih => rw [List.cons_append, weight_cons, weight_cons, ih, Nat.add_assoc]

theorem weight_flatMap {β : Type} {v : β → Nat} (f : α → List β) (xs : List α) :
    weight v (xs.flatMap f) = weight (fun x => weight v (f x)) xs := by
  induction xs with
  | nil => rfl
  | cons x xs ih => rw [List.flatMap_cons, weight_append, weight_cons, ih]

/-- A list that has been left as it was, or has lost weight. -/
def Shrinks (w : α → Nat) (xs ys : List α) : Prop := xs = ys ∨ weight w xs < weight w ys

theorem Shrinks.refl (xs : List α) : Shrinks w xs xs := .inl rfl

theorem Shrinks.le (h : Shrinks w xs ys) : weight w xs ≤ weight w ys := by
  obtain rfl | hlt := h
  · exact le_refl _
  · exact hlt.le

theorem Shrinks.eq (h : Shrinks w xs ys) (hle : weight w ys ≤ weight w xs) : xs = ys :=
  h.resolve_right (Nat.not_lt.mpr hle)

theorem Shrinks.cons (h : Shrinks w xs ys) (x : α) : Shrinks w (x :: xs) (x :: ys) := by
  obtain rfl | hlt := h
  · exact .refl _
  · exact .inr (by rw [weight_cons, weight_cons]; omega)

/-- Whatever is taken out weighs something. -/
theorem Shrinks.of_sublist (hw : ∀ x, 0 < w x) (h : xs.Sublist ys) : Shrinks w xs ys := by
  induction h with
  | slnil => exact .refl _
  | cons y hsub ih =>
    refine .inr ?_
    have hle := ih.le
    have hpos := hw y
    rw [weight_cons]
    omega
  | cons_cons y hsub ih => exact ih.cons y

theorem Shrinks.map {f : α → α} (hf : ∀ x, f x = x ∨ w (f x) < w x) (xs : List α) : Shrinks w (xs.map f) xs := by
  induction xs with
  | nil => exact .refl _
  | cons x xs ih =>
    obtain hx | hx := hf x
    · rw [List.map_cons, hx]
      exact ih.cons x
    · have hle := ih.le
      exact .inr (by rw [List.map_cons, weight_cons, weight_cons]; omega)

end Weight

section PercentEncoding

def hex_value (b : UInt8) : Option UInt8 :=
  if 48 ≤ b ∧ b ≤ 57 then some (b - 48)
  else if 65 ≤ b ∧ b ≤ 70 then some (b - 55)
  else if 97 ≤ b ∧ b ≤ 102 then some (b - 87)
  else none

/-- The byte that is written at the front of others, as a percent sign and two digits. -/
def escaped : List UInt8 → Option UInt8
  | mark :: high :: low :: _ =>
    if mark = 37 then
      match hex_value high, hex_value low with
      | some high, some low => some (16 * high + low)
      | _, _ => none
    else none
  | _ => none

def percent_decode_from : Nat → List UInt8 → List UInt8
  | _, [] => []
  | skip + 1, _ :: bs => percent_decode_from skip bs
  | 0, b :: bs =>
    match escaped (b :: bs) with
    | some value => value :: percent_decode_from 2 bs
    | none => b :: percent_decode_from 0 bs

/-- Bytes with each one that is written as a percent sign and two digits put in. -/
def percent_decode (bs : List UInt8) : List UInt8 := percent_decode_from 0 bs

/-- Some byte is written as a percent sign and two digits. -/
def has_escape : List UInt8 → Bool
  | [] => false
  | b :: bs => (escaped (b :: bs)).isSome || has_escape bs

theorem percent_decode_from_eq (skip : Nat) (bs : List UInt8) : percent_decode_from skip bs = percent_decode (bs.drop skip) := by
  induction skip generalizing bs with
  | zero => rfl
  | succ skip ih =>
    cases bs with
    | nil => rfl
    | cons b bs => exact ih bs

theorem percent_decode_cons_none {b : UInt8} {bs : List UInt8} (h : escaped (b :: bs) = none) :
    percent_decode (b :: bs) = b :: percent_decode bs := by
  rw [percent_decode, percent_decode_from, h, percent_decode]

theorem percent_decode_cons_some {b value : UInt8} {bs : List UInt8} (h : escaped (b :: bs) = some value) :
    percent_decode (b :: bs) = value :: percent_decode (bs.drop 2) := by
  rw [percent_decode, percent_decode_from, h, percent_decode_from_eq]

/-- A written byte takes up three. -/
theorem eq_of_escaped {b value : UInt8} {bs : List UInt8} (h : escaped (b :: bs) = some value) :
    b = 37 ∧ ∃ high low, bs = high :: low :: bs.drop 2 := by
  cases bs with
  | nil => cases h
  | cons high bs =>
    cases bs with
    | nil => cases h
    | cons low rest =>
      rw [escaped] at h
      split_ifs at h with hmark
      exact ⟨hmark, high, low, rfl⟩

theorem escaped_of_first {high : UInt8} (h : hex_value high = none) (rest : List UInt8) : escaped (37 :: high :: rest) = none := by
  cases rest with
  | nil => rfl
  | cons low rest => rw [escaped, if_pos rfl, h]

theorem escaped_of_second {low : UInt8} (h : hex_value low = none) (high : UInt8) (rest : List UInt8) :
    escaped (37 :: high :: low :: rest) = none := by
  rw [escaped, if_pos rfl, h]
  cases hex_value high <;> rfl

theorem percent_decode_eq_self {bs : List UInt8} (h : has_escape bs = false) : percent_decode bs = bs := by
  induction bs with
  | nil => rfl
  | cons b bs ih =>
    rw [has_escape, Bool.or_eq_false_iff, Option.isSome_eq_false_iff, Option.isNone_iff_eq_none] at h
    rw [percent_decode_cons_none h.1, ih h.2]

variable {w : UInt8 → Nat}

theorem weight_percent_decode_le (hmark : ∀ b, w b ≤ w 37) (bs : List UInt8) :
    weight w (percent_decode bs) ≤ weight w bs := by
  induction hlength : bs.length using Nat.strong_induction_on generalizing bs with
  | _ n ih =>
    cases bs with
    | nil => exact le_refl _
    | cons b bs =>
      rw [List.length_cons] at hlength
      cases hescaped : escaped (b :: bs) with
      | none =>
        rw [percent_decode_cons_none hescaped, weight_cons, weight_cons]
        have hrest := ih bs.length (by omega) bs rfl
        omega
      | some value =>
        obtain ⟨rfl, high, low, hbs⟩ := eq_of_escaped hescaped
        rw [percent_decode_cons_some hescaped]
        have hrest := ih (bs.drop 2).length (by rw [List.length_drop]; omega) (bs.drop 2) rfl
        have hvalue := hmark value
        have hbytes : weight w bs = w high + (w low + weight w (bs.drop 2)) := by
          conv_lhs => rw [hbs]
          rfl
        rw [weight_cons, weight_cons, hbytes]
        omega

theorem weight_percent_decode_lt (hw : ∀ b, 0 < w b) (hmark : ∀ b, w b ≤ w 37) {bs : List UInt8} (h : has_escape bs = true) :
    weight w (percent_decode bs) < weight w bs := by
  induction bs with
  | nil => cases h
  | cons b bs ih =>
    cases hescaped : escaped (b :: bs) with
    | none =>
      rw [has_escape, hescaped, Option.isSome_none, Bool.false_or] at h
      rw [percent_decode_cons_none hescaped, weight_cons, weight_cons]
      have hrest := ih h
      omega
    | some value =>
      obtain ⟨rfl, high, low, hbs⟩ := eq_of_escaped hescaped
      rw [percent_decode_cons_some hescaped]
      have hrest := weight_percent_decode_le hmark (bs.drop 2)
      have hvalue := hmark value
      have hpos := hw high
      have hbytes : weight w bs = w high + (w low + weight w (bs.drop 2)) := by
        conv_lhs => rw [hbs]
        rfl
      rw [weight_cons, weight_cons, hbytes]
      omega

/-- A digit of sixteen, in the spelling of the encoders. -/
def hex_digit (n : Nat) : Char := (Nat.digitChar n).toUpper

def percent_char (b : UInt8) : List Char := ['%', hex_digit (b.toNat / 16), hex_digit (b.toNat % 16)]

/-- Text with the characters that are not safe written as percent signs and digits. -/
def percent_encode (safe : Char → Bool) (cs : List Char) : List Char :=
  cs.flatMap fun c => if safe c then [c] else (String.utf8EncodeChar c).flatMap percent_char

def percent_byte (b : UInt8) : List UInt8 := (percent_char b).flatMap String.utf8EncodeChar

theorem hex_digit_bytes {n : Nat} (hn : n < 16) :
    ∃ digit, String.utf8EncodeChar (hex_digit n) = [digit] ∧ hex_value digit = some (UInt8.ofNat n) := by
  have hall : ∀ n < 16, (String.utf8EncodeChar (hex_digit n)).length = 1 ∧
      hex_value (String.utf8EncodeChar (hex_digit n)).headI = some (UInt8.ofNat n) := by decide
  obtain ⟨hlength, hvalue⟩ := hall n hn
  obtain ⟨digit, hdigit⟩ := List.length_eq_one_iff.mp hlength
  rw [hdigit] at hvalue
  exact ⟨digit, hdigit, hvalue⟩

/-- A byte that is written is read. -/
theorem percent_byte_eq (b : UInt8) :
    ∃ high low, percent_byte b = [37, high, low] ∧ ∀ rest, escaped (37 :: high :: low :: rest) = some b := by
  have hb := b.toNat_lt
  obtain ⟨high, hhigh, hhighValue⟩ := @hex_digit_bytes (b.toNat / 16) (by omega)
  obtain ⟨low, hlow, hlowValue⟩ := @hex_digit_bytes (b.toNat % 16) (by omega)
  have hmark : String.utf8EncodeChar '%' = [37] := by decide
  refine ⟨high, low, ?_, fun rest => ?_⟩
  · rw [percent_byte, percent_char, List.flatMap_cons, List.flatMap_cons, List.flatMap_cons, hmark, hhigh, hlow]
    rfl
  · rw [escaped, if_pos rfl, hhighValue, hlowValue, Option.some.injEq, ← UInt8.toNat_inj]
    simp only [UInt8.toNat_add, UInt8.toNat_mul, UInt8.toNat_ofNat', UInt8.reduceToNat]
    omega

/-- The bytes of which some are written, and those of all of them as they are. -/
def written (entries : List (UInt8 × Bool)) : List UInt8 :=
  entries.flatMap fun entry => if entry.2 then [entry.1] else percent_byte entry.1

/-- The entries that have to be kept are: percent signs and digits. -/
def Marked (entries : List (UInt8 × Bool)) : Prop :=
  ∀ entry ∈ entries, entry.1 = 37 ∨ (hex_value entry.1).isSome → entry.2 = true

theorem hex_value_mark : hex_value 37 = none := by decide

theorem written_cons_true (b : UInt8) (rest : List (UInt8 × Bool)) : written ((b, true) :: rest) = b :: written rest := rfl

/-- A byte that is written begins with a percent sign. -/
theorem written_cons_false (b : UInt8) (rest : List (UInt8 × Bool)) :
    ∃ high low, written ((b, false) :: rest) = 37 :: high :: low :: written rest ∧
      ∀ rest, escaped (37 :: high :: low :: rest) = some b := by
  obtain ⟨high, low, hbyte, hescaped⟩ := percent_byte_eq b
  refine ⟨high, low, ?_, hescaped⟩
  rw [written, List.flatMap_cons, if_neg Bool.false_ne_true, hbyte]
  rfl

theorem Marked.tail {entry : UInt8 × Bool} {rest : List (UInt8 × Bool)} (h : Marked (entry :: rest)) : Marked rest :=
  fun other hother => h other (List.mem_cons_of_mem _ hother)

theorem Marked.not_digit {b : UInt8} {rest : List (UInt8 × Bool)} (h : Marked ((b, false) :: rest)) :
    b ≠ 37 ∧ hex_value b = none := by
  have hb := mt (h (b, false) List.mem_cons_self) Bool.false_ne_true
  rw [not_or, Bool.not_eq_true, Option.isSome_eq_false_iff, Option.isNone_iff_eq_none] at hb
  exact hb

/-- What is kept reads as it did before the rest was written. -/
theorem escaped_written {entries : List (UInt8 × Bool)} (hmarked : Marked entries) :
    escaped (37 :: written entries) = escaped (37 :: entries.map Prod.fst) := by
  cases entries with
  | nil => rfl
  | cons first rest =>
    obtain ⟨high, kept⟩ := first
    cases kept with
    | false =>
      obtain ⟨_, _, hwritten, -⟩ := written_cons_false high rest
      rw [hwritten, escaped_of_first hex_value_mark, List.map_cons, escaped_of_first hmarked.not_digit.2]
    | true =>
      cases rest with
      | nil => rfl
      | cons second rest =>
        obtain ⟨low, kept⟩ := second
        cases kept with
        | false =>
          obtain ⟨_, _, hwritten, -⟩ := written_cons_false low rest
          rw [written_cons_true, hwritten, escaped_of_second hex_value_mark, List.map_cons, List.map_cons,
            escaped_of_second hmarked.tail.not_digit.2]
        | true => rfl

/-- Digits that are read as a byte are both kept. -/
theorem written_of_escaped {entries : List (UInt8 × Bool)} (hmarked : Marked entries) {value : UInt8}
    (h : escaped (37 :: entries.map Prod.fst) = some value) :
    ∃ high low rest, entries = (high, true) :: (low, true) :: rest := by
  cases entries with
  | nil => cases h
  | cons first rest =>
    obtain ⟨high, kept⟩ := first
    cases kept with
    | false =>
      rw [List.map_cons, escaped_of_first hmarked.not_digit.2] at h
      cases h
    | true =>
      cases rest with
      | nil => cases h
      | cons second rest =>
        obtain ⟨low, kept⟩ := second
        cases kept with
        | false =>
          rw [List.map_cons, List.map_cons, escaped_of_second hmarked.tail.not_digit.2] at h
          cases h
        | true => exact ⟨high, low, rest, rfl⟩

theorem escaped_of_not_mark {b : UInt8} (h : b ≠ 37) (bs : List UInt8) : escaped (b :: bs) = none :=
  Option.eq_none_iff_forall_ne_some.mpr fun _ hvalue => h (eq_of_escaped hvalue).1

/-- Nothing is read across a byte that is neither percent sign nor digit. -/
theorem has_escape_append {stop : UInt8} (hstop : hex_value stop = none) (front back : List UInt8) :
    has_escape (front ++ stop :: back) = (has_escape front || has_escape (stop :: back)) := by
  induction front with
  | nil => rfl
  | cons b front ih =>
    have hescaped : escaped (b :: (front ++ stop :: back)) = escaped (b :: front) := by
      by_cases hmark : b = 37
      · rw [hmark]
        cases front with
        | nil => exact escaped_of_first hstop back
        | cons high front =>
          cases front with
          | nil => exact escaped_of_second hstop high back
          | cons low front => rfl
      · rw [escaped_of_not_mark hmark, escaped_of_not_mark hmark]
    rw [List.cons_append, has_escape, hescaped, ih, ← Bool.or_assoc]
    rfl

theorem mem_percent_decode {b : UInt8} (hmark : b ≠ 37) (hdigit : hex_value b = none) {bs : List UInt8} (h : b ∈ bs) :
    b ∈ percent_decode bs := by
  induction hlength : bs.length using Nat.strong_induction_on generalizing bs with
  | _ n ih =>
    cases bs with
    | nil => cases h
    | cons first bs =>
      rw [List.length_cons] at hlength
      cases hescaped : escaped (first :: bs) with
      | none =>
        rw [percent_decode_cons_none hescaped]
        obtain rfl | hrest := List.mem_cons.mp h
        · exact List.mem_cons_self
        · exact List.mem_cons_of_mem _ (ih bs.length (by omega) hrest rfl)
      | some value =>
        rw [percent_decode_cons_some hescaped]
        obtain ⟨rfl, high, low, hbs⟩ := eq_of_escaped hescaped
        have hhigh : b ≠ high := fun heq => by
          rw [hbs, escaped_of_first (heq ▸ hdigit)] at hescaped
          cases hescaped
        have hlow : b ≠ low := fun heq => by
          rw [hbs, escaped_of_second (heq ▸ hdigit)] at hescaped
          cases hescaped
        have hrest : b ∈ bs.drop 2 := by
          rw [hbs] at h
          simpa only [List.mem_cons, hmark, hhigh, hlow, false_or] using h
        exact List.mem_cons_of_mem _ (ih (bs.drop 2).length (by rw [List.length_drop]; omega) hrest rfl)

theorem percent_encode_append (safe : Char → Bool) (cs ds : List Char) :
    percent_encode safe (cs ++ ds) = percent_encode safe cs ++ percent_encode safe ds := List.flatMap_append

theorem percent_encode_safe {safe : Char → Bool} {cs : List Char} (h : ∀ c ∈ cs, safe c = true) : percent_encode safe cs = cs := by
  induction cs with
  | nil => rfl
  | cons c cs ih =>
    obtain ⟨hc, hcs⟩ := List.forall_mem_cons.mp h
    rw [percent_encode, List.flatMap_cons, if_pos hc, ← percent_encode, ih hcs, List.singleton_append]

/-- Characters without a percent sign at the front of what is written stood there before. -/
theorem exists_of_percent_encode {safe : Char → Bool} {front back cs : List Char} (hfront : '%' ∉ front)
    (h : percent_encode safe cs = front ++ back) : ∃ rest, cs = front ++ rest ∧ back = percent_encode safe rest := by
  induction front generalizing cs with
  | nil => exact ⟨cs, rfl, h.symm⟩
  | cons d front ih =>
    rw [List.mem_cons, not_or] at hfront
    cases cs with
    | nil => cases h
    | cons c cs =>
      rw [percent_encode, List.flatMap_cons, ← percent_encode] at h
      by_cases hsafe : safe c = true
      · rw [if_pos hsafe, List.singleton_append, List.cons_append, List.cons.injEq] at h
        obtain ⟨rest, hrest, hback⟩ := ih hfront.2 h.2
        exact ⟨rest, by rw [h.1, hrest, List.cons_append], hback⟩
      · have hlength : 0 < (String.utf8EncodeChar c).length := by rw [String.length_utf8EncodeChar]; exact c.utf8Size_pos
        obtain ⟨b, bs, hbytes⟩ := List.exists_cons_of_ne_nil (List.ne_nil_of_length_pos hlength)
        rw [if_neg hsafe, hbytes, List.flatMap_cons, percent_char] at h
        exact absurd (List.cons.inj h).1 hfront.1

/-- Writing some of the bytes does not change what is read, if the percent signs and the
    digits are kept. -/
theorem percent_decode_written {entries : List (UInt8 × Bool)} (hmarked : Marked entries) :
    percent_decode (written entries) = percent_decode (entries.map Prod.fst) := by
  induction hlength : entries.length using Nat.strong_induction_on generalizing entries with
  | _ n ih =>
    cases entries with
    | nil => rfl
    | cons entry rest =>
      obtain ⟨b, kept⟩ := entry
      rw [List.length_cons] at hlength
      have hrest := @ih rest.length (by omega) rest hmarked.tail rfl
      cases kept with
      | false =>
        obtain ⟨high, low, hwritten, hescaped⟩ := written_cons_false b rest
        rw [hwritten, percent_decode_cons_some (hescaped _), List.map_cons,
          percent_decode_cons_none (escaped_of_not_mark hmarked.not_digit.1 _), ← hrest]
        rfl
      | true =>
        rw [written_cons_true, List.map_cons]
        by_cases hmark : b = 37
        · have hsame := escaped_written hmarked.tail
          rw [hmark]
          cases hescaped : escaped (37 :: rest.map Prod.fst) with
          | none => rw [percent_decode_cons_none hescaped, percent_decode_cons_none (hsame.trans hescaped), hrest]
          | some value =>
            obtain ⟨high, low, behind, rfl⟩ := written_of_escaped hmarked.tail hescaped
            rw [percent_decode_cons_some hescaped, percent_decode_cons_some (hsame.trans hescaped)]
            have hbehind := @ih behind.length (by rw [List.length_cons, List.length_cons] at hlength; omega) behind
              hmarked.tail.tail.tail rfl
            rw [written_cons_true, written_cons_true, List.map_cons, List.map_cons]
            exact congrArg (value :: ·) hbehind
        · rw [percent_decode_cons_none (escaped_of_not_mark hmark _), percent_decode_cons_none (escaped_of_not_mark hmark _),
            hrest]

end PercentEncoding

section Path

/-- The dot segments, also where a dot is written. -/
def is_single_dot (segment : List Char) : Bool := segment.map Char.toLower ∈ [['.'], ['%', '2', 'e']]

def is_double_dot (segment : List Char) : Bool :=
  segment.map Char.toLower ∈ [['.', '.'], ['.', '%', '2', 'e'], ['%', '2', 'e', '.'], ['%', '2', 'e', '%', '2', 'e']]

def is_dot (segment : List Char) : Bool := is_single_dot segment || is_double_dot segment

/-- The segments of a path without the dot segments, behind those that are kept. -/
def remove_dots (kept : List (List Char)) : List (List Char) → List (List Char)
  | [] => kept
  | [last] =>
    if is_double_dot last then kept.dropLast ++ [[]]
    else if is_single_dot last then kept ++ [[]]
    else kept ++ [last]
  | segment :: rest =>
    if is_double_dot segment then remove_dots kept.dropLast rest
    else if is_single_dot segment then remove_dots kept rest
    else remove_dots (kept ++ [segment]) rest

/-- Segments, each behind a slash. -/
def slashed (segments : List (List Char)) : List Char := segments.flatMap fun segment => '/' :: segment

/-- The text of a path as far as it is read: without the blanks at its end, tabs and
    line breaks, up to a query or a fragment and with slashes for backslashes. -/
def path_text (text : List Char) : List Char :=
  (((text.rdropWhile (·.toNat ≤ 32)).filter fun c => !(c = '\t' || c = '\n' || c = '\r')).takeWhile
    fun c => !(c = '?' || c = '#')).map fun c => if c = '\\' then '/' else c

/-- The path of an address of the web, from the text that comes after the server and
    its slash. -/
def url_path (safe : Char → Bool) (text : List Char) : List Char :=
  percent_encode safe (slashed (remove_dots [] ((path_text text).splitOn '/')))

theorem slashed_splitOn (text : List Char) : slashed (text.splitOn '/') = '/' :: text := by
  have hjoined : ∀ segments : List (List Char), segments ≠ [] → slashed segments = '/' :: ['/'].intercalate segments := by
    intro segments hsegments
    induction segments with
    | nil => exact absurd rfl hsegments
    | cons segment rest ih =>
      cases rest with
      | nil => simp [slashed]
      | cons next rest =>
        rw [slashed, List.flatMap_cons, ← slashed, ih (List.cons_ne_nil _ _), List.intercalate_cons_cons]
        simp
  rw [hjoined _ (List.splitOn_ne_nil '/' text), List.intercalate_splitOn]

theorem slashed_sublist {xs ys : List (List Char)} (h : xs.Sublist ys) : (slashed xs).Sublist (slashed ys) := h.flatMap _

/-- Without a slash, what is put behind a path belongs to its last segment. -/
theorem exists_last_segment (text : List Char) : ∃ front last, text.splitOn '/' = front ++ [last] ∧
    ∀ back, '/' ∉ back → (text ++ back).splitOn '/' = front ++ [last ++ back] := by
  induction hlength : text.length using Nat.strong_induction_on generalizing text with
  | _ n ih =>
    by_cases hslash : '/' ∈ text
    · obtain ⟨segment, rest, rfl, -⟩ := List.eq_append_cons_of_mem hslash
      rw [List.length_append, List.length_cons] at hlength
      obtain ⟨front, last, hrest, hback⟩ := ih rest.length (by omega) rest rfl
      refine ⟨segment.splitOn '/' ++ front, last, ?_, fun back hnone => ?_⟩
      · rw [List.splitOn_append_cons_self, hrest, List.append_assoc]
      · rw [List.append_assoc, List.cons_append, List.splitOn_append_cons_self, hback back hnone, List.append_assoc]
    · refine ⟨[], text, List.splitOn_eq_singleton hslash, fun back hnone => List.splitOn_eq_singleton ?_⟩
      rw [List.mem_append, not_or]
      exact ⟨hslash, hnone⟩

theorem slashed_append (xs ys : List (List Char)) : slashed (xs ++ ys) = slashed xs ++ slashed ys := List.flatMap_append

theorem length_slashed_singleton (segment : List Char) : (slashed [segment]).length = segment.length + 1 := by
  rw [slashed, List.flatMap_singleton, List.length_cons]

theorem remove_dots_cons_cons (kept : List (List Char)) (segment next : List Char) (rest : List (List Char)) :
    remove_dots kept (segment :: next :: rest) =
      if is_double_dot segment then remove_dots kept.dropLast (next :: rest)
      else if is_single_dot segment then remove_dots kept (next :: rest)
      else remove_dots (kept ++ [segment]) (next :: rest) := rfl

theorem not_dot_of_mem {c : Char} {segment : List Char} (hc : c ∈ segment) (hplain : c.toLower ∉ ['.', '%', '2', 'e']) :
    is_dot segment = false := by
  rw [is_dot, is_single_dot, is_double_dot, Bool.or_eq_false_iff, decide_eq_false_iff_not, decide_eq_false_iff_not]
  have hlower := List.mem_map_of_mem (f := Char.toLower) hc
  simp only [List.mem_cons, List.not_mem_nil, or_false, not_or] at hplain ⊢
  refine ⟨⟨fun h => ?_, fun h => ?_⟩, fun h => ?_, fun h => ?_, fun h => ?_, fun h => ?_⟩ <;>
    (rw [h] at hlower; simp [hplain] at hlower)

/-- The last segment stays, if it is no dot segment. -/
theorem last_mem_remove_dots {last : List Char} (hlast : is_dot last = false) (kept front : List (List Char)) :
    last ∈ remove_dots kept (front ++ [last]) := by
  induction front generalizing kept with
  | nil =>
    rw [is_dot, Bool.or_eq_false_iff] at hlast
    rw [List.nil_append, remove_dots, hlast.2, hlast.1, if_neg Bool.false_ne_true, if_neg Bool.false_ne_true]
    exact List.mem_append_right _ (List.mem_singleton_self last)
  | cons segment front ih =>
    obtain ⟨next, rest, hrest⟩ := List.exists_cons_of_ne_nil (List.concat_ne_nil last front)
    rw [List.cons_append, hrest, remove_dots_cons_cons, ← hrest]
    split_ifs
    · exact ih _
    · exact ih _
    · exact ih _

theorem remove_dots_sublist (kept segments : List (List Char)) :
    (slashed (remove_dots kept segments)).Sublist (slashed (kept ++ segments)) := by
  induction segments generalizing kept with
  | nil => rw [remove_dots, List.append_nil]
  | cons segment rest ih =>
    have hdropped := List.dropLast_sublist kept
    cases rest with
    | nil =>
      have hslash : (slashed [[]]).Sublist (slashed [segment]) := List.singleton_sublist.mpr List.mem_cons_self
      rw [remove_dots]
      split_ifs with hdouble hsingle
      · rw [slashed_append, slashed_append]
        exact (slashed_sublist hdropped).append hslash
      · rw [slashed_append, slashed_append]
        exact (List.Sublist.refl _).append hslash
      · exact List.Sublist.refl _
    | cons next rest =>
      rw [remove_dots_cons_cons]
      split_ifs with hdouble hsingle
      · exact (ih kept.dropLast).trans (slashed_sublist (hdropped.append (List.sublist_cons_self _ _)))
      · exact (ih kept).trans (slashed_sublist ((List.Sublist.refl _).append (List.sublist_cons_self _ _)))
      · have hkept := ih (kept ++ [segment])
        rwa [List.append_assoc, List.singleton_append] at hkept

/-- A dot segment is left out. -/
theorem remove_dots_shorter {segments : List (List Char)} (h : ∃ segment ∈ segments, is_dot segment = true)
    (kept : List (List Char)) : (slashed (remove_dots kept segments)).length < (slashed (kept ++ segments)).length := by
  induction segments generalizing kept with
  | nil => simp at h
  | cons segment rest ih =>
    have hdropped := (slashed_sublist (List.dropLast_sublist kept)).length_le
    cases rest with
    | nil =>
      obtain ⟨segment', hmem, hdot⟩ := h
      rw [List.mem_singleton.mp hmem] at hdot
      have hpos : 0 < segment.length := List.length_pos_of_ne_nil fun hnil => by rw [hnil] at hdot; cases hdot
      rw [remove_dots]
      split_ifs with hdouble hsingle
      · rw [slashed_append, slashed_append, List.length_append, List.length_append, length_slashed_singleton,
          length_slashed_singleton, List.length_nil]
        omega
      · rw [slashed_append, slashed_append, List.length_append, List.length_append, length_slashed_singleton,
          length_slashed_singleton, List.length_nil]
        omega
      · rw [is_dot, eq_false_of_ne_true hsingle, eq_false_of_ne_true hdouble] at hdot
        cases hdot
    | cons next rest =>
      have hrest (kept : List (List Char)) := (remove_dots_sublist kept (next :: rest)).length_le
      have hwhole : (slashed (kept ++ segment :: next :: rest)).length =
          (slashed kept).length + (segment.length + 1) + (slashed (next :: rest)).length := by
        rw [← List.singleton_append, slashed_append, slashed_append, List.length_append, List.length_append,
          length_slashed_singleton, ← Nat.add_assoc]
      rw [remove_dots_cons_cons]
      split_ifs with hdouble hsingle
      · have hle := hrest kept.dropLast
        rw [slashed_append, List.length_append] at hle
        omega
      · have hle := hrest kept
        rw [slashed_append, List.length_append] at hle
        omega
      · obtain ⟨dot, hmem, hdot⟩ := h
        obtain rfl | hmem := List.mem_cons.mp hmem
        · rw [is_dot, eq_false_of_ne_true hsingle, eq_false_of_ne_true hdouble] at hdot
          cases hdot
        · have hlt := ih ⟨dot, hmem, hdot⟩ (kept ++ [segment])
          rwa [List.append_assoc, List.singleton_append] at hlt

theorem remove_dots_eq {segments : List (List Char)} (h : ∀ segment ∈ segments, is_dot segment = false)
    (kept : List (List Char)) : remove_dots kept segments = kept ++ segments := by
  induction segments generalizing kept with
  | nil => rw [remove_dots, List.append_nil]
  | cons segment rest ih =>
    obtain ⟨hsegment, hrest⟩ := List.forall_mem_cons.mp h
    rw [is_dot, Bool.or_eq_false_iff] at hsegment
    cases rest with
    | nil => rw [remove_dots, hsegment.2, hsegment.1, if_neg Bool.false_ne_true, if_neg Bool.false_ne_true]
    | cons next rest =>
      rw [remove_dots_cons_cons, hsegment.2, hsegment.1, if_neg Bool.false_ne_true, if_neg Bool.false_ne_true, ih hrest,
        List.append_assoc, List.singleton_append]

end Path

end refract.machine.web
