import Mathlib.Data.List.DropRight
import Mathlib.Data.List.TakeWhile
import Refract.Json.Value

namespace refract.json

/-- The characters of Unicode property `White_Space`. -/
def is_whitespace (c : Char) : Bool :=
  let n := c.toNat
  (9 ≤ n && n ≤ 13) || n == 0x20 || n == 0x85 || n == 0xA0 || n == 0x1680 ||
    (0x2000 ≤ n && n ≤ 0x200A) || n == 0x2028 || n == 0x2029 || n == 0x202F || n == 0x205F || n == 0x3000

def trimChars (cs : List Char) : List Char :=
  ((cs.dropWhile is_whitespace).reverse.dropWhile is_whitespace).reverse

/-- Removes leading and trailing whitespace. -/
def trim (s : String) : String := String.ofList (trimChars s.toList)

/-- A text without whitespace at either end is its own trimming. -/
theorem trimChars_eq_self {cs : List Char} (hhead : ∀ c, cs.head? = some c → is_whitespace c = false)
    (hlast : ∀ c, cs.getLast? = some c → is_whitespace c = false) : trimChars cs = cs := by
  have hfront : cs.dropWhile is_whitespace = cs := by
    cases cs with
    | nil => rfl
    | cons c cs => simp [hhead c rfl]
  have hback : cs.reverse.dropWhile is_whitespace = cs.reverse := by
    cases hrev : cs.reverse with
    | nil => rfl
    | cons c rest =>
      have hc : cs.getLast? = some c := by rw [List.getLast?_eq_head?_reverse, hrev, List.head?_cons]
      simp [hlast c hc]
  rw [trimChars, hfront, hback, List.reverse_reverse]

@[simp] theorem trim_empty : trim "" = "" := by decide

theorem trimChars_idem (cs : List Char) : trimChars (trimChars cs) = trimChars cs := by
  have hdropped : ∀ ds : List Char, ∀ c, (ds.dropWhile is_whitespace).head? = some c → is_whitespace c = false := by
    intro ds c hc
    have hnot := List.head?_dropWhile_not is_whitespace ds
    rw [hc] at hnot
    exact hnot
  refine trimChars_eq_self (fun c hc => ?_) fun c hc => ?_
  · rw [trimChars, List.head?_reverse] at hc
    have hsuffix : (cs.dropWhile is_whitespace).reverse.dropWhile is_whitespace <:+ (cs.dropWhile is_whitespace).reverse :=
      List.dropWhile_suffix _
    have hlast : (cs.dropWhile is_whitespace).reverse.getLast? = some c := by
      obtain ⟨front, hfront⟩ := hsuffix
      rw [← hfront, List.getLast?_append, hc]
      rfl
    rw [List.getLast?_reverse] at hlast
    exact hdropped cs c hlast
  · rw [trimChars, List.getLast?_reverse] at hc
    exact hdropped _ c hc

@[simp] theorem trim_trim (s : String) : trim (trim s) = trim s := by
  unfold trim
  rw [String.toList_ofList, trimChars_idem]

/-- Removes trailing whitespace. -/
def trimEnd (cs : List Char) : List Char := (cs.reverse.dropWhile is_whitespace).reverse

theorem trimChars_eq_trimEnd {c : Char} {cs : List Char} (hc : is_whitespace c = false) :
    trimChars (c :: cs) = trimEnd (c :: cs) := by
  rw [trimChars, List.dropWhile_cons_of_neg (by simp [hc]), trimEnd]

/-- Whitespace at the end is removed where it is, unless nothing else is there. -/
theorem trimEnd_append (front : List Char) {cs : List Char} (hcs : trimEnd cs ≠ []) : trimEnd (front ++ cs) = front ++ trimEnd cs := by
  have hrest : (cs.reverse.dropWhile is_whitespace).isEmpty = false := by
    rw [Bool.eq_false_iff, Ne, List.isEmpty_iff]
    exact fun hnil => hcs (by rw [trimEnd, hnil, List.reverse_nil])
  rw [trimEnd, List.reverse_append, List.dropWhile_append, hrest]
  simp [trimEnd]

theorem trimEnd_cons_of_visible {c : Char} {cs : List Char} (hc : is_whitespace c = false) : trimEnd (c :: cs) = c :: trimEnd cs := by
  by_cases hcs : trimEnd cs = []
  · have hall : cs.reverse.dropWhile is_whitespace = [] := by simpa [trimEnd] using hcs
    rw [hcs, trimEnd, List.reverse_cons, List.dropWhile_append, hall]
    simp [hc]
  · exact trimEnd_append [c] hcs

theorem trimEnd_trimEnd (cs : List Char) : trimEnd (trimEnd cs) = trimEnd cs := by
  unfold trimEnd
  rw [List.reverse_reverse, List.dropWhile_idempotent]

/-- What follows the last visible character does not matter to trimming. -/
theorem trimChars_trimEnd (cs : List Char) : trimChars (trimEnd cs) = trimChars cs := by
  induction cs with
  | nil => rfl
  | cons c cs ih =>
    cases hc : is_whitespace c with
    | false =>
      rw [trimEnd_cons_of_visible hc, trimChars_eq_trimEnd hc, trimChars_eq_trimEnd hc, trimEnd_cons_of_visible hc,
        trimEnd_cons_of_visible hc, trimEnd_trimEnd]
    | true =>
      have hskip : ∀ ds, trimChars (c :: ds) = trimChars ds := by
        intro ds
        rw [trimChars, List.dropWhile_cons_of_pos hc, trimChars]
      rw [hskip, ← ih]
      by_cases hcs : trimEnd cs = []
      · have hall : cs.reverse.dropWhile is_whitespace = [] := by simpa [trimEnd] using hcs
        rw [hcs, trimEnd, List.reverse_cons, List.dropWhile_append, hall]
        simp [hc]
      · rw [show trimEnd (c :: cs) = c :: trimEnd cs from trimEnd_append [c] hcs, hskip]

/-- A text with a visible character is not blank. -/
theorem trim_ne_empty {s : String} {c : Char} (hc : c ∈ s.toList) (hvisible : is_whitespace c = false) : trim s ≠ "" := by
  intro hblank
  have hchars : trimChars s.toList = [] := by
    rw [← String.toList_ofList (l := trimChars s.toList)]
    exact congrArg String.toList hblank
  have hrest : ∀ d ∈ s.toList.dropWhile is_whitespace, is_whitespace d = true := by
    simpa [trimChars, List.dropWhile_eq_nil_iff] using hchars
  rw [← List.takeWhile_append_dropWhile (p := is_whitespace) (l := s.toList)] at hc
  rcases List.mem_append.mp hc with hc | hc
  · exact absurd (List.mem_takeWhile_imp hc) (by simp [hvisible])
  · exact absurd (hrest c hc) (by simp [hvisible])

/-- The JSON reader and writer the program calls. They come from a library
    outside the repository, so every model function takes them as a parameter. -/
structure Serde where
  /-- Reads one document, rejecting anything else. -/
  from_str : String → Option Value
  /-- Writes a document in compact form. -/
  to_string : Value → String

/-- The documented behavior the program relies on: reading back what was
    written, objects without repeated keys, compact output, and rejection of the
    texts that are no document. -/
structure Serde.Lawful (serde : Serde) : Prop where
  from_str_to_string : ∀ v, v.WellFormed → serde.from_str (serde.to_string v) = some v
  from_str_wellFormed : ∀ s v, serde.from_str s = some v → v.WellFormed
  trim_to_string : ∀ v, v.WellFormed → trim (serde.to_string v) = serde.to_string v
  from_str_empty : serde.from_str "" = none
  from_str_done : serde.from_str "[DONE]" = none

/-- Compact output is one line: a line break in a string is written as an escape. -/
def Serde.OneLine (serde : Serde) : Prop := ∀ v, '\n' ∉ (serde.to_string v).toList

/-- A text of nothing but whitespace is no document. -/
def Serde.RejectsBlank (serde : Serde) : Prop := ∀ s, trim s = "" → serde.from_str s = none

namespace Serde.Lawful

variable {serde : Serde} (hserde : serde.Lawful) {v : Value} (hv : v.WellFormed)

include hserde hv

theorem to_string_ne_empty : serde.to_string v ≠ "" := by
  intro heq
  have hread := hserde.from_str_to_string v hv
  rw [heq, hserde.from_str_empty] at hread
  cases hread

theorem to_string_ne_done : serde.to_string v ≠ "[DONE]" := by
  intro heq
  have hread := hserde.from_str_to_string v hv
  rw [heq, hserde.from_str_done] at hread
  cases hread

end Serde.Lawful

end refract.json
