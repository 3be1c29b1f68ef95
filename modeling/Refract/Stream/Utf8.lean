import Mathlib.Data.List.Basic

namespace refract.stream

abbrev Bytes := List UInt8

/-- The bytes of a text. -/
def as_bytes (s : String) : Bytes := s.toUTF8.data.toList

/-- Where text stops being UTF-8. Without a length the bytes end too early. -/
structure Utf8Error where
  valid_up_to : Nat
  error_len : Option Nat
  deriving DecidableEq, Repr

namespace Utf8Error

def to_string (self : Utf8Error) : String :=
  match self.error_len with
  | some len =>
    "invalid utf-8 sequence of " ++ toString len ++ " bytes from index " ++ toString self.valid_up_to
  | none => "incomplete utf-8 byte sequence from index " ++ toString self.valid_up_to

end Utf8Error

def is_utf8 (bytes : Bytes) : Bool := (String.fromUTF8? ⟨bytes.toArray⟩).isSome

def is_continuation (b : UInt8) : Bool := 0x80 ≤ b && b ≤ 0xBF

/-- How many of the bytes after a first byte belong to its character, and
    between which bounds the first of them lies. -/
def sequence_of (first : UInt8) : Option (Nat × UInt8 × UInt8) :=
  if 0xC2 ≤ first && first ≤ 0xDF then some (1, 0x80, 0xBF)
  else if first == 0xE0 then some (2, 0xA0, 0xBF)
  else if first == 0xED then some (2, 0x80, 0x9F)
  else if 0xE1 ≤ first && first ≤ 0xEF then some (2, 0x80, 0xBF)
  else if first == 0xF0 then some (3, 0x90, 0xBF)
  else if 0xF1 ≤ first && first ≤ 0xF3 then some (3, 0x80, 0xBF)
  else if first == 0xF4 then some (3, 0x80, 0x8F)
  else none

/-- The length of the bytes that are no character, none where more bytes could
    have made them one. -/
def invalid_length : Bytes → Option Nat
  | [] => none
  | first :: rest =>
    match sequence_of first with
    | none => some 1
    | some (more, low, high) =>
      match rest with
      | [] => none
      | second :: rest =>
        if low ≤ second && second ≤ high then
          let tail := rest.takeWhile is_continuation
          if tail.length = rest.length then none else some (min (tail.length + 2) more)
        else some 1

/-- The longest prefix that is text. -/
def valid_up_to (bytes : Bytes) : Nat :=
  (((List.range (bytes.length + 1)).filter fun n => is_utf8 (bytes.take n)).getLast?).getD 0

def utf8_error (bytes : Bytes) : Utf8Error :=
  let valid_up_to := valid_up_to bytes
  { valid_up_to, error_len := invalid_length (bytes.drop valid_up_to) }

/-- Bytes as text. -/
def from_utf8 (bytes : Bytes) : Except Utf8Error String :=
  match String.fromUTF8? ⟨bytes.toArray⟩ with
  | some s => .ok s
  | none => .error (utf8_error bytes)

/-- The bytes of a text are that text. -/
theorem from_utf8_as_bytes (s : String) : from_utf8 (as_bytes s) = .ok s := by
  have hread : String.fromUTF8? ⟨(as_bytes s).toArray⟩ = some s := by
    simp [as_bytes, String.fromUTF8?, String.fromUTF8, s.isValidUTF8]
  rw [from_utf8, hread]

section Text

variable (s t : String)

theorem as_bytes_eq : as_bytes s = s.toList.flatMap String.utf8EncodeChar := by
  have hencode : s.toUTF8 = (s.toList.flatMap String.utf8EncodeChar).toByteArray := String.utf8Encode_toList.symm
  rw [as_bytes, hencode, List.data_toByteArray, List.toList_toArray]

theorem as_bytes_append : as_bytes (s ++ t) = as_bytes s ++ as_bytes t := by
  rw [as_bytes_eq, as_bytes_eq, as_bytes_eq, String.toList_append, List.flatMap_append]

variable {s}

/-- A byte of seven bits is a character, and only that character has it. -/
theorem mem_utf8EncodeChar {b : UInt8} (hb : b.toNat < 128) (c : Char) :
    b ∈ String.utf8EncodeChar c ↔ c.toNat = b.toNat := by
  have hchar : c.toNat = c.val.toNat := rfl
  unfold String.utf8EncodeChar
  dsimp only
  rw [hchar]
  -- The bytes of a longer character all have the eighth bit.
  split
  · simp only [List.mem_singleton, ← UInt8.toNat_inj, UInt8.toNat_ofNat']
    omega
  · split
    · simp only [List.mem_cons, List.not_mem_nil, or_false, ← UInt8.toNat_inj, UInt8.toNat_ofNat']
      omega
    · split
      · simp only [List.mem_cons, List.not_mem_nil, or_false, ← UInt8.toNat_inj, UInt8.toNat_ofNat']
        omega
      · simp only [List.mem_cons, List.not_mem_nil, or_false, ← UInt8.toNat_inj, UInt8.toNat_ofNat']
        omega

theorem mem_as_bytes {b : UInt8} (hb : b.toNat < 128) : b ∈ as_bytes s ↔ ∃ c ∈ s.toList, c.toNat = b.toNat := by
  rw [as_bytes_eq, List.mem_flatMap]
  simp only [mem_utf8EncodeChar hb]

end Text

end refract.stream
