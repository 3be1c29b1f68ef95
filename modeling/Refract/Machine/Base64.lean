import Mathlib.Tactic.Common

namespace refract.machine.base64

/-- The characters of the groups of six bits. -/
def alphabet : List Char := "ABCDEFGHIJKLMNOPQRSTUVWXYZabcdefghijklmnopqrstuvwxyz0123456789+/".toList

def symbol (group : Nat) : Char := alphabet.getD group '='

def group (symbol : Char) : Option Nat := alphabet.idxOf? symbol

/-- Three bytes in four characters. What is missing at the end is filled up. -/
def encode : List UInt8 → List Char
  | [] => []
  | [a] => [symbol (a.toNat / 4), symbol (a.toNat % 4 * 16), '=', '=']
  | [a, b] => [symbol (a.toNat / 4), symbol (a.toNat % 4 * 16 + b.toNat / 16), symbol (b.toNat % 16 * 4), '=']
  | a :: b :: c :: rest =>
    symbol (a.toNat / 4) :: symbol (a.toNat % 4 * 16 + b.toNat / 16) :: symbol (b.toNat % 16 * 4 + c.toNat / 64) ::
      symbol (c.toNat % 64) :: encode rest

/-- The bytes of four groups. -/
def first (w x : Nat) : UInt8 := .ofNat (w * 4 + x / 16)

def second (x y : Nat) : UInt8 := .ofNat (x % 16 * 16 + y / 4)

def third (y z : Nat) : UInt8 := .ofNat (y % 4 * 64 + z)

/-- The last group, where the bits that are left over are zero. -/
def decode_last (a b c : Char) : Option (List UInt8) := do
  let w ← group a
  let x ← group b
  if c = '=' then
    if x % 16 = 0 then some [first w x] else none
  else
    let y ← group c
    if y % 4 = 0 then some [first w x, second x y] else none

def decode : List Char → Option (List UInt8)
  | [] => some []
  | a :: b :: c :: d :: rest =>
    if d = '=' then
      if rest.isEmpty then decode_last a b c else none
    else do
      let w ← group a
      let x ← group b
      let y ← group c
      let z ← group d
      let bytes ← decode rest
      return first w x :: second x y :: third y z :: bytes
  | _ => none

theorem group_symbol {n : Nat} (hn : n < 64) : group (symbol n) = some n := by
  have hall : ∀ n : Fin 64, group (symbol n) = some n.val := by decide +kernel
  exact hall ⟨n, hn⟩

theorem symbol_ne {n : Nat} (hn : n < 64) : symbol n ≠ '=' := by
  intro hsymbol
  have hgroup := group_symbol hn
  rw [hsymbol] at hgroup
  cases hgroup

theorem first_eq {w x : Nat} {byte : UInt8} (hbyte : w * 4 + x / 16 = byte.toNat) : first w x = byte := by
  rw [first, hbyte, UInt8.ofNat_toNat]

theorem second_eq {x y : Nat} {byte : UInt8} (hbyte : x % 16 * 16 + y / 4 = byte.toNat) : second x y = byte := by
  rw [second, hbyte, UInt8.ofNat_toNat]

theorem third_eq {y z : Nat} {byte : UInt8} (hbyte : y % 4 * 64 + z = byte.toNat) : third y z = byte := by
  rw [third, hbyte, UInt8.ofNat_toNat]

/-- What was encoded is read back. -/
theorem decode_encode (bytes : List UInt8) : decode (encode bytes) = some bytes := by
  induction bytes using encode.induct with
  | case1 => rfl
  | case2 a =>
    have ha := a.toNat_lt
    have hw : group (symbol (a.toNat / 4)) = some _ := group_symbol (by omega)
    have hx : group (symbol (a.toNat % 4 * 16)) = some _ := group_symbol (by omega)
    have hfirst : first (a.toNat / 4) (a.toNat % 4 * 16) = a := first_eq (by omega)
    simp [encode, decode, decode_last, hw, hx, hfirst]
  | case3 a b =>
    have ha := a.toNat_lt
    have hb := b.toNat_lt
    have hw : group (symbol (a.toNat / 4)) = some _ := group_symbol (by omega)
    have hx : group (symbol (a.toNat % 4 * 16 + b.toNat / 16)) = some _ := group_symbol (by omega)
    have hlast : b.toNat % 16 * 4 < 64 := by omega
    have hfirst : first (a.toNat / 4) (a.toNat % 4 * 16 + b.toNat / 16) = a := first_eq (by omega)
    have hsecond : second (a.toNat % 4 * 16 + b.toNat / 16) (b.toNat % 16 * 4) = b := second_eq (by omega)
    simp [encode, decode, decode_last, hw, hx, group_symbol hlast, symbol_ne hlast, hfirst, hsecond]
  | case4 a b c rest ih =>
    have ha := a.toNat_lt
    have hb := b.toNat_lt
    have hc := c.toNat_lt
    have hw : group (symbol (a.toNat / 4)) = some _ := group_symbol (by omega)
    have hx : group (symbol (a.toNat % 4 * 16 + b.toNat / 16)) = some _ := group_symbol (by omega)
    have hy : group (symbol (b.toNat % 16 * 4 + c.toNat / 64)) = some _ := group_symbol (by omega)
    have hlast : c.toNat % 64 < 64 := by omega
    have hfirst : first (a.toNat / 4) (a.toNat % 4 * 16 + b.toNat / 16) = a := first_eq (by omega)
    have hsecond : second (a.toNat % 4 * 16 + b.toNat / 16) (b.toNat % 16 * 4 + c.toNat / 64) = b := second_eq (by omega)
    have hthird : third (b.toNat % 16 * 4 + c.toNat / 64) (c.toNat % 64) = c := third_eq (by omega)
    simp [encode, decode, hw, hx, hy, group_symbol hlast, symbol_ne hlast, ih, hfirst, hsecond, hthird]

theorem symbol_mem (n : Nat) : symbol n ∈ '=' :: alphabet := by
  rw [symbol, List.getD_eq_getElem?_getD]
  cases hget : alphabet[n]? with
  | none => exact .head _
  | some c => exact .tail _ (List.mem_of_getElem? hget)

/-- What is encoded is written in the alphabet, but for what fills up its end. -/
theorem mem_encode {bytes : List UInt8} {c : Char} (hc : c ∈ encode bytes) : c ∈ '=' :: alphabet := by
  induction bytes using encode.induct with
  | case1 => cases hc
  | case2 a =>
    simp only [encode, List.mem_cons, List.not_mem_nil, or_false] at hc
    rcases hc with rfl | rfl | rfl | rfl
    · exact symbol_mem _
    · exact symbol_mem _
    · exact .head _
    · exact .head _
  | case3 a b =>
    simp only [encode, List.mem_cons, List.not_mem_nil, or_false] at hc
    rcases hc with rfl | rfl | rfl | rfl
    · exact symbol_mem _
    · exact symbol_mem _
    · exact symbol_mem _
    · exact .head _
  | case4 a b d rest ih =>
    rw [encode] at hc
    simp only [List.mem_cons] at hc
    rcases hc with rfl | rfl | rfl | rfl | hc
    · exact symbol_mem _
    · exact symbol_mem _
    · exact symbol_mem _
    · exact symbol_mem _
    · exact ih hc

end refract.machine.base64
