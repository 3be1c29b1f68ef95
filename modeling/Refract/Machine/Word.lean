import Mathlib.Algebra.Group.Nat.Defs
import Mathlib.Order.Fin.Basic
import Mathlib.Tactic.Common

namespace refract.machine

section Saturating

variable {n : Nat} (a b : Fin n)

/-- Addition that stops at the largest value. -/
def saturating_add : Fin n :=
  ⟨min (a.val + b.val) (n - 1), by have := a.isLt; omega⟩

/-- Subtraction that stops at zero. -/
def saturating_sub : Fin n := ⟨a.val - b.val, by have := a.isLt; omega⟩

@[simp] theorem saturating_add_val : (saturating_add a b).val = min (a.val + b.val) (n - 1) := rfl

@[simp] theorem saturating_sub_val : (saturating_sub a b).val = a.val - b.val := rfl

end Saturating

/-- A sum of two words that fits is the word of that sum. -/
theorem add_val_of_lt {n : Nat} {a b : Fin n} (hfits : a.val + b.val < n) : (a + b).val = a.val + b.val := by
  rw [Fin.val_add, Nat.mod_eq_of_lt hfits]

section Decimal

/-- The decimal digits of a number, with zeros in front. -/
def decimal : Nat → Nat → List Char
  | 0, _ => []
  | width + 1, n => (n / 10 ^ width).digitChar :: decimal width (n % 10 ^ width)

variable {width m n : Nat}

@[simp] theorem length_decimal (width n : Nat) : (decimal width n).length = width := by
  induction width generalizing n with
  | zero => rfl
  | succ width ih => rw [decimal, List.length_cons, ih]

/-- A number that fits is written in digits alone. -/
theorem isDigit_decimal (hn : n < 10 ^ width) : ∀ c ∈ decimal width n, c.isDigit := by
  induction width generalizing n with
  | zero => simp [decimal]
  | succ width ih =>
    intro c hc
    rw [decimal, List.mem_cons] at hc
    rcases hc with rfl | hc
    · rw [Nat.isDigit_digitChar, decide_eq_true_eq]
      exact Nat.div_lt_of_lt_mul (by rwa [Nat.pow_succ] at hn)
    · exact ih (Nat.mod_lt n (Nat.pow_pos (by decide))) c hc

theorem digitChar_lt_iff (hm : m < 10) (hn : n < 10) : m.digitChar < n.digitChar ↔ m < n := by
  have hdigits : ∀ a < 10, ∀ b < 10, (Nat.digitChar a < Nat.digitChar b ↔ a < b) := by decide
  exact hdigits m hm n hn

theorem digitChar_inj (hm : m < 10) (hn : n < 10) : m.digitChar = n.digitChar ↔ m = n := by
  have hdigits : ∀ a < 10, ∀ b < 10, (Nat.digitChar a = Nat.digitChar b ↔ a = b) := by decide
  exact hdigits m hm n hn

/-- Numbers of one width are in the order of their texts. -/
theorem decimal_append_lt (hm : m < 10 ^ width) (hn : n < 10 ^ width) {as bs : List Char} :
    decimal width m ++ as < decimal width n ++ bs ↔ m < n ∨ m = n ∧ as < bs := by
  induction width generalizing m n with
  | zero =>
    have hzero : m = n := by omega
    simp [decimal, hzero]
  | succ width ih =>
    have hpos : 0 < 10 ^ width := Nat.pow_pos (by decide)
    rw [Nat.pow_succ] at hm hn
    rw [decimal, decimal, List.cons_append, List.cons_append, List.cons_lt_cons_iff,
      digitChar_lt_iff (Nat.div_lt_of_lt_mul hm) (Nat.div_lt_of_lt_mul hn),
      digitChar_inj (Nat.div_lt_of_lt_mul hm) (Nat.div_lt_of_lt_mul hn), ih (Nat.mod_lt m hpos) (Nat.mod_lt n hpos)]
    have hdivm := Nat.div_add_mod m (10 ^ width)
    have hdivn := Nat.div_add_mod n (10 ^ width)
    have hmodm := Nat.mod_lt m hpos
    have hmodn := Nat.mod_lt n hpos
    rcases Nat.lt_trichotomy (m / 10 ^ width) (n / 10 ^ width) with hlt | heq | hgt
    · have hless : m < n := Nat.lt_of_div_lt_div hlt
      simp [hlt, hless]
    · rw [heq] at hdivm
      have hmods : m % 10 ^ width < n % 10 ^ width ↔ m < n := by omega
      have heqs : m % 10 ^ width = n % 10 ^ width ↔ m = n := by omega
      simp [heq, hmods, heqs]
    · have hmore : n < m := Nat.lt_of_div_lt_div hgt
      simp only [Nat.lt_asymm hgt, Nat.ne_of_gt hgt, Nat.lt_asymm hmore, Nat.ne_of_gt hmore, false_and, or_self]

end Decimal

end refract.machine
