import Mathlib.Order.Lattice
import Refract.Ir.Request

namespace refract.ir.ReasoningConfig

/-- The limit that a budget is derived from. -/
def ceiling (max_output : Option Nat) : Nat := max_output.getD 32000

def of_effort (effort : String) : ReasoningConfig := { effort := some effort }

/-- What is asked of the budgets that are derived from levels. -/
structure EffortSound (max_output : Option Nat) : Prop where
  /-- The product that is formed for the highest level is not too large for the machine. -/
  fits : 1024 < ceiling max_output → ceiling max_output * 4 ≤ U32_MAX
  inside : ∀ self : ReasoningConfig, self.budget_tokens = none → ∀ budget, self.budget_or_from_effort max_output = some budget →
    1024 ≤ budget ∧ budget < ceiling max_output
  ascending : ∀ low medium high, (of_effort "low").budget_or_from_effort max_output = some low →
    (of_effort "medium").budget_or_from_effort max_output = some medium →
    (of_effort "high").budget_or_from_effort max_output = some high → low ≤ medium ∧ medium ≤ high
  back : 8192 ≤ ceiling max_output → ∀ effort ∈ ["low", "medium", "high"], ∀ budget,
    (of_effort effort).budget_or_from_effort max_output = some budget →
      effort_or_from_budget { budget_tokens := some budget } max_output = some effort

variable {max_output : Option Nat}

theorem budget_of_low (hroom : 1024 < ceiling max_output) :
    (of_effort "low").budget_or_from_effort max_output = some (min (max (ceiling max_output / 5) 1024) (ceiling max_output - 1)) :=
  if_neg (Nat.not_le_of_lt hroom)

theorem budget_of_medium (hroom : 1024 < ceiling max_output) :
    (of_effort "medium").budget_or_from_effort max_output = some (min (max (ceiling max_output / 2) 1024) (ceiling max_output - 1)) :=
  if_neg (Nat.not_le_of_lt hroom)

theorem budget_of_high (hroom : 1024 < ceiling max_output) :
    (of_effort "high").budget_or_from_effort max_output =
      some (min (max (ceiling max_output * 4 % 4294967296 / 5) 1024) (ceiling max_output - 1)) :=
  if_neg (Nat.not_le_of_lt hroom)

/-- A budget that is derived leaves room for an answer. -/
theorem budget_inside {self : ReasoningConfig} (hnone : self.budget_tokens = none) {budget : Nat}
    (hbudget : self.budget_or_from_effort max_output = some budget) : 1024 ≤ budget ∧ budget < ceiling max_output := by
  unfold budget_or_from_effort at hbudget
  rw [hnone] at hbudget
  obtain ⟨effort, -, hbudget⟩ := Option.bind_eq_some_iff.mp hbudget
  dsimp only at hbudget
  split at hbudget
  · cases hbudget
  next hroom =>
    obtain ⟨share, -, rfl⟩ := Option.map_eq_some_iff.mp hbudget
    unfold ceiling
    omega

theorem product_eq (hlimit : ceiling max_output < 1073741824) : ceiling max_output * 4 % 4294967296 = ceiling max_output * 4 :=
  Nat.mod_eq_of_lt (by omega)

/-- A product that does not fit leaves less than half of the limit. -/
theorem share_lt_of_not_fits (hlarge : 1073741824 ≤ ceiling max_output) :
    ceiling max_output * 4 % 4294967296 / 5 < ceiling max_output / 2 := by
  by_cases hsmall : ceiling max_output < 2147483648
  · have hwrapped : ceiling max_output * 4 % 4294967296 = ceiling max_output * 4 - 4294967296 := by
      rw [Nat.mod_eq_sub_mod (by omega), Nat.mod_eq_of_lt (by omega)]
    omega
  · have hbound := Nat.mod_lt (ceiling max_output * 4) (show 0 < 4294967296 by decide)
    omega

theorem ascending_of_lt (hlimit : ceiling max_output < 1073741824) {low medium high : Nat}
    (hlow : (of_effort "low").budget_or_from_effort max_output = some low)
    (hmedium : (of_effort "medium").budget_or_from_effort max_output = some medium)
    (hhigh : (of_effort "high").budget_or_from_effort max_output = some high) : low ≤ medium ∧ medium ≤ high := by
  have hroom : 1024 < ceiling max_output := by
    have hinside := budget_inside rfl hlow
    omega
  rw [budget_of_low hroom] at hlow
  rw [budget_of_medium hroom] at hmedium
  rw [budget_of_high hroom] at hhigh
  obtain rfl := Option.some.inj hlow
  obtain rfl := Option.some.inj hmedium
  obtain rfl := Option.some.inj hhigh
  rw [product_eq hlimit]
  omega

theorem effort_of_budget (budget : Nat) (hpos : 0 < ceiling max_output) :
    effort_or_from_budget { budget_tokens := some budget } max_output =
      some (if 65 * ceiling max_output ≤ 100 * budget then "high" else if 35 * ceiling max_output ≤ 100 * budget then "medium" else "low") := by
  have hmax : max (ceiling max_output) 1 = ceiling max_output := max_eq_left hpos
  simp only [effort_or_from_budget, Option.map_some]
  rw [ceiling] at hmax ⊢
  rw [hmax]

theorem back_of_lt (hlimit : ceiling max_output < 1073741824) (hlarge : 8192 ≤ ceiling max_output) {effort : String}
    (heffort : effort ∈ ["low", "medium", "high"]) {budget : Nat} (hbudget : (of_effort effort).budget_or_from_effort max_output = some budget) :
    effort_or_from_budget { budget_tokens := some budget } max_output = some effort := by
  have hroom : 1024 < ceiling max_output := by omega
  rw [effort_of_budget budget (by omega)]
  simp only [List.mem_cons, List.not_mem_nil, or_false] at heffort
  rcases heffort with rfl | rfl | rfl
  · rw [budget_of_low hroom] at hbudget
    obtain rfl := Option.some.inj hbudget
    rw [if_neg (by omega), if_neg (by omega)]
  · rw [budget_of_medium hroom] at hbudget
    obtain rfl := Option.some.inj hbudget
    rw [if_neg (by omega), if_pos (by omega)]
  · rw [budget_of_high hroom] at hbudget
    obtain rfl := Option.some.inj hbudget
    rw [product_eq hlimit, if_pos (by omega)]

/-- The levels are converted as they should be under every limit for which four times the limit is
    a number of the machine, and under no other: there the highest level stands for fewer tokens
    than the one below it. -/
theorem effort_sound_iff (max_output : Option Nat) : EffortSound max_output ↔ ceiling max_output < 1073741824 := by
  constructor
  · intro hsound
    by_contra hlarge
    have hroom : 1024 < ceiling max_output := by omega
    have hshare := share_lt_of_not_fits (Nat.le_of_not_lt hlarge)
    have hascending := (hsound.ascending _ _ _ (budget_of_low hroom) (budget_of_medium hroom) (budget_of_high hroom)).2
    omega
  · intro hlimit
    refine ⟨fun _ => ?_, fun self hnone budget hbudget => budget_inside hnone hbudget, fun low medium high hlow hmedium hhigh => ?_,
      fun hlarge effort heffort budget hbudget => back_of_lt hlimit hlarge heffort hbudget⟩
    · unfold U32_MAX
      omega
    · exact ascending_of_lt hlimit hlow hmedium hhigh

/-- Under the largest limit the highest level stands for less than the one below it. -/
theorem high_below_medium :
    (of_effort "medium").budget_or_from_effort (some 4294967295) = some 2147483647 ∧
      (of_effort "high").budget_or_from_effort (some 4294967295) = some 858993458 :=
  ⟨rfl, rfl⟩

end refract.ir.ReasoningConfig
