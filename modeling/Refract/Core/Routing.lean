import Mathlib.Algebra.Order.Ring.Nat
import Mathlib.Data.Prod.Lex
import Refract.Core.Channel

namespace refract.core

/-- How the candidates of a tier are ordered. -/
inductive SelectionMode where
  | weightedRandom
  | roundRobin
  | first
  deriving DecidableEq, Repr

structure RoutingPolicy where
  native_first : Bool := true
  selection : SelectionMode := .weightedRandom
  /-- Zero stands for no limit. -/
  max_attempts : Nat := 3
  retry_same_channel : Bool := false
  /-- Zero stands for no limit. -/
  max_upstream_calls : Nat := 8
  deriving DecidableEq, Repr

/-- What a candidate is ordered by. -/
structure RankKey where
  native : Bool
  priority : Int
  endpoint_order : Nat
  deriving DecidableEq, Repr

namespace RankKey

variable (self other : RankKey) (native_first : Bool)

def native_rank : Int := if native_first then if self.native then 1 else 0 else 0

/-- Larger comes first. -/
def tier : Int ×ₗ Int ×ₗ Int :=
  toLex (self.native_rank native_first, toLex (self.priority, -(self.endpoint_order : Int)))

def same_tier : Bool :=
  self.native_rank native_first = other.native_rank native_first && self.priority = other.priority

end RankKey

/-- A source of random numbers. -/
structure Rng (ρ : Type) where
  random_range : (total : Nat) → 0 < total → ρ → Fin total × ρ

/-- The place of the weight in whose share a point lies. -/
def locate (point : Nat) : List Nat → Option Nat
  | [] => none
  | w :: weights => if point < w then some 0 else (locate (point - w) weights).map (· + 1)

/-- The shares of some weights, none of which is empty. -/
def effective (weights : List Nat) : List Nat := weights.map (max · 1)

/-- The place of a weight at a point of all their shares. -/
def pick_at (weights : List Nat) (point : Nat) : Nat := (locate point (effective weights)).getD ((effective weights).length - 1)

theorem effective_sum_pos {weights : List Nat} (hweights : weights ≠ []) : 0 < (effective weights).sum := by
  cases weights with
  | nil => exact absurd rfl hweights
  | cons w weights =>
    rw [effective, List.map_cons, List.sum_cons]
    omega

/-- A point below the sum of some shares lies in as many places as a share has
    points. -/
theorem locate_share (shares : List Nat) (idx : Nat) (hidx : idx < shares.length) :
    (List.range shares.sum).countP (fun point => locate point shares = some idx) = shares[idx] := by
  induction shares generalizing idx with
  | nil => cases hidx
  | cons w shares ih =>
    have hfirst : ∀ point ∈ List.range w, locate point (w :: shares) = some 0 := by
      intro point hpoint
      rw [locate, if_pos (List.mem_range.mp hpoint)]
    have hlater : ∀ point, locate (w + point) (w :: shares) = (locate point shares).map (· + 1) := by
      intro point
      rw [locate, if_neg (by omega), Nat.add_sub_cancel_left]
    rw [List.sum_cons, List.range_add, List.countP_append, List.countP_map]
    cases idx with
    | zero =>
      have hall : (List.range w).countP (fun point => locate point (w :: shares) = some 0) = w := by
        rw [List.countP_eq_length.mpr (fun point hpoint => by simp [hfirst point hpoint]), List.length_range]
      have hnone : (List.range shares.sum).countP
          ((fun point => decide (locate point (w :: shares) = some 0)) ∘ (w + ·)) = 0 := by
        rw [List.countP_eq_zero]
        intro point _
        simp [hlater point]
      rw [hall, hnone]
      rfl
    | succ idx =>
      have hnone : (List.range w).countP (fun point => locate point (w :: shares) = some (idx + 1)) = 0 := by
        rw [List.countP_eq_zero]
        intro point hpoint
        simp [hfirst point hpoint]
      have hrest : (List.range shares.sum).countP
          ((fun point => decide (locate point (w :: shares) = some (idx + 1))) ∘ (w + ·)) =
            (List.range shares.sum).countP (fun point => locate point shares = some idx) := by
        congr 1
        funext point
        simp [hlater point]
      rw [hnone, hrest, Nat.zero_add, ih idx (Nat.lt_of_succ_lt_succ hidx)]
      rfl

theorem locate_isSome {point : Nat} {shares : List Nat} (hpoint : point < shares.sum) :
    ∃ idx, locate point shares = some idx ∧ idx < shares.length := by
  induction shares generalizing point with
  | nil => cases hpoint
  | cons w shares ih =>
    by_cases hfirst : point < w
    · exact ⟨0, by rw [locate, if_pos hfirst], Nat.succ_pos _⟩
    · rw [List.sum_cons] at hpoint
      obtain ⟨idx, hidx, hlt⟩ := @ih (point - w) (by omega)
      exact ⟨idx + 1, by rw [locate, if_neg hfirst, hidx, Option.map_some], Nat.succ_lt_succ hlt⟩

/-- A pick at a point of the shares is a place among the weights. -/
theorem pick_at_lt {weights : List Nat} {point : Nat} (hpoint : point < (effective weights).sum) :
    pick_at weights point < weights.length := by
  obtain ⟨idx, hidx, hlt⟩ := locate_isSome hpoint
  rw [pick_at, hidx, Option.getD_some]
  rwa [effective, List.length_map] at hlt

/-- Every weight is picked at as many points as it weighs, and at one if it
    weighs nothing. -/
theorem pick_at_share (weights : List Nat) (idx : Nat) (hidx : idx < weights.length) :
    (List.range (effective weights).sum).countP (fun point => pick_at weights point = idx) = max weights[idx] 1 := by
  have hlength : idx < (effective weights).length := by rwa [effective, List.length_map]
  have hshare : (effective weights)[idx] = max weights[idx] 1 := by simp [effective]
  rw [← hshare, ← locate_share _ _ hlength]
  refine List.countP_congr fun point hpoint => ?_
  obtain ⟨place, hplace, -⟩ := locate_isSome (List.mem_range.mp hpoint)
  simp [pick_at, hplace]

def weighted_pick {ρ : Type} (rng : Rng ρ) (weights : List Nat) (source : ρ) : Option Nat × ρ :=
  if hweights : weights = [] then (none, source)
  else
    let drawn := rng.random_range (effective weights).sum (effective_sum_pos hweights) source
    (some (pick_at weights drawn.1), drawn.2)

end refract.core
