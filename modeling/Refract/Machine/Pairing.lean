import Mathlib.Data.List.Basic
import Mathlib.Tactic.Common

namespace refract.machine

variable {ν α β : Type} [DecidableEq ν]

/-- Someone asks under a name, or replies under one. What identifies the remark is
    its tag. -/
inductive Remark (ν α : Type) where
  | ask (name : ν) (tag : α)
  | reply (name : ν) (tag : α)

namespace Remark

/-- Another tag for a remark, as its name and tag say. -/
def retag (f : ν → α → β) : Remark ν α → Remark ν β
  | .ask name tag => .ask name (f name tag)
  | .reply name tag => .reply name (f name tag)

/-- The name and the tag of what is asked. -/
def asked : Remark ν α → Option (ν × α)
  | .ask name tag => some (name, tag)
  | .reply _ _ => none

end Remark

/-- What is asked in one turn. -/
def asks (remarks : List (Remark ν α)) : List (ν × α) := remarks.filterMap Remark.asked

/-- Takes out what was asked first under a name. -/
def take_ask (name : ν) : List (ν × α) → Option (α × List (ν × α))
  | [] => none
  | (other, tag) :: waiting =>
    if other = name then some (tag, waiting)
    else (take_ask name waiting).map fun (found, rest) => (found, (other, tag) :: rest)

/-- Pairs the replies of a turn with what waits for one, under each name in order. -/
def pair_replies : List (ν × α) → List (Remark ν α) → Option (List (ν × α × α) × List (ν × α))
  | waiting, [] => some ([], waiting)
  | waiting, .ask _ _ :: remarks => pair_replies waiting remarks
  | waiting, .reply name tag :: remarks =>
    (take_ask name waiting).bind fun (found, rest) =>
      (pair_replies rest remarks).map fun (pairs, left) => ((name, found, tag) :: pairs, left)

/-- Pairs the replies of a dialogue. What the caller asks in a turn waits from then
    on, instead of what it asked before. -/
def pair_turns : List (ν × α) → List (Bool × List (Remark ν α)) → Option (List (ν × α × α))
  | _, [] => some []
  | waiting, (caller, remarks) :: turns =>
    (pair_replies waiting remarks).bind fun (pairs, left) =>
      (pair_turns (if caller then asks remarks else left) turns).map (pairs ++ ·)

section Retag

variable (f : ν → α → β)

def retag_ask (asked : ν × α) : ν × β := (asked.1, f asked.1 asked.2)

def retag_pair (pair : ν × α × α) : ν × β × β := (pair.1, f pair.1 pair.2.1, f pair.1 pair.2.2)

omit [DecidableEq ν] in
theorem asks_retag (remarks : List (Remark ν α)) : asks (remarks.map (Remark.retag f)) = (asks remarks).map (retag_ask f) := by
  rw [asks, asks, List.filterMap_map, List.map_filterMap]
  refine List.filterMap_congr fun remark _ => ?_
  cases remark <;> rfl

theorem take_ask_retag (name : ν) (waiting : List (ν × α)) :
    take_ask name (waiting.map (retag_ask f)) =
      (take_ask name waiting).map fun taken => (f name taken.1, taken.2.map (retag_ask f)) := by
  induction waiting with
  | nil => rfl
  | cons asked waiting ih =>
    obtain ⟨other, tag⟩ := asked
    rw [List.map_cons, retag_ask, take_ask, take_ask]
    split
    next hname =>
      subst hname
      rfl
    · rw [ih, Option.map_map, Option.map_map]
      rfl

theorem pair_replies_retag (waiting : List (ν × α)) (remarks : List (Remark ν α)) :
    pair_replies (waiting.map (retag_ask f)) (remarks.map (Remark.retag f)) =
      (pair_replies waiting remarks).map fun paired => (paired.1.map (retag_pair f), paired.2.map (retag_ask f)) := by
  induction remarks generalizing waiting with
  | nil => rfl
  | cons remark remarks ih =>
    cases remark with
    | ask name tag => exact ih waiting
    | reply name tag =>
      rw [List.map_cons, Remark.retag, pair_replies, pair_replies, take_ask_retag]
      cases take_ask name waiting with
      | none => rfl
      | some found =>
        obtain ⟨found, rest⟩ := found
        rw [Option.map_some, Option.bind_some, Option.bind_some]
        dsimp only
        rw [ih, Option.map_map, Option.map_map]
        rfl

/-- Pairs do not depend on how remarks are tagged. -/
theorem pair_turns_retag (waiting : List (ν × α)) (turns : List (Bool × List (Remark ν α))) :
    pair_turns (waiting.map (retag_ask f)) (turns.map fun turn => (turn.1, turn.2.map (Remark.retag f))) =
      (pair_turns waiting turns).map (List.map (retag_pair f)) := by
  induction turns generalizing waiting with
  | nil => rfl
  | cons turn turns ih =>
    obtain ⟨caller, remarks⟩ := turn
    rw [List.map_cons, pair_turns, pair_turns, pair_replies_retag]
    cases pair_replies waiting remarks with
    | none => rfl
    | some paired =>
      obtain ⟨pairs, left⟩ := paired
      have hwaiting : (if caller then asks (remarks.map (Remark.retag f)) else left.map (retag_ask f)) =
          (if caller then asks remarks else left).map (retag_ask f) := by
        cases caller with
        | true => exact asks_retag f remarks
        | false => rfl
      rw [Option.map_some, Option.bind_some, Option.bind_some]
      dsimp only
      rw [hwaiting, ih, Option.map_map, Option.map_map]
      refine congrFun (congrArg _ (funext fun later => ?_)) _
      exact (List.map_append).symm

end Retag

end refract.machine
