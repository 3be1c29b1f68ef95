import Mathlib.Data.List.Perm.Subperm
import Refract.Router.Execute
import Refract.Router.Rotation

open refract.core refract.json refract.stream refract.upstream

namespace refract.router

/-- A call that an effect is. -/
def Effect.call {route : Route} : Effect route → Option (route.Place × UpstreamRequest)
  | .sent idx request => some (idx, request)
  | .success _ | .failure _ _ | .commit _ _ => none

/-- A call with its answer, which is missing while it is awaited. -/
structure Exchange (route : Route) (ρ : Type) where
  attempt : Attempt route
  answer : Option (Moment × ρ)

/-- The call of an attempt. -/
def Attempt.call {route : Route} (self : Attempt route) : route.Place × UpstreamRequest :=
  (self.idx, self.request self.rotator.current)

/-- An empty answer, for which the same call is made again. -/
def Verdict.is_retry_empty {α : Type} : Verdict α → Bool
  | .retry_empty => true
  | .accepted _ | .rejected _ | .failed _ | .dropped _ => false

namespace Loop

variable {route : Route} {ρ α : Type} (loop : Loop route ρ α)

/-- The calls that are made from a state on. -/
def exchanges : List (Moment × ρ) → State route α → List (Exchange route ρ)
  | _, .finished _ => []
  | [], .awaiting _ attempt _ => [⟨attempt, none⟩]
  | reply :: replies, .awaiting progress attempt rest =>
    ⟨attempt, some reply⟩ :: exchanges replies (loop.step (.awaiting progress attempt rest) reply.1 reply.2).state

/-- The answer to a call is empty. -/
def empty (e : Exchange route ρ) : Bool :=
  e.answer.any fun reply => (loop.judge e.attempt.idx reply.1 e.attempt.empty_retries reply.2).is_retry_empty

/-- Every key of a candidate is used once, apart from calls whose answer was
    empty. -/
structure KeysOnce (max_retries : Nat) (idx : route.Place) (calls : List (Exchange route ρ)) : Prop where
  own : ∀ e ∈ calls, e.attempt.idx = idx ∧
    e.attempt.rotator.pool = (route.candidate idx).channel.key_pool (route.candidate idx).endpoint
  once : ((calls.filter (!loop.empty ·)).map (·.attempt.rotator.place)).Nodup
  resent : (calls.filter loop.empty).length ≤ max_retries

/-- The visits of an execution to some candidates, one after another, each with
    the calls that were made to the candidate. -/
inductive Accounts (max_retries : route.Place → Nat) : List route.Place → List (route.Place × List (Exchange route ρ)) → Prop where
  | done (rest : List route.Place) : Accounts max_retries rest []
  | skipped (idx : route.Place) (attempts : Nat) (error : GatewayError) (hskipped : loop.prepare idx attempts = .skipped error)
      {rest visits} (hrest : Accounts max_retries rest visits) : Accounts max_retries (idx :: rest) ((idx, []) :: visits)
  /-- No call could be made any more. -/
  | stopped (idx : route.Place) (rest : List route.Place) : Accounts max_retries (idx :: rest) [(idx, [])]
  | served (idx : route.Place) (calls : List (Exchange route ρ)) (hmade : calls ≠ [])
      (hcalls : loop.KeysOnce (max_retries idx) idx calls)
      {rest visits} (hrest : Accounts max_retries rest visits) : Accounts max_retries (idx :: rest) ((idx, calls) :: visits)

section Steps

/-- A call is made and awaited, unless all calls are used up. -/
theorem call_cases (progress : Progress) (attempt : Attempt route) (rest : List route.Place) :
    ((call progress attempt rest : Turn route α) = { state := .finished (.error .budget_exhausted) }) ∨
    ((0 < route.max_upstream_calls → progress.upstream_calls < route.max_upstream_calls) ∧
      (call progress attempt rest : Turn route α) =
        { state := .awaiting { progress with upstream_calls := min (progress.upstream_calls + 1) 4294967295 } attempt rest
          effects := [.sent attempt.idx (attempt.request attempt.rotator.current)] }) := by
  unfold call check_budget
  by_cases hbudget : 0 < route.max_upstream_calls ∧ route.max_upstream_calls ≤ progress.upstream_calls
  · rw [if_pos hbudget]
    exact .inl rfl
  · rw [if_neg hbudget]
    exact .inr ⟨by omega, rfl⟩

/-- What an answer leads to. -/
inductive Stepped (progress : Progress) (attempt : Attempt route) (rest : List route.Place) (moment : Moment) (reply : ρ) :
    Turn route α → Prop where
  | finished (hempty : (loop.judge attempt.idx moment attempt.empty_retries reply).is_retry_empty = false)
      (result : Except GatewayError (RouteOutcome α)) (effects : List (Effect route)) (heffects : effects.filterMap Effect.call = []) :
      Stepped progress attempt rest moment reply { state := .finished result, effects }
  | again (hempty : (loop.judge attempt.idx moment attempt.empty_retries reply).is_retry_empty = true) :
      Stepped progress attempt rest moment reply
        (call progress.attempt { attempt with empty_retries := attempt.empty_retries + 1 } rest)
  | rotated (hempty : (loop.judge attempt.idx moment attempt.empty_retries reply).is_retry_empty = false)
      {kind : ErrorKind} {rotator : KeyRotator} (hrotate : attempt.rotator.rotate kind = (true, rotator)) :
      Stepped progress attempt rest moment reply (call progress.attempt { attempt with rotator } rest)
  | moved (hempty : (loop.judge attempt.idx moment attempt.empty_retries reply).is_retry_empty = false)
      (error : GatewayError) (effects : List (Effect route)) (heffects : effects.filterMap Effect.call = []) :
      Stepped progress attempt rest moment reply ((loop.visit { progress with last_error := error } rest).after effects)

theorem record_failure_call (idx : route.Place) (error : GatewayError) :
    (record_failure idx error).filterMap Effect.call = [] := by
  unfold record_failure
  split <;> rfl

theorem step_stepped (progress : Progress) (attempt : Attempt route) (rest : List route.Place) (moment : Moment) (reply : ρ) :
    loop.Stepped progress attempt rest moment reply (loop.step (.awaiting progress attempt rest) moment reply) := by
  simp only [step]
  cases hjudge : loop.judge attempt.idx moment attempt.empty_retries reply with
  | accepted payload =>
    refine .finished (by rw [hjudge]; rfl) _ _ ?_
    split <;> split <;> rfl
  | retry_empty => exact .again (by rw [hjudge]; rfl)
  | rejected error => exact .finished (by rw [hjudge]; rfl) _ _ (record_failure_call _ _)
  | dropped error => exact .moved (by rw [hjudge]; rfl) error [] rfl
  | failed error =>
    have hempty : (loop.judge attempt.idx moment attempt.empty_retries reply).is_retry_empty = false := by rw [hjudge]; rfl
    simp only [on_failure]
    cases hrotate : attempt.rotator.rotate error.kind with
    | mk rotated rotator =>
      cases rotated with
      | true => exact .rotated hempty hrotate
      | false =>
        dsimp only
        split
        · exact .moved hempty _ _ (record_failure_call _ _)
        · exact .finished hempty _ _ (record_failure_call _ _)

end Steps

section Visits

variable {loop} {max_retries : route.Place → Nat}

/-- The calls of an attempt and of those that follow it at its candidate. -/
structure Follows (loop : Loop route ρ α) (max_retries : route.Place → Nat) (attempt : Attempt route)
    (calls : List (Exchange route ρ)) : Prop where
  own : ∀ e ∈ calls, e.attempt.idx = attempt.idx ∧ e.attempt.rotator.pool = attempt.rotator.pool
  once : ((calls.filter (!loop.empty ·)).map (·.attempt.rotator.place)).IsPrefix attempt.rotator.keys_left
  resent : (calls.filter loop.empty).length ≤ max_retries attempt.idx - attempt.empty_retries

namespace Follows

variable {attempt : Attempt route} {calls : List (Exchange route ρ)}

theorem nil (attempt : Attempt route) : Follows loop max_retries attempt [] where
  own := by simp
  once := by simp
  resent := by simp

/-- A call after which the candidate is left. -/
theorem last {answer : Option (Moment × ρ)} (hanswer : loop.empty ⟨attempt, answer⟩ = false) :
    Follows loop max_retries attempt [⟨attempt, answer⟩] where
  own := by simp
  once := by simpa [hanswer] using attempt.rotator.keys_left_cons
  resent := by simp [hanswer]

/-- A call that is made again. -/
theorem again {reply : Moment × ρ}
    (hempty : (loop.judge attempt.idx reply.1 attempt.empty_retries reply.2).is_retry_empty = true)
    (hretries : attempt.empty_retries < max_retries attempt.idx)
    (hcalls : Follows loop max_retries { attempt with empty_retries := attempt.empty_retries + 1 } calls) :
    Follows loop max_retries attempt (⟨attempt, some reply⟩ :: calls) where
  own := by
    intro e he
    rcases List.mem_cons.mp he with rfl | he
    · exact ⟨rfl, rfl⟩
    · exact hcalls.own e he
  once := by
    have hfirst : loop.empty ⟨attempt, some reply⟩ = true := hempty
    simpa [hfirst] using hcalls.once
  resent := by
    have hfirst : loop.empty ⟨attempt, some reply⟩ = true := hempty
    have hresent := hcalls.resent
    rw [List.filter_cons_of_pos hfirst, List.length_cons]
    dsimp only at hresent
    omega

/-- A call that is made with the next key. -/
theorem rotated {reply : Moment × ρ} {kind : ErrorKind} {rotator : KeyRotator}
    (hempty : (loop.judge attempt.idx reply.1 attempt.empty_retries reply.2).is_retry_empty = false)
    (hrotate : attempt.rotator.rotate kind = (true, rotator))
    (hcalls : Follows loop max_retries { attempt with rotator } calls) :
    Follows loop max_retries attempt (⟨attempt, some reply⟩ :: calls) where
  own := by
    intro e he
    rcases List.mem_cons.mp he with rfl | he
    · exact ⟨rfl, rfl⟩
    · have hown := hcalls.own e he
      rw [(KeyRotator.rotate_eq_true hrotate).2] at hown
      exact hown
  once := by
    have hfirst : loop.empty ⟨attempt, some reply⟩ = false := hempty
    rw [List.filter_cons_of_pos (by rw [hfirst]; rfl), List.map_cons, KeyRotator.keys_left_of_rotate hrotate]
    exact (List.prefix_cons_inj _).mpr hcalls.once
  resent := by
    have hfirst : loop.empty ⟨attempt, some reply⟩ = false := hempty
    rw [List.filter_cons_of_neg (by simp [hfirst])]
    exact hcalls.resent

/-- The calls at a candidate from its first on. -/
theorem keysOnce {idx : route.Place} {request : Credential → UpstreamRequest}
    (hcalls : Follows loop max_retries
      { idx, request, rotator := { pool := (route.candidate idx).channel.key_pool (route.candidate idx).endpoint
                                   index := loop.first_index idx } } calls) :
    loop.KeysOnce (max_retries idx) idx calls where
  own := hcalls.own
  once := hcalls.once.sublist.nodup (KeyRotator.keys_left_nodup Nat.one_pos)
  resent := hcalls.resent

end Follows

/-- An empty answer is retried only so often. -/
def Retries (loop : Loop route ρ α) (max_retries : route.Place → Nat) : Prop :=
  ∀ (idx : route.Place) (moment : Moment) (empty_retries : Nat) (reply : ρ),
    (loop.judge idx moment empty_retries reply).is_retry_empty = true → empty_retries < max_retries idx

/-- The calls after which some answers are taken in, from the call of an attempt
    on. -/
def Served (loop : Loop route ρ α) (max_retries : route.Place → Nat) (replies : List (Moment × ρ)) : Prop :=
  ∀ (progress : Progress) (attempt : Attempt route) (rest : List route.Place),
    ∃ own visits, loop.exchanges replies (.awaiting progress attempt rest) = own ++ visits.flatMap (·.2) ∧
      own ≠ [] ∧ Follows loop max_retries attempt own ∧ loop.Accounts max_retries rest visits

variable {replies : List (Moment × ρ)}

theorem call_served (hserved : Served loop max_retries replies) (progress : Progress) (attempt : Attempt route)
    (rest : List route.Place) :
    ∃ own visits, loop.exchanges replies (call progress attempt rest).state = own ++ visits.flatMap (·.2) ∧
      (own = [] → visits = []) ∧ Follows loop max_retries attempt own ∧ loop.Accounts max_retries rest visits := by
  rcases call_cases (α := α) progress attempt rest with hexhausted | ⟨-, hcall⟩
  · rw [hexhausted]
    exact ⟨[], [], by simp [exchanges], fun _ => rfl, .nil attempt, .done rest⟩
  · rw [hcall]
    obtain ⟨own, visits, hexchanges, hmade, hfollows, haccounts⟩ := hserved _ attempt rest
    exact ⟨own, visits, hexchanges, fun hnil => absurd hnil hmade, hfollows, haccounts⟩

theorem visit_accounts (hserved : Served loop max_retries replies) (progress : Progress) (order : List route.Place) :
    ∃ visits, loop.exchanges replies (loop.visit progress order).state = visits.flatMap (·.2) ∧
      loop.Accounts max_retries order visits := by
  induction order generalizing progress with
  | nil => exact ⟨[], by simp [visit, exchanges], .done []⟩
  | cons idx rest ih =>
    rw [visit]
    generalize (if loop.counts_first = true then progress.attempt else progress) = looked
    cases hprepare : loop.prepare idx looked.attempts with
    | skipped error =>
      obtain ⟨visits, hexchanges, haccounts⟩ := ih { looked with last_error := error }
      exact ⟨(idx, []) :: visits, hexchanges, .skipped idx _ error hprepare haccounts⟩
    | aborted error => exact ⟨[(idx, [])], by simp [exchanges], .stopped idx rest⟩
    | ready request =>
      obtain ⟨own, visits, hexchanges, hnone, hfollows, haccounts⟩ := call_served hserved
        (if loop.counts_first then looked else looked.attempt)
        { idx, request, rotator := { pool := (route.candidate idx).channel.key_pool (route.candidate idx).endpoint
                                     index := loop.first_index idx } } rest
      refine ⟨(idx, own) :: visits, hexchanges, ?_⟩
      by_cases hmade : own = []
      · rw [hnone hmade, hmade]
        exact .stopped idx rest
      · exact .served idx own hmade hfollows.keysOnce haccounts

theorem served (hretries : Retries loop max_retries) (replies : List (Moment × ρ)) : Served loop max_retries replies := by
  induction replies with
  | nil =>
    intro progress attempt rest
    exact ⟨[⟨attempt, none⟩], [], rfl, by simp, .last rfl, .done rest⟩
  | cons reply replies ih =>
    intro progress attempt rest
    rw [exchanges]
    have hstep := loop.step_stepped progress attempt rest reply.1 reply.2
    generalize loop.step (.awaiting progress attempt rest) reply.1 reply.2 = turn at hstep
    cases hstep with
    | finished hempty result effects heffects =>
      exact ⟨[⟨attempt, some reply⟩], [], by simp [exchanges], by simp, .last hempty, .done rest⟩
    | again hempty =>
      obtain ⟨own, visits, hexchanges, -, hfollows, haccounts⟩ := call_served ih progress.attempt
        { attempt with empty_retries := attempt.empty_retries + 1 } rest
      exact ⟨_ :: own, visits, congrArg _ hexchanges, by simp, hfollows.again hempty (hretries _ _ _ _ hempty), haccounts⟩
    | rotated hempty hrotate =>
      obtain ⟨own, visits, hexchanges, -, hfollows, haccounts⟩ := call_served ih progress.attempt _ rest
      exact ⟨_ :: own, visits, congrArg _ hexchanges, by simp, hfollows.rotated hempty hrotate, haccounts⟩
    | moved hempty error effects heffects =>
      obtain ⟨visits, hexchanges, haccounts⟩ := visit_accounts ih { progress with last_error := error } rest
      exact ⟨[⟨attempt, some reply⟩], visits, congrArg _ hexchanges, by simp, .last hempty, haccounts⟩

/-- Every run accounts for its calls. -/
theorem exchanges_accounts (hretries : Retries loop max_retries) (replies : List (Moment × ρ)) (order : List route.Place) :
    ∃ visits, loop.exchanges replies (loop.start order).state = visits.flatMap (·.2) ∧ loop.Accounts max_retries order visits :=
  visit_accounts (served hretries replies) _ order

end Visits

section Budget

variable {loop}

/-- The calls after which some answers are taken in keep to the budget. -/
def Within (loop : Loop route ρ α) (replies : List (Moment × ρ)) : Prop :=
  ∀ (progress : Progress) (attempt : Attempt route) (rest : List route.Place),
    progress.upstream_calls ≤ route.max_upstream_calls →
    (loop.exchanges replies (.awaiting progress attempt rest)).length + progress.upstream_calls ≤ route.max_upstream_calls + 1

variable {replies : List (Moment × ρ)} (hpositive : 0 < route.max_upstream_calls) (hrange : route.max_upstream_calls < 256)

include hpositive hrange

theorem call_within (hwithin : Within loop replies) (progress : Progress) (attempt : Attempt route)
    (rest : List route.Place) (hcalls : progress.upstream_calls ≤ route.max_upstream_calls) :
    (loop.exchanges replies (call progress attempt rest).state).length + progress.upstream_calls ≤ route.max_upstream_calls := by
  rcases call_cases (α := α) progress attempt rest with hexhausted | ⟨hleft, hcall⟩
  · rw [hexhausted, exchanges]
    simpa using hcalls
  · rw [hcall]
    have hbelow := hleft hpositive
    have hnext := hwithin { progress with upstream_calls := min (progress.upstream_calls + 1) 4294967295 } attempt rest
    have hcount : min (progress.upstream_calls + 1) 4294967295 = progress.upstream_calls + 1 := by omega
    simp only [hcount] at hnext ⊢
    have hlength := hnext (by omega)
    omega

theorem visit_within (hwithin : Within loop replies) (progress : Progress) (order : List route.Place)
    (hcalls : progress.upstream_calls ≤ route.max_upstream_calls) :
    (loop.exchanges replies (loop.visit progress order).state).length + progress.upstream_calls ≤ route.max_upstream_calls := by
  induction order generalizing progress with
  | nil => simpa [visit, exchanges] using hcalls
  | cons idx rest ih =>
    rw [visit]
    have hlooked : (if loop.counts_first = true then progress.attempt else progress).upstream_calls = progress.upstream_calls := by
      split <;> rfl
    generalize (if loop.counts_first = true then progress.attempt else progress) = looked at hlooked ⊢
    rw [← hlooked] at hcalls ⊢
    cases loop.prepare idx looked.attempts with
    | skipped error => exact ih { looked with last_error := error } hcalls
    | aborted error => simpa [exchanges] using hcalls
    | ready request =>
      have hcounted : (if loop.counts_first = true then looked else looked.attempt).upstream_calls = looked.upstream_calls := by
        split <;> rfl
      have hcall := call_within hpositive hrange hwithin _
        { idx, request, rotator := { pool := (route.candidate idx).channel.key_pool (route.candidate idx).endpoint
                                     index := loop.first_index idx } } rest (hcounted ▸ hcalls)
      rwa [hcounted] at hcall

theorem within (replies : List (Moment × ρ)) : Within loop replies := by
  induction replies with
  | nil =>
    intro progress attempt rest hcalls
    rw [exchanges, List.length_singleton]
    omega
  | cons reply replies ih =>
    intro progress attempt rest hcalls
    rw [exchanges, List.length_cons]
    have hstep := loop.step_stepped progress attempt rest reply.1 reply.2
    generalize loop.step (.awaiting progress attempt rest) reply.1 reply.2 = turn at hstep
    have hturn : (loop.exchanges replies turn.state).length + progress.upstream_calls ≤ route.max_upstream_calls := by
      cases hstep with
      | finished hempty result effects heffects => simpa [exchanges] using hcalls
      | again hempty => exact call_within hpositive hrange ih progress.attempt _ rest hcalls
      | rotated hempty hrotate => exact call_within hpositive hrange ih progress.attempt _ rest hcalls
      | moved hempty error effects heffects =>
        exact visit_within hpositive hrange ih { progress with last_error := error } rest hcalls
    omega

/-- No more calls are made than the budget has. -/
theorem exchanges_within (replies : List (Moment × ρ)) (order : List route.Place) :
    (loop.exchanges replies (loop.start order).state).length ≤ route.max_upstream_calls :=
  visit_within hpositive hrange (within hpositive hrange replies) { last_error := no_candidates route } order (Nat.zero_le _)

end Budget

section Sending

variable {loop}

/-- The call for whose answer a state waits. -/
def awaited : State route α → List (route.Place × UpstreamRequest)
  | .awaiting _ attempt _ => [attempt.call]
  | .finished _ => []

/-- A turn makes the call for whose answer it waits, and no other. -/
def Makes (turn : Turn route α) : Prop := turn.effects.filterMap Effect.call = awaited turn.state

theorem call_makes (progress : Progress) (attempt : Attempt route) (rest : List route.Place) :
    Makes (call progress attempt rest : Turn route α) := by
  rcases call_cases (α := α) progress attempt rest with hexhausted | ⟨-, hcall⟩
  · rw [hexhausted]
    rfl
  · rw [hcall]
    rfl

theorem visit_makes (progress : Progress) (order : List route.Place) : Makes (loop.visit progress order) := by
  induction order generalizing progress with
  | nil => rfl
  | cons idx rest ih =>
    rw [visit]
    generalize (if loop.counts_first = true then progress.attempt else progress) = looked
    cases loop.prepare idx looked.attempts with
    | skipped error => exact ih _
    | aborted error => rfl
    | ready request => exact call_makes _ _ rest

variable (loop) in
theorem step_makes (state : State route α) (moment : Moment) (reply : ρ) : Makes (loop.step state moment reply) := by
  cases state with
  | finished result => rfl
  | awaiting progress attempt rest =>
    have hstep := loop.step_stepped progress attempt rest moment reply
    generalize loop.step (.awaiting progress attempt rest) moment reply = turn at hstep
    cases hstep with
    | finished hempty result effects heffects => exact heffects
    | again hempty => exact call_makes _ _ rest
    | rotated hempty hrotate => exact call_makes _ _ rest
    | moved hempty error effects heffects =>
      unfold Makes Turn.after
      rw [List.filterMap_append, heffects]
      exact visit_makes _ rest

variable (loop) in
/-- The turn after an answer, with all that was done before. -/
def next (turn : Turn route α) (reply : Moment × ρ) : Turn route α := (loop.step turn.state reply.1 reply.2).after turn.effects

theorem exchanges_awaited (replies : List (Moment × ρ)) (state : State route α) :
    (loop.exchanges replies state).map (·.attempt.call) =
      awaited state ++ ((loop.exchanges replies state).map (·.attempt.call)).drop 1 := by
  cases state with
  | finished result => cases replies <;> rfl
  | awaiting progress attempt rest => cases replies <;> rfl

theorem foldl_calls (replies : List (Moment × ρ)) (turn : Turn route α) :
    (replies.foldl loop.next turn).effects.filterMap Effect.call =
      turn.effects.filterMap Effect.call ++ ((loop.exchanges replies turn.state).map (·.attempt.call)).drop 1 := by
  induction replies generalizing turn with
  | nil => cases hstate : turn.state <;> simp [exchanges]
  | cons reply replies ih =>
    have hmakes := loop.step_makes turn.state reply.1 reply.2
    rw [List.foldl_cons, ih, next, Turn.after, List.filterMap_append, List.append_assoc]
    dsimp only
    rw [show (loop.step turn.state reply.1 reply.2).effects.filterMap Effect.call = _ from hmakes, ← exchanges_awaited]
    cases hstate : turn.state with
    | finished result => simp [step, exchanges]
    | awaiting progress attempt rest => simp [exchanges]

/-- The calls that a run sends are those of its exchanges. -/
theorem run_calls (order : List route.Place) (replies : List (Moment × ρ)) :
    (loop.run order replies).effects.filterMap Effect.call =
      (loop.exchanges replies (loop.start order).state).map (·.attempt.call) := by
  have hmakes : Makes (loop.start order) := visit_makes _ order
  rw [exchanges_awaited, ← hmakes]
  exact foldl_calls replies (loop.start order)

/-- A run that still waits has made a call for every answer, and one more. -/
theorem foldl_awaiting (replies : List (Moment × ρ)) (turn : Turn route α)
    (hwaits : ∀ result, (replies.foldl loop.next turn).state ≠ .finished result) :
    (loop.exchanges replies turn.state).length = replies.length + 1 := by
  induction replies generalizing turn with
  | nil =>
    cases hstate : turn.state with
    | finished result => exact absurd hstate (hwaits result)
    | awaiting progress attempt rest => rfl
  | cons reply replies ih =>
    rw [List.foldl_cons] at hwaits
    have hlength := ih _ hwaits
    cases hstate : turn.state with
    | finished result =>
      rw [next, Turn.after, hstate, step] at hlength
      cases replies <;> cases hlength
    | awaiting progress attempt rest =>
      rw [next, Turn.after, hstate] at hlength
      rw [exchanges, List.length_cons, hlength, List.length_cons]

end Sending

section Containment

variable {loop} {max_retries : route.Place → Nat} {order : List route.Place}
  {visits : List (route.Place × List (Exchange route ρ))}

/-- As many calls as a candidate may get. -/
def calls_limit (max_retries : route.Place → Nat) (idx : route.Place) : Nat :=
  ((route.candidate idx).channel.key_pool (route.candidate idx).endpoint).len + max_retries idx

theorem KeysOnce.length_le {idx : route.Place} {calls : List (Exchange route ρ)}
    (hcalls : loop.KeysOnce (max_retries idx) idx calls) : calls.length ≤ calls_limit max_retries idx := by
  let used := (calls.filter (!loop.empty ·)).map (·.attempt.rotator.place)
  have hplaces : used ⊆ List.range ((route.candidate idx).channel.key_pool (route.candidate idx).endpoint).len := by
    intro place hplace
    obtain ⟨e, he, rfl⟩ := List.mem_map.mp hplace
    have hpool := (hcalls.own e (List.mem_of_mem_filter he)).2
    rw [KeyRotator.place, hpool, List.mem_range]
    exact Nat.mod_lt _ (KeyPool.len_pos _)
  have hused : used.length ≤ _ := (List.subperm_of_subset hcalls.once hplaces).length_le
  have hresent := hcalls.resent
  have hsplit := calls.length_eq_length_filter_add loop.empty
  rw [List.length_map, List.length_range] at hused
  rw [calls_limit]
  omega

/-- Candidates are visited in order, and none is passed over. -/
theorem Accounts.visited (haccounts : loop.Accounts max_retries order visits) : (visits.map (·.1)).IsPrefix order := by
  induction haccounts with
  | done rest => exact List.nil_prefix
  | skipped idx attempts error hskipped hrest ih => exact (List.prefix_cons_inj idx).mpr ih
  | stopped idx rest => exact List.prefix_append [idx] rest
  | served idx calls hmade hcalls hrest ih => exact (List.prefix_cons_inj idx).mpr ih

theorem Accounts.calls_le (haccounts : loop.Accounts max_retries order visits) :
    (visits.flatMap (·.2)).length ≤ (order.map (calls_limit max_retries)).sum := by
  induction haccounts with
  | done rest => exact Nat.zero_le _
  | stopped idx rest => exact Nat.zero_le _
  | skipped idx attempts error hskipped hrest ih =>
    rw [List.flatMap_cons, List.nil_append, List.map_cons, List.sum_cons]
    omega
  | served idx calls hmade hcalls hrest ih =>
    have hlength := hcalls.length_le
    simp only [List.flatMap_cons, List.length_append, List.map_cons, List.sum_cons]
    omega

/-- An execution ends, visits the candidates one after another, but not more than
    the cap, and keeps to the keys and to the budget. -/
structure Contained (loop : Loop route ρ α) (max_retries : route.Place → Nat) (cap : Nat)
    (order candidates : List route.Place) : Prop where
  terminates : ∃ answers, ∀ replies, answers ≤ replies.length → ∃ result, (loop.run order replies).state = .finished result
  accounted : ∀ replies, ∃ visits, loop.Accounts max_retries order visits ∧
    (visits.map (·.1)).IsPrefix candidates ∧ visits.length ≤ cap ∧
    (loop.run order replies).effects.filterMap Effect.call = (visits.flatMap (·.2)).map (·.attempt.call)
  budget : 0 < route.max_upstream_calls → ∀ replies,
    ((loop.run order replies).effects.filterMap Effect.call).length ≤ route.max_upstream_calls

theorem run_finishes (hretries : Retries loop max_retries) (order : List route.Place) {replies : List (Moment × ρ)}
    (hanswers : (order.map (calls_limit max_retries)).sum ≤ replies.length) :
    ∃ result, (loop.run order replies).state = .finished result := by
  by_contra hnot
  obtain ⟨visits, hexchanges, haccounts⟩ := exchanges_accounts hretries replies order
  have hwaiting := foldl_awaiting replies (loop.start order) fun result hfinished => hnot ⟨result, hfinished⟩
  have hcalls := haccounts.calls_le
  rw [← hexchanges, hwaiting] at hcalls
  omega

theorem contained (hretries : Retries loop max_retries) {cap : Nat} {candidates : List route.Place}
    (hcap : order.length ≤ cap) (horder : order.IsPrefix candidates) (hrange : route.max_upstream_calls < 256) :
    loop.Contained max_retries cap order candidates where
  terminates := ⟨_, fun _ hanswers => run_finishes hretries order hanswers⟩
  accounted := by
    intro replies
    obtain ⟨visits, hexchanges, haccounts⟩ := exchanges_accounts hretries replies order
    have hvisited := haccounts.visited
    refine ⟨visits, haccounts, hvisited.trans horder, ?_, by rw [run_calls, hexchanges]⟩
    have hlength := hvisited.length_le
    rw [List.length_map] at hlength
    exact hlength.trans hcap
  budget := by
    intro hpositive replies
    rw [run_calls, List.length_map]
    exact exchanges_within hpositive hrange replies order

end Containment

end Loop

/-- The candidates of a route, those last that are suspended. -/
def Route.healthy_first (route : Route) (suspended_until : Int → Protocol → Option Nat) : List route.Place :=
  let is_down := fun idx => (suspended_until (route.candidate idx).channel_id (route.candidate idx).protocol).isSome
  (List.finRange route.attempts.length).filter (!is_down ·) ++ (List.finRange route.attempts.length).filter is_down

theorem prioritize_prefix (config : RouterConfig) (suspended_until : Int → Protocol → Option Nat) (route : Route) :
    (prioritize config suspended_until route).IsPrefix (route.healthy_first suspended_until) := by
  unfold prioritize
  refine (List.take_prefix _ _).trans ?_
  split
  · exact List.prefix_rfl
  · exact List.prefix_append _ _

theorem prioritize_length_le (config : RouterConfig) (suspended_until : Int → Protocol → Option Nat) (route : Route) :
    (prioritize config suspended_until route).length ≤ max route.attempt_cap 1 := List.length_take_le _ _

theorem should_retry_empty_lt {policy : EmptyResponseRetryPolicy} {first_byte_to_end : Duration} {retries : Nat}
    (h : should_retry_empty policy first_byte_to_end retries = true) : retries < policy.max_retries := by
  simp only [should_retry_empty, Bool.and_eq_true, decide_eq_true_eq] at h
  exact h.1.2

namespace RouteExecutor

variable {Request : Type} (executor : RouteExecutor Request) (route : Route) (first_index : route.Place → Nat)

/-- How often empty answers of a candidate are retried. -/
def max_retries (idx : route.Place) : Nat := (executor.empty_response_retry_for (route.candidate idx)).max_retries

section Judging

variable {route}

theorem judge_transcoded_retries (moment : Moment) (protocol : Protocol) {policy : EmptyResponseRetryPolicy} {retries : Nat}
    (reply : Reply)
    (hempty : (judge_transcoded executor.serde executor.texts moment protocol policy retries reply).is_retry_empty = true) :
    retries < policy.max_retries := by
  unfold judge_transcoded at hempty
  split at hempty
  · split at hempty
    next hretry => exact should_retry_empty_lt hretry.2
    next =>
      split at hempty
      · cases hempty
      · split at hempty
        · split at hempty
          next hretry => exact should_retry_empty_lt hretry.2
          next => cases hempty
        · cases hempty
  · cases hempty

theorem judge_native_retries (moment : Moment) (protocol : Protocol) {policy : EmptyResponseRetryPolicy} {retries : Nat}
    (reply : Reply)
    (hempty : (judge_native executor.serde executor.texts moment protocol policy retries reply).is_retry_empty = true) :
    retries < policy.max_retries := by
  unfold judge_native at hempty
  split at hempty
  · split at hempty
    · cases hempty
    · split at hempty
      next hretry => exact should_retry_empty_lt hretry.2
      next =>
        split at hempty
        · cases hempty
        · cases hempty
  · cases hempty

theorem judge_stream_retries {policy : EmptyResponseRetryPolicy} {retries : Nat} {deliver : OpenedStream → Verdict RoutedStream}
    (hdeliver : ∀ opened, (deliver opened).is_retry_empty = false) (reply : StreamReply)
    (hempty : (judge_stream policy retries deliver reply).is_retry_empty = true) : retries < policy.max_retries := by
  unfold judge_stream at hempty
  split at hempty
  · cases hempty
  next opened =>
    split at hempty
    next hretry =>
      obtain ⟨duration, -, hretry⟩ := (Option.any_eq_true _ _).mp hretry
      exact should_retry_empty_lt hretry
    next =>
      rw [hdeliver opened] at hempty
      cases hempty

end Judging

theorem execute_retries (payload : InboundPayload Request) :
    (executor.execute route first_index payload).Retries (executor.max_retries route) := by
  intro idx moment retries reply hempty
  cases payload with
  | normalized ir => exact executor.judge_transcoded_retries moment _ reply hempty
  | raw protocol body model stream headers =>
    simp only [execute, execute_raw] at hempty
    split at hempty
    · exact executor.judge_transcoded_retries moment _ reply hempty
    · exact executor.judge_native_retries moment _ reply hempty

theorem execute_stream_retries (payload : InboundPayload Request) :
    (executor.execute_stream route first_index payload).Retries (executor.max_retries route) := by
  intro idx moment retries reply hempty
  cases payload with
  | normalized ir =>
    refine judge_stream_retries (fun opened => ?_) reply hempty
    split <;> rfl
  | raw protocol body model stream headers =>
    refine judge_stream_retries (fun opened => ?_) reply hempty
    split <;> rfl

theorem execute_passthrough_retries (action : Action) (raw_body : Bytes) (headers : List (String × String))
    (content_type : Option String) :
    (executor.execute_passthrough route first_index action raw_body headers content_type).Retries fun _ => 0 := by
  intro idx moment retries reply hempty
  cases reply <;> cases hempty

/-- Every execution of a route is bounded, and visits the candidates in order. -/
theorem failover_contained (suspended_until : Int → Protocol → Option Nat) (hrange : route.max_upstream_calls < 256) :
    (∀ payload, (executor.execute route first_index payload).Contained (executor.max_retries route) (max route.attempt_cap 1)
      (prioritize executor.config suspended_until route) (route.healthy_first suspended_until)) ∧
    (∀ payload, (executor.execute_stream route first_index payload).Contained (executor.max_retries route)
      (max route.attempt_cap 1) (prioritize executor.config suspended_until route) (route.healthy_first suspended_until)) ∧
    (∀ action raw_body headers content_type,
      (executor.execute_passthrough route first_index action raw_body headers content_type).Contained (fun _ => 0)
        (max route.attempt_cap 1) ((prioritize executor.config suspended_until route).filter route.is_native)
        ((route.healthy_first suspended_until).filter route.is_native)) := by
  have hcap := prioritize_length_le executor.config suspended_until route
  have horder := prioritize_prefix executor.config suspended_until route
  refine ⟨fun payload => ?_, fun payload => ?_, fun action raw_body headers content_type => ?_⟩
  · exact Loop.contained (executor.execute_retries route first_index payload) hcap horder hrange
  · exact Loop.contained (executor.execute_stream_retries route first_index payload) hcap horder hrange
  · exact Loop.contained (executor.execute_passthrough_retries route first_index action raw_body headers content_type)
      ((List.length_filter_le _ _).trans hcap) (horder.filter _) hrange

/-- A route with one candidate, whose cap is zero. -/
def uncapped : Route where
  inbound := .chat
  model := "m"
  attempts := [{
    channel := { id := 1, owner_id := 1, tags := [], visibility := .shared, user_id := none }
    endpoint := { protocol := .chat }
    model := ⟨"m", none⟩
    rank := ⟨true, 0, 0⟩ }]
  attempt_cap := 0
  max_upstream_calls := 8
  identity := none

theorem failover_contained_uncapped :
    (∀ payload, (plain.execute uncapped (fun _ => 0) payload).Contained (plain.max_retries uncapped) (max uncapped.attempt_cap 1)
      (prioritize plain.config (fun _ _ => none) uncapped) (uncapped.healthy_first fun _ _ => none)) ∧
    (∀ payload, (plain.execute_stream uncapped (fun _ => 0) payload).Contained (plain.max_retries uncapped)
      (max uncapped.attempt_cap 1) (prioritize plain.config (fun _ _ => none) uncapped)
      (uncapped.healthy_first fun _ _ => none)) ∧
    (∀ action raw_body headers content_type,
      (plain.execute_passthrough uncapped (fun _ => 0) action raw_body headers content_type).Contained (fun _ => 0)
        (max uncapped.attempt_cap 1) ((prioritize plain.config (fun _ _ => none) uncapped).filter uncapped.is_native)
        ((uncapped.healthy_first fun _ _ => none).filter uncapped.is_native)) :=
  plain.failover_contained uncapped (fun _ => 0) (fun _ _ => none) (by decide)

/-- The candidate is called all the same. -/
theorem uncapped_not_contained :
    ¬ (plain.execute uncapped (fun _ => 0) (.normalized .null)).Contained (plain.max_retries uncapped) uncapped.attempt_cap
      (prioritize plain.config (fun _ _ => none) uncapped) (uncapped.healthy_first fun _ _ => none) := by
  intro hcontained
  obtain ⟨visits, -, -, hcap, hcalls⟩ := hcontained.accounted []
  obtain rfl := List.length_eq_zero_iff.mp (Nat.le_zero.mp hcap)
  have hsent : (((plain.execute uncapped (fun _ => 0) (.normalized .null)).run
      (prioritize plain.config (fun _ _ => none) uncapped) []).effects.filterMap Effect.call).length = 1 := rfl
  rw [hcalls] at hsent
  cases hsent

end RouteExecutor

end refract.router
