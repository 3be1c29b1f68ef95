import Refract.Machine.Vec
import Refract.Router.Preference

open refract.core refract.machine
open scoped List

namespace refract.router.RoutePlanner

section Tiers

variable {ρ : Type} {self : RoutePlanner} {rng : Rng ρ} {round_robin_seq : Option Nat} {source : ρ} {candidates : List Candidate}
  {model : String}

/-- The attempts of one tier. -/
def in_tier (policy : RoutingPolicy) (l : Int ×ₗ Int) (attempts : List Candidate) : List Candidate :=
  attempts.filter (level policy · = l)

/-- The candidates of one tier, in the order in which they are ranked. -/
def tier (policy : RoutingPolicy) (candidates : List Candidate) (l : Int ×ₗ Int) : List Candidate :=
  in_tier policy l (ranked ⟨policy, fun _ => none⟩ candidates)

/-- Every tier is rotated by the same number of places. -/
theorem in_tier_arrange_tiers {tiers : List (List Candidate)} (hselection : self.policy.selection = .roundRobin)
    (htiered : Tiered self.policy tiers) (l : Int ×ₗ Int) :
    in_tier self.policy l (self.arrange_tiers rng round_robin_seq tiers source).1 =
      (in_tier self.policy l tiers.flatten).rotate (round_robin_seq.getD 0) := by
  induction tiers generalizing source with
  | nil => simp [arrange_tiers, in_tier]
  | cons head tiers ih =>
    obtain ⟨hbelow, hdescending⟩ := List.pairwise_cons.mp htiered.descending
    have hlater : Tiered self.policy tiers :=
      ⟨fun t ht => htiered.uniform t (.tail _ ht), hdescending, fun t ht => htiered.sorted t (.tail _ ht)⟩
    obtain ⟨own, hown⟩ := htiered.uniform head (.head _)
    have harranged := self.arrange_tier_prescribed rng head round_robin_seq source
    rw [Prescribed, hselection] at harranged
    dsimp only at harranged
    rw [arrange_tiers, List.flatten_cons, in_tier, in_tier, List.filter_append, List.filter_append]
    by_cases hl : own = l
    · -- Every later tier is of a lower level.
      by_cases hhead : head = []
      · subst hhead
        rw [harranged, List.rotate_nil, List.filter_nil, List.nil_append, List.nil_append]
        exact ih hlater
      · obtain ⟨c, hc⟩ := List.exists_mem_of_ne_nil head hhead
        have hnone : tiers.flatten.filter (level self.policy · = l) = [] := by
          refine List.filter_eq_nil_iff.mpr fun b hb => ?_
          obtain ⟨t, ht, hbt⟩ := List.mem_flatten.mp hb
          have hlt := hbelow t ht c hc b hbt
          rw [hown c hc, hl] at hlt
          simpa using hlt.ne
        have hlater_none := @ih (self.arrange_tier rng head round_robin_seq source).2 hlater
        rw [in_tier, in_tier, hnone, List.rotate_nil] at hlater_none
        have hall : ∀ xs : List Candidate, (∀ b ∈ xs, b ∈ head) → xs.filter (level self.policy · = l) = xs := by
          intro xs hxs
          refine List.filter_eq_self.mpr fun b hb => ?_
          simpa using (hown b (hxs b hb)).trans hl
        rw [hlater_none, hnone, hall head fun b hb => hb, hall _ fun b hb => List.mem_rotate.mp (harranged ▸ hb), harranged,
          List.append_nil, List.append_nil]
    · have hnone : ∀ xs : List Candidate, (∀ b ∈ xs, b ∈ head) → xs.filter (level self.policy · = l) = [] := by
        intro xs hxs
        refine List.filter_eq_nil_iff.mpr fun b hb => ?_
        simpa using fun heq => hl ((hown b (hxs b hb)).symm.trans heq)
      rw [hnone head fun b hb => hb, hnone _ fun b hb => List.mem_rotate.mp (harranged ▸ hb), List.nil_append, List.nil_append]
      exact ih hlater

theorem in_tier_order (hselection : self.policy.selection = .roundRobin) (hsome : candidates ≠ []) (l : Int ×ₗ Int) :
    in_tier self.policy l (self.order rng candidates model source).1 =
      (tier self.policy candidates l).rotate ((self.round_robin_cursors model).getD 0) := by
  have htiered := self.ranked_tiered candidates
  have harranged := @in_tier_arrange_tiers ρ self rng (self.next_sequence model).1 source _ hselection htiered l
  rw [flatten_runs] at harranged
  have hsequence : (self.next_sequence model).1 = some ((self.round_robin_cursors model).getD 0) := by
    rw [next_sequence, hselection]
  rw [hsequence] at harranged
  have hempty : candidates.isEmpty = false := by simpa using hsome
  rw [order, hempty]
  dsimp only [Bool.false_eq_true, if_false]
  rw [hsequence]
  exact harranged

end Tiers

section Turns

variable {ρ : Type}

/-- A request that a route is planned for, with the settings and the channels of the moment. -/
structure PlanRequest (ρ : Type) where
  policy : RoutingPolicy
  channels : List Channel
  model : String
  inbound : Protocol
  source : ρ

def PlanRequest.candidates (self : PlanRequest ρ) : List Candidate := collect self.channels self.model self.inbound

variable (rng : Rng ρ)

/-- Plans the route of a request. The planner is made for the request, from the cursors that all
    requests share. -/
def PlanRequest.plan (self : PlanRequest ρ) (cursors : RoundRobinCursors) : Route × RoundRobinCursors :=
  let planned := RoutePlanner.plan ⟨self.policy, cursors⟩ rng self.channels self.model self.inbound self.source
  (planned.1, planned.2.1.round_robin_cursors)

/-- The routes that are planned for one model, one request after another. -/
def plan_all (model : String) : RoundRobinCursors → List (PlanRequest ρ) → List Route
  | _, [] => []
  | cursors, request :: requests =>
    let planned := request.plan rng cursors
    if request.model = model then planned.1 :: plan_all model planned.2 requests else plan_all model planned.2 requests

variable {rng} {cursors : RoundRobinCursors} {model : String} {policy : RoutingPolicy} {candidates : List Candidate}
  {request : PlanRequest ρ}

/-- Plans for other models leave the rotation of a model where it is. -/
theorem cursor_of_other_model (hmodel : request.model ≠ model) : (request.plan rng cursors).2 model = cursors model := by
  rw [PlanRequest.plan, RoutePlanner.plan, order]
  split
  · rfl
  · dsimp only
    unfold next_sequence
    split
    · exact Function.update_of_ne hmodel.symm ..
    · rfl

/-- A plan for a model moves its rotation on by one. -/
theorem cursor_of_model (hselection : request.policy.selection = .roundRobin) (hsome : request.candidates ≠ []) :
    (request.plan rng cursors).2 request.model = some (((cursors request.model).getD 0 + 1) % 18446744073709551616) := by
  have hempty : (collect request.channels request.model request.inbound).isEmpty = false := by
    simpa [PlanRequest.candidates] using hsome
  rw [PlanRequest.plan, RoutePlanner.plan, order, hempty]
  dsimp only [Bool.false_eq_true, if_false]
  unfold next_sequence
  rw [hselection]
  exact Function.update_self ..

theorem in_tier_plan (hselection : request.policy.selection = .roundRobin) (hsome : request.candidates ≠ []) (l : Int ×ₗ Int) :
    in_tier request.policy l (request.plan rng cursors).1.attempts =
      (tier request.policy request.candidates l).rotate ((cursors request.model).getD 0) :=
  @in_tier_order ρ ⟨request.policy, cursors⟩ rng request.source request.candidates request.model hselection hsome l

/-- The routes of a model rotate its tiers on and on. -/
theorem in_tier_plan_all {requests : List (PlanRequest ρ)} (hselection : policy.selection = .roundRobin) (hsome : candidates ≠ [])
    (hsame : ∀ request ∈ requests, request.model = model → request.policy = policy ∧ request.candidates = candidates)
    (hcursor : (cursors model).getD 0 + (plan_all rng model cursors requests).length ≤ 18446744073709551616) (l : Int ×ₗ Int) :
    (plan_all rng model cursors requests).map (in_tier policy l ·.attempts) =
      (List.range (plan_all rng model cursors requests).length).map fun turn =>
        (tier policy candidates l).rotate ((cursors model).getD 0 + turn) := by
  induction requests generalizing cursors with
  | nil => rfl
  | cons request requests ih =>
    have hlater := fun other hother => hsame other (List.mem_cons_of_mem request hother)
    rw [plan_all] at hcursor ⊢
    by_cases hmodel : request.model = model
    · obtain ⟨rfl, rfl⟩ := hsame request (.head _) hmodel
      rw [if_pos hmodel] at hcursor ⊢
      rw [List.length_cons] at hcursor
      have hmoved := @cursor_of_model ρ rng cursors request hselection hsome
      rw [hmodel] at hmoved
      have hnext : ((request.plan rng cursors).2 model).getD 0 = ((cursors model).getD 0 + 1) % 18446744073709551616 := by
        rw [hmoved, Option.getD_some]
      have hfirst := @in_tier_plan ρ rng cursors request hselection hsome l
      have hrest := @ih (request.plan rng cursors).2 hlater (by rw [hnext]; omega)
      rw [List.map_cons, hfirst, hrest, hnext, hmodel, List.length_cons, List.range_succ_eq_map, List.map_cons, List.map_map,
        Nat.add_zero]
      refine congrArg _ (List.map_congr_left fun turn hturn => ?_)
      have hbound := List.mem_range.mp hturn
      have hsum : ((cursors model).getD 0 + 1) % 18446744073709551616 + turn = (cursors model).getD 0 + (turn + 1) := by omega
      rw [hsum]
      rfl
    · have hkept := @cursor_of_other_model ρ rng cursors model request hmodel
      rw [if_neg hmodel] at hcursor ⊢
      rw [← hkept] at hcursor ⊢
      exact ih hlater hcursor

/-- In as many plans of a model as a tier of it has candidates, each of them is the first of the
    tier once, and the others follow in turn. -/
theorem round_robin_fair {requests : List (PlanRequest ρ)} {window : List Route} (hselection : policy.selection = .roundRobin)
    (hsame : ∀ request ∈ requests, request.model = model → request.policy = policy ∧ request.candidates = candidates)
    (hcursor : (cursors model).getD 0 + (plan_all rng model cursors requests).length ≤ 18446744073709551616) (l : Int ×ₗ Int)
    (hwindow : window <:+: plan_all rng model cursors requests) (hlength : window.length = (tier policy candidates l).length) :
    (window.filterMap fun route => (in_tier policy l route.attempts).head?).Perm (tier policy candidates l) ∧
      ∀ route ∈ window, in_tier policy l route.attempts ~r tier policy candidates l := by
  by_cases hsome : candidates = []
  · subst hsome
    have hnone : tier policy [] l = [] := by simp [tier, in_tier, ranked, sort_by_key, dedup_by_key]
    rw [hnone] at hlength ⊢
    obtain rfl := List.length_eq_zero_iff.mp hlength
    exact ⟨.nil, fun route hroute => absurd hroute List.not_mem_nil⟩
  · obtain ⟨before, after, hsplit⟩ := hwindow
    have hrotated := in_tier_plan_all hselection hsome hsame hcursor l
    rw [← hsplit] at hrotated
    have hturns := map_of_map_append before window after hrotated
    have hrotations : ∀ route ∈ window, ∃ turn, in_tier policy l route.attempts = (tier policy candidates l).rotate turn := by
      intro route hroute
      have hmem : in_tier policy l route.attempts ∈ window.map (in_tier policy l ·.attempts) := List.mem_map_of_mem hroute
      rw [hturns] at hmem
      obtain ⟨turn, -, heq⟩ := List.mem_map.mp hmem
      exact ⟨_, heq.symm⟩
    have hheads : (window.filterMap fun route => (in_tier policy l route.attempts).head?) =
        (tier policy candidates l).rotate ((cursors model).getD 0 + before.length) := by
      have hfirst : (window.filterMap fun route => (in_tier policy l route.attempts).head?) =
          (window.map (in_tier policy l ·.attempts)).filterMap List.head? := by
        rw [List.filterMap_map]
        rfl
      rw [hfirst, hturns, hlength, ← heads_of_rotations]
      simp only [Nat.add_assoc]
    refine ⟨hheads ▸ List.rotate_perm _ _, fun route hroute => ?_⟩
    obtain ⟨turn, heq⟩ := hrotations route hroute
    exact heq ▸ (List.IsRotated.forall _ turn)

def chat_channel (id : Int) : Channel where
  id := id
  owner_id := 1
  tags := []
  visibility := .shared
  user_id := none
  endpoints := [{ protocol := .chat, models := [⟨"m", none⟩, ⟨"n", none⟩] }]

def by_rotation : RoutingPolicy := { selection := .roundRobin, retry_same_channel := true }

def chat_request (model : String) : PlanRequest Unit := ⟨by_rotation, [chat_channel 1, chat_channel 2], model, .chat, ()⟩

/-- A plan for another model comes between two plans for a model of two channels. -/
def interleaved : List (PlanRequest Unit) := [chat_request "m", chat_request "n", chat_request "m"]

theorem round_robin_fair_of_interleaved :
    ((plan_all lowest_number "m" (fun _ => none) interleaved).filterMap fun route =>
        (in_tier by_rotation (toLex (1, 0)) route.attempts).head?).Perm (tier by_rotation (chat_request "m").candidates (toLex (1, 0))) ∧
      ∀ route ∈ plan_all lowest_number "m" (fun _ => none) interleaved,
        in_tier by_rotation (toLex (1, 0)) route.attempts ~r tier by_rotation (chat_request "m").candidates (toLex (1, 0)) := by
  have hsame : ∀ request ∈ interleaved, request.model = "m" →
      request.policy = by_rotation ∧ request.candidates = (chat_request "m").candidates := by
    simp [interleaved, chat_request]
  have htier : (tier by_rotation (chat_request "m").candidates (toLex (1, 0))).Perm
      (in_tier by_rotation (toLex (1, 0)) (chat_request "m").candidates) :=
    (ranked_kept ⟨by_rotation, fun _ => none⟩ (chat_request "m").candidates).filter _
  have hlength : (plan_all lowest_number "m" (fun _ => none) interleaved).length =
      (tier by_rotation (chat_request "m").candidates (toLex (1, 0))).length := by
    rw [htier.length_eq]
    rfl
  exact round_robin_fair rfl hsame (by decide +kernel) (toLex (1, 0)) List.infix_rfl hlength

end Turns

end refract.router.RoutePlanner
