import Mathlib.Data.List.Rotate
import Mathlib.Logic.Function.Basic
import Mathlib.Order.Lattice
import Refract.Machine.Vec
import Refract.Router.Plan

open refract.core refract.machine

namespace refract.router

/-- How far the rotation has come, for every model. -/
abbrev RoundRobinCursors := String → Option Nat

structure RoutePlanner where
  policy : RoutingPolicy
  round_robin_cursors : RoundRobinCursors

namespace RoutePlanner

variable (self : RoutePlanner)

/-- What an endpoint of a channel comes to as a candidate. -/
def candidate_of (channel : Channel) (model : String) (inbound : Protocol) (endpoint : ChannelEndpoint) : Option Candidate :=
  if !endpoint.enabled then none
  else
    match endpoint.find_model model with
    | none => none
    | some entry =>
      if !endpoint.transcode.can_serve inbound endpoint.protocol then none
      else
        some {
          channel := channel
          endpoint := endpoint
          model := entry
          rank := {
            native := inbound = endpoint.protocol
            priority := channel.priority
            endpoint_order := endpoint.order } }

/-- All candidates for a request, in no particular order. -/
def collect (channels : List Channel) (model : String) (inbound : Protocol) : List Candidate :=
  channels.flatMap fun channel =>
    if !channel.enabled then [] else channel.endpoints.filterMap (candidate_of channel model inbound)

/-- The order in which a channel prefers its own endpoints. -/
def channel_key (c : Candidate) : Int ×ₗ Bool ×ₗ Nat := toLex (c.channel_id, toLex (!c.rank.native, c.rank.endpoint_order))

/-- The order of the tiers, and within a tier. -/
def tier_key (native_first : Bool) (c : Candidate) : (Int ×ₗ Int ×ₗ Int)ᵒᵈ ×ₗ Int :=
  toLex (OrderDual.toDual (c.rank.tier native_first), c.channel_id)

/-- The place of the rotation for a model, which moves on. -/
def next_sequence (model : String) : Option Nat × RoutePlanner :=
  match self.policy.selection with
  | .roundRobin =>
    let seq := (self.round_robin_cursors model).getD 0
    (some seq, { self with
      round_robin_cursors := Function.update self.round_robin_cursors model (some ((seq + 1) % 18446744073709551616)) })
  | _ => (none, self)

section Arrangement

variable {ρ : Type} (rng : Rng ρ)

/-- Draws candidates by weight until none is left. -/
def draw : Nat → List Candidate → ρ → List Candidate × ρ
  | 0, _, source => ([], source)
  | steps + 1, pool, source =>
    let picked := weighted_pick rng (pool.map (·.channel.weight)) source
    -- The pick lies outside only of an empty pool.
    if hidx : picked.1.getD 0 < pool.length then
      let removed := swap_remove pool ⟨picked.1.getD 0, hidx⟩
      let drawn := draw steps removed.2 picked.2
      (removed.1 :: drawn.1, drawn.2)
    else ([], source)

/-- The order in which the candidates of a tier are tried. -/
def arrange_tier (tier : List Candidate) (round_robin_seq : Option Nat) (source : ρ) : List Candidate × ρ :=
  match self.policy.selection with
  | .first => (tier, source)
  | .roundRobin => (if 1 < tier.length then tier.rotate (round_robin_seq.getD 0 % tier.length) else tier, source)
  | .weightedRandom => draw rng tier.length tier source

def arrange_tiers (round_robin_seq : Option Nat) : List (List Candidate) → ρ → List Candidate × ρ
  | [], source => ([], source)
  | tier :: tiers, source =>
    let arranged := self.arrange_tier rng tier round_robin_seq source
    let later := arrange_tiers round_robin_seq tiers arranged.2
    (arranged.1 ++ later.1, later.2)

/-- The candidates that are tried, in groups of the same rank. -/
def ranked (candidates : List Candidate) : List Candidate :=
  let preferred := sort_by_key channel_key candidates
  let kept := if self.policy.retry_same_channel then preferred else dedup_by_key Candidate.channel_id preferred
  sort_by_key (tier_key self.policy.native_first) kept

def order (candidates : List Candidate) (model : String) (source : ρ) : List Candidate × RoutePlanner × ρ :=
  if candidates.isEmpty then (candidates, self, source)
  else
    let sequence := self.next_sequence model
    let tiers := runs (fun a b => a.rank.same_tier b.rank self.policy.native_first) (self.ranked candidates)
    let arranged := self.arrange_tiers rng sequence.1 tiers source
    (arranged.1, sequence.2, arranged.2)

/-- Plans a request, and moves the rotation and the source of random numbers on. -/
def plan (channels : List Channel) (model : String) (inbound : Protocol) (source : ρ) : Route × RoutePlanner × ρ :=
  let ordered := self.order rng (collect channels model inbound) model source
  ({ inbound := inbound
     model := model
     attempts := ordered.1
     attempt_cap := if self.policy.max_attempts = 0 then 18446744073709551615 else self.policy.max_attempts
     max_upstream_calls := self.policy.max_upstream_calls
     identity := none }, ordered.2)

end Arrangement

section Order

variable (policy : RoutingPolicy)

/-- What decides first in which order candidates are tried. -/
def level (c : Candidate) : Int ×ₗ Int := toLex (c.rank.native_rank policy.native_first, c.rank.priority)

/-- One candidate stands before another in their tier. -/
def Before (a b : Candidate) : Prop :=
  tier_key policy.native_first a < tier_key policy.native_first b ∨
    tier_key policy.native_first a = tier_key policy.native_first b ∧ channel_key a ≤ channel_key b

/-- Of every channel the candidate that it prefers. -/
structure OnePerChannel (admitted kept : List Candidate) : Prop where
  subperm : kept.Subperm admitted
  once : (kept.map Candidate.channel_id).Nodup
  preferred : ∀ c ∈ admitted, ∃ k ∈ kept, k.channel_id = c.channel_id ∧ channel_key k ≤ channel_key c

/-- A pool is emptied by draws, each at a point of the shares of the weights that
    are left. -/
inductive Drawn : List Candidate → List Candidate → Prop where
  | done : Drawn [] []
  | pick {pool rest drawn : List Candidate} {chosen : Candidate} (point : Nat)
      (hpoint : point < (effective (pool.map (·.channel.weight))).sum)
      (hchosen : pool[pick_at (pool.map (·.channel.weight)) point]? = some chosen)
      (hrest : pool.Perm (chosen :: rest)) (hdrawn : Drawn rest drawn) : Drawn pool (chosen :: drawn)

/-- The order of a tier that the selection mode asks for. -/
def Prescribed (round_robin_seq : Option Nat) (tier arranged : List Candidate) : Prop :=
  match policy.selection with
  | .first => arranged = tier
  | .roundRobin => arranged = tier.rotate (round_robin_seq.getD 0)
  | .weightedRandom => Drawn tier arranged

/-- What is asked of the attempts for the candidates that were admitted. -/
structure Ordered (round_robin_seq : Option Nat) (admitted attempts : List Candidate) : Prop where
  kept : if policy.retry_same_channel then attempts.Perm admitted else OnePerChannel admitted attempts
  descending : attempts.Pairwise fun a b => level policy b ≤ level policy a
  arranged : ∀ l, ∃ tier : List Candidate, tier.Pairwise (Before policy) ∧
    Prescribed policy round_robin_seq tier (attempts.filter (level policy · = l))

variable {policy}

theorem OnePerChannel.of_perm {admitted kept attempts : List Candidate} (hkept : OnePerChannel admitted kept)
    (hperm : attempts.Perm kept) : OnePerChannel admitted attempts where
  subperm := hperm.subperm.trans hkept.subperm
  once := (hperm.map _).nodup_iff.mpr hkept.once
  preferred := by
    intro c hc
    obtain ⟨k, hk, hpreferred⟩ := hkept.preferred c hc
    exact ⟨k, hperm.mem_iff.mpr hk, hpreferred⟩

theorem Drawn.perm {pool drawn : List Candidate} (hdrawn : Drawn pool drawn) : drawn.Perm pool := by
  induction hdrawn with
  | done => exact .nil
  | pick point _ _ hrest _ ih => exact (ih.cons _).trans hrest.symm

theorem Prescribed.perm {round_robin_seq : Option Nat} {tier arranged : List Candidate}
    (harranged : Prescribed policy round_robin_seq tier arranged) : arranged.Perm tier := by
  unfold Prescribed at harranged
  cases hselection : policy.selection <;> rw [hselection] at harranged
  case weightedRandom => exact harranged.perm
  case roundRobin => exact harranged ▸ List.rotate_perm tier _
  case first => exact harranged ▸ .rfl

theorem same_tier_iff (a b : Candidate) :
    a.rank.same_tier b.rank policy.native_first = true ↔ level policy a = level policy b := by
  simp [RankKey.same_tier, level, Prod.ext_iff]

/-- A tier is of lower rank only if it stands later. -/
theorem level_le_of_tier_key_le {a b : Candidate} (hle : tier_key policy.native_first a ≤ tier_key policy.native_first b) :
    level policy b ≤ level policy a := by
  have htier : b.rank.tier policy.native_first ≤ a.rank.tier policy.native_first := by
    rcases Prod.Lex.le_iff.mp hle with hlt | ⟨heq, -⟩
    · exact (OrderDual.toDual_lt_toDual.mp hlt).le
    · exact (OrderDual.toDual_inj.mp heq).ge
  simp only [RankKey.tier, Prod.Lex.toLex_le_toLex] at htier
  simp only [level, Prod.Lex.toLex_le_toLex]
  rcases htier with hlt | ⟨heq, hlt | ⟨hpriority, -⟩⟩
  · exact .inl hlt
  · exact .inr ⟨heq, hlt.le⟩
  · exact .inr ⟨heq, hpriority.le⟩

end Order

section Arranging

variable {ρ : Type} (rng : Rng ρ)

/-- A draw for every candidate empties a pool. -/
theorem draw_drawn (pool : List Candidate) (source : ρ) : Drawn pool (draw rng pool.length pool source).1 := by
  generalize hsteps : pool.length = steps
  induction steps generalizing pool source with
  | zero =>
    obtain rfl := List.length_eq_zero_iff.mp hsteps
    exact .done
  | succ steps ih =>
    have hweights : pool.map (·.channel.weight) ≠ [] := by
      rintro hnil
      rw [List.map_eq_nil_iff.mp hnil] at hsteps
      cases hsteps
    rw [draw, weighted_pick, dif_neg hweights]
    generalize rng.random_range _ _ source = random
    have hidx : pick_at (pool.map (·.channel.weight)) random.1 < pool.length := by
      simpa using pick_at_lt random.1.isLt
    simp only [Option.getD_some, dif_pos hidx]
    have hrest := ih (swap_remove pool ⟨_, hidx⟩).2 random.2 (by rw [swap_remove_length, hsteps, Nat.add_sub_cancel])
    exact .pick random.1 random.1.isLt (List.getElem?_eq_getElem hidx) (swap_remove_perm pool _) hrest

theorem arrange_tier_prescribed (tier : List Candidate) (round_robin_seq : Option Nat) (source : ρ) :
    Prescribed self.policy round_robin_seq tier (self.arrange_tier rng tier round_robin_seq source).1 := by
  unfold Prescribed arrange_tier
  cases self.policy.selection with
  | first => rfl
  | weightedRandom => exact draw_drawn rng tier source
  | roundRobin =>
    by_cases hmany : 1 < tier.length
    · simp only [if_pos hmany, List.rotate_mod]
    · simp only [if_neg hmany]
      match tier with
      | [] => simp
      | [c] => simp
      | _ :: _ :: _ => simp at hmany

/-- Tiers of falling levels, each of candidates of one level. -/
structure Tiered (policy : RoutingPolicy) (tiers : List (List Candidate)) : Prop where
  uniform : ∀ tier ∈ tiers, ∃ l, ∀ c ∈ tier, level policy c = l
  descending : tiers.Pairwise fun s t => ∀ a ∈ s, ∀ b ∈ t, level policy b < level policy a
  sorted : ∀ tier ∈ tiers, tier.Pairwise (Before policy)

theorem arrange_tiers_perm (round_robin_seq : Option Nat) (tiers : List (List Candidate)) (source : ρ) :
    (self.arrange_tiers rng round_robin_seq tiers source).1.Perm tiers.flatten := by
  induction tiers generalizing source with
  | nil => exact .nil
  | cons tier tiers ih =>
    rw [arrange_tiers, List.flatten_cons]
    exact (self.arrange_tier_prescribed rng tier round_robin_seq source).perm.append (ih _)

/-- The candidates of one level stay together, in the order asked for. -/
theorem arrange_tiers_level {round_robin_seq : Option Nat} {tiers : List (List Candidate)} (source : ρ)
    (htiered : Tiered self.policy tiers) (l : Int ×ₗ Int) :
    ∃ tier : List Candidate, tier.Pairwise (Before self.policy) ∧ Prescribed self.policy round_robin_seq tier
      ((self.arrange_tiers rng round_robin_seq tiers source).1.filter (level self.policy · = l)) := by
  induction tiers generalizing source with
  | nil =>
    refine ⟨[], .nil, ?_⟩
    rw [arrange_tiers, List.filter_nil, Prescribed]
    cases self.policy.selection with
    | first => rfl
    | roundRobin => rfl
    | weightedRandom => exact .done
  | cons tier tiers ih =>
    obtain ⟨hbelow, hdescending⟩ := List.pairwise_cons.mp htiered.descending
    have hlater : Tiered self.policy tiers :=
      ⟨fun t ht => htiered.uniform t (.tail _ ht), hdescending, fun t ht => htiered.sorted t (.tail _ ht)⟩
    obtain ⟨own, hown⟩ := htiered.uniform tier (.head _)
    have harranged := self.arrange_tier_prescribed rng tier round_robin_seq source
    rw [arrange_tiers, List.filter_append]
    by_cases hl : ∃ c ∈ tier, level self.policy c = l
    · -- Every later tier is of a lower level.
      obtain ⟨c, hc, rfl⟩ := hl
      refine ⟨tier, htiered.sorted tier (.head _), ?_⟩
      rw [List.filter_eq_self.mpr, List.filter_eq_nil_iff.mpr, List.append_nil]
      · exact harranged
      · intro b hb
        obtain ⟨t, ht, hbt⟩ := List.mem_flatten.mp ((self.arrange_tiers_perm rng round_robin_seq tiers _).subset hb)
        simpa using (hbelow t ht c hc b hbt).ne
      · intro b hb
        have hmem := harranged.perm.subset hb
        simp [hown b hmem, hown c hc]
    · rw [List.filter_eq_nil_iff.mpr, List.nil_append]
      · exact ih _ hlater
      · intro b hb
        have hmem := harranged.perm.subset hb
        simpa using fun heq => hl ⟨b, hmem, heq⟩

/-- The attempts descend in level. -/
theorem arrange_tiers_descending {round_robin_seq : Option Nat} {tiers : List (List Candidate)} (source : ρ)
    (htiered : Tiered self.policy tiers) :
    (self.arrange_tiers rng round_robin_seq tiers source).1.Pairwise fun a b => level self.policy b ≤ level self.policy a := by
  induction tiers generalizing source with
  | nil => exact .nil
  | cons tier tiers ih =>
    obtain ⟨hbelow, hdescending⟩ := List.pairwise_cons.mp htiered.descending
    have hlater : Tiered self.policy tiers :=
      ⟨fun t ht => htiered.uniform t (.tail _ ht), hdescending, fun t ht => htiered.sorted t (.tail _ ht)⟩
    obtain ⟨own, hown⟩ := htiered.uniform tier (.head _)
    have harranged := (self.arrange_tier_prescribed rng tier round_robin_seq source).perm
    rw [arrange_tiers]
    refine List.pairwise_append.mpr ⟨?_, ih _ hlater, fun a ha b hb => ?_⟩
    · refine List.pairwise_of_forall_mem_list fun a ha b hb => ?_
      rw [hown a (harranged.subset ha), hown b (harranged.subset hb)]
    · obtain ⟨t, ht, hbt⟩ := List.mem_flatten.mp ((self.arrange_tiers_perm rng round_robin_seq tiers _).subset hb)
      exact (hbelow t ht a (harranged.subset ha) b hbt).le

end Arranging

section Preference

/-- What is left for the ranking. -/
theorem dedup_channels_onePerChannel (candidates : List Candidate) :
    OnePerChannel candidates (dedup_by_key Candidate.channel_id (sort_by_key channel_key candidates)) := by
  have hpreferred := sort_by_key_sorted channel_key candidates
  have hperm := sort_by_key_perm channel_key candidates
  refine ⟨(dedup_by_key_sublist _).subperm.trans hperm.subperm, ?_, fun c hc => ?_⟩
  · have hsorted : (sort_by_key channel_key candidates).Pairwise fun a b => a.channel_id ≤ b.channel_id := by
      refine hpreferred.imp fun {a b} hle => ?_
      rcases Prod.Lex.le_iff.mp hle with hlt | ⟨heq, -⟩
      · exact hlt.le
      · exact heq.le
    exact List.pairwise_map.mpr ((dedup_by_key_lt hsorted).imp fun hlt => hlt.ne)
  · have hkept : ∃ k ∈ dedup_by_key Candidate.channel_id (sort_by_key channel_key candidates), _ :=
      exists_dedup_by_key hpreferred (hperm.mem_iff.mpr hc)
    obtain ⟨k, hk, hid, hbefore⟩ := hkept
    refine ⟨k, hk, hid, ?_⟩
    rcases hbefore with rfl | hle
    · exact le_refl _
    · exact hle

theorem ranked_kept (candidates : List Candidate) :
    if self.policy.retry_same_channel then (self.ranked candidates).Perm candidates
    else OnePerChannel candidates (self.ranked candidates) := by
  unfold ranked
  by_cases hretry : self.policy.retry_same_channel
  · simp only [if_pos hretry]
    exact (sort_by_key_perm _ _).trans (sort_by_key_perm _ _)
  · simp only [if_neg hretry]
    have hkept := dedup_channels_onePerChannel candidates
    have hperm := sort_by_key_perm (tier_key self.policy.native_first)
      (dedup_by_key Candidate.channel_id (sort_by_key channel_key candidates))
    exact hkept.of_perm hperm

theorem ranked_before (candidates : List Candidate) : (self.ranked candidates).Pairwise (Before self.policy) := by
  refine sort_by_key_stable _ ?_
  have hpreferred := sort_by_key_sorted channel_key candidates
  split
  · exact hpreferred
  · exact hpreferred.sublist (dedup_by_key_sublist _)

theorem ranked_tiered (candidates : List Candidate) :
    Tiered self.policy (runs (fun a b => a.rank.same_tier b.rank self.policy.native_first) (self.ranked candidates)) := by
  have hsame : ∀ a b : Candidate, a.rank.same_tier b.rank self.policy.native_first = true ↔
      level self.policy a = level self.policy b := same_tier_iff
  have hdescending : (self.ranked candidates).Pairwise fun a b => level self.policy b ≤ level self.policy a :=
    (sort_by_key_sorted (tier_key self.policy.native_first) _).imp fun hle => level_le_of_tier_key_le hle
  refine ⟨fun tier htier => ?_, runs_descend hsame hdescending, fun tier htier => ?_⟩
  · obtain ⟨head, -, hlevel⟩ := level_of_mem_runs hsame htier
    exact ⟨level self.policy head, hlevel⟩
  · have hbefore := self.ranked_before candidates
    rw [← flatten_runs (fun a b => a.rank.same_tier b.rank self.policy.native_first) (self.ranked candidates)]
      at hbefore
    exact (List.pairwise_flatten.mp hbefore).1 tier htier

end Preference

variable {ρ : Type} (rng : Rng ρ)

theorem order_ordered (candidates : List Candidate) (model : String) (source : ρ) :
    Ordered self.policy (self.next_sequence model).1 candidates (self.order rng candidates model source).1 := by
  have htiered := self.ranked_tiered candidates
  have hperm := self.arrange_tiers_perm rng (self.next_sequence model).1
    (runs (fun a b => a.rank.same_tier b.rank self.policy.native_first) (self.ranked candidates)) source
  rw [flatten_runs] at hperm
  have harranged : Ordered self.policy (self.next_sequence model).1 candidates
      (self.arrange_tiers rng (self.next_sequence model).1
        (runs (fun a b => a.rank.same_tier b.rank self.policy.native_first) (self.ranked candidates)) source).1 := by
    refine ⟨?_, self.arrange_tiers_descending rng source htiered, self.arrange_tiers_level rng source htiered⟩
    have hkept := self.ranked_kept candidates
    by_cases hretry : self.policy.retry_same_channel
    · rw [if_pos hretry] at hkept ⊢
      exact hperm.trans hkept
    · rw [if_neg hretry] at hkept ⊢
      exact hkept.of_perm hperm
  unfold order
  split
  next hempty =>
    -- Without candidates nothing is arranged, and the rotation stays where it is.
    obtain rfl := List.isEmpty_iff.mp hempty
    have hnil : self.ranked [] = [] := by simp [ranked, sort_by_key, dedup_by_key]
    simpa only [hnil, runs, arrange_tiers] using harranged
  next => exact harranged

/-- The attempts of a route are the candidates, in the order asked for. -/
theorem plan_ordered (self : RoutePlanner) (rng : Rng ρ) (channels : List Channel) (model : String) (inbound : Protocol)
    (source : ρ) :
    Ordered self.policy (self.next_sequence model).1 (collect channels model inbound)
      (self.plan rng channels model inbound source).1.attempts :=
  self.order_ordered rng _ model source

end RoutePlanner

end refract.router
