import Refract.Router.Diagnosis

open refract.core refract.machine

namespace refract.router.RoutePlanner

/-- The candidates of one channel. -/
def own_candidates (channels : List Channel) (model : String) (inbound : Protocol) (channel_id : Int) : List Candidate :=
  (collect channels model inbound).filter (·.channel_id = channel_id)

/-- The endpoint that a channel prefers: the one of the protocol that is asked for, and without
    such an endpoint one of the lowest order. -/
structure Preferred (own : List Candidate) (c : Candidate) : Prop where
  mem : c ∈ own
  native : (∃ d ∈ own, d.rank.native = true) → c.rank.native = true
  least : (∀ d ∈ own, d.rank.native = false) → ∀ d ∈ own, c.rank.endpoint_order ≤ d.rank.endpoint_order

variable {policy : RoutingPolicy} {channels : List Channel} {model : String} {inbound : Protocol}

theorem candidate_of_collect {c : Candidate} (hc : c ∈ collect channels model inbound) :
    c.rank.native = decide (inbound = c.endpoint.protocol) ∧ c.rank.priority = c.channel.priority := by
  obtain ⟨channel, -, hc⟩ := List.mem_flatMap.mp hc
  split at hc
  · cases hc
  · obtain ⟨endpoint, -, hcandidate⟩ := List.mem_filterMap.mp hc
    unfold candidate_of at hcandidate
    split at hcandidate
    · cases hcandidate
    · split at hcandidate
      · cases hcandidate
      · split at hcandidate
        · cases hcandidate
        · obtain rfl := Option.some.inj hcandidate
          exact ⟨rfl, rfl⟩

/-- All candidates of a channel are of its priority. -/
theorem priority_of_same_channel (hids : (channels.map (·.id)).Nodup) {c d : Candidate} (hc : c ∈ collect channels model inbound)
    (hd : d ∈ collect channels model inbound) (hsame : d.channel_id = c.channel_id) : d.rank.priority = c.rank.priority := by
  have hchannel : d.channel = c.channel :=
    List.inj_on_of_nodup_map hids (channel_of_collect hd) (channel_of_collect hc) hsame
  rw [(candidate_of_collect hd).2, (candidate_of_collect hc).2, hchannel]

theorem native_rank_le {c d : Candidate} {native_first : Bool} (h : d.rank.native = true → c.rank.native = true) :
    d.rank.native_rank native_first ≤ c.rank.native_rank native_first := by
  unfold RankKey.native_rank
  cases native_first with
  | false => simp
  | true =>
    cases hd : d.rank.native with
    | false => cases c.rank.native <;> simp
    | true => simp [h hd]

/-- Where nativeness counts, a candidate of a level as high as that of a native one is native. -/
theorem native_of_level_le {c d : Candidate} (hfirst : policy.native_first = true)
    (hlevel : level policy d ≤ level policy c) (hd : d.rank.native = true) : c.rank.native = true := by
  have hle : d.rank.native_rank policy.native_first ≤ c.rank.native_rank policy.native_first := by
    rw [level, level, Prod.Lex.toLex_le_toLex] at hlevel
    rcases hlevel with hlt | ⟨heq, -⟩
    · exact hlt.le
    · exact heq.le
  rw [RankKey.native_rank, RankKey.native_rank, hfirst, hd] at hle
  cases hc : c.rank.native with
  | true => rfl
  | false =>
    rw [hc] at hle
    simp at hle

theorem channel_key_le_iff {c d : Candidate} (hsame : c.channel_id = d.channel_id) :
    channel_key c ≤ channel_key d ↔
      (!c.rank.native) < (!d.rank.native) ∨ c.rank.native = d.rank.native ∧ c.rank.endpoint_order ≤ d.rank.endpoint_order := by
  rw [channel_key, channel_key, Prod.Lex.toLex_le_toLex, hsame]
  simp [Prod.Lex.toLex_le_toLex]

theorem native_of_channel_key_le {c d : Candidate} (hsame : c.channel_id = d.channel_id) (hle : channel_key c ≤ channel_key d)
    (hd : d.rank.native = true) : c.rank.native = true := by
  rcases (channel_key_le_iff hsame).mp hle with hlt | ⟨heq, -⟩
  · rw [hd] at hlt
    exact absurd hlt not_lt_bot
  · exact heq.trans hd

theorem preferred_of_channel_key_le {own : List Candidate} {c : Candidate} (hc : c ∈ own)
    (hkey : ∀ d ∈ own, d.channel_id = c.channel_id ∧ channel_key c ≤ channel_key d) : Preferred own c := by
  refine ⟨hc, ?_, fun hforeign d hd => ?_⟩
  · rintro ⟨d, hd, hnative⟩
    obtain ⟨hsame, hle⟩ := hkey d hd
    exact native_of_channel_key_le hsame.symm hle hnative
  · obtain ⟨hsame, hle⟩ := hkey d hd
    rcases (channel_key_le_iff hsame.symm).mp hle with hlt | ⟨-, hle⟩
    · rw [hforeign d hd, hforeign c hc] at hlt
      simp at hlt
    · exact hle

/-- Within a tier of one channel the lower order comes first. -/
theorem order_le_of_before {c d : Candidate} (hsame : d.channel_id = c.channel_id) (hlevel : level policy d = level policy c)
    (hbefore : Before policy c d) : c.rank.endpoint_order ≤ d.rank.endpoint_order := by
  obtain ⟨hnative, hpriority⟩ := Prod.mk.inj (toLex_inj.mp hlevel)
  have hle : tier_key policy.native_first c ≤ tier_key policy.native_first d := by
    rcases hbefore with hlt | ⟨heq, -⟩
    · exact hlt.le
    · exact heq.le
  rw [tier_key, tier_key, hsame, Prod.Lex.toLex_le_toLex] at hle
  have htier : d.rank.tier policy.native_first ≤ c.rank.tier policy.native_first := by
    rcases hle with hlt | ⟨heq, -⟩
    · exact (OrderDual.toDual_lt_toDual.mp hlt).le
    · exact (OrderDual.toDual_inj.mp heq).ge
  rw [RankKey.tier, RankKey.tier, hnative, hpriority] at htier
  simpa [Prod.Lex.toLex_le_toLex] using htier

section First

variable {ρ : Type} {self : RoutePlanner} {round_robin_seq : Option Nat} {admitted attempts : List Candidate} {channel_id : Int} {c d : Candidate}

theorem find?_of_onePerChannel (hkept : OnePerChannel admitted attempts) (hfind : attempts.find? (·.channel_id = channel_id) = some c)
    (hd : d ∈ admitted) (hsame : d.channel_id = channel_id) : channel_key c ≤ channel_key d := by
  obtain ⟨k, hk, hid, hpreferred⟩ := hkept.preferred d hd
  have hc : c.channel_id = channel_id := by simpa using List.find?_some hfind
  have hkc : k = c := List.inj_on_of_nodup_map hkept.once hk (List.mem_of_find?_eq_some hfind) (by rw [hid, hsame, hc])
  exact hkc ▸ hpreferred

/-- No candidate of a channel is of a higher tier than the first one tried. -/
theorem level_le_of_find? (hordered : Ordered policy round_robin_seq admitted attempts)
    (hfind : attempts.find? (·.channel_id = channel_id) = some c)
    (hpriority : ∀ d ∈ admitted, d.channel_id = channel_id → d.rank.priority = c.rank.priority) (hd : d ∈ admitted)
    (hsame : d.channel_id = channel_id) : level policy d ≤ level policy c := by
  have hkept := hordered.kept
  split at hkept
  · rcases related_of_find? hordered.descending hfind (hkept.mem_iff.mpr hd) (by simpa using hsame) with rfl | hle
    · exact le_refl _
    · exact hle
  · have hc : c.channel_id = channel_id := by simpa using List.find?_some hfind
    have hle := find?_of_onePerChannel hkept hfind hd hsame
    have hrank := @native_rank_le c d policy.native_first (native_of_channel_key_le (hc.trans hsame.symm) hle)
    rw [level, level, Prod.Lex.toLex_le_toLex, hpriority d hd hsame]
    rcases hrank.lt_or_eq with hlt | heq
    · exact .inl hlt
    · exact .inr ⟨heq, le_refl _⟩

/-- Where a tier is tried in order, the first candidate of a channel in it is one of the lowest
    order there. -/
theorem order_le_of_find? (hordered : Ordered policy round_robin_seq admitted attempts) (hselection : policy.selection = .first)
    (hretry : policy.retry_same_channel = true) (hfind : attempts.find? (·.channel_id = channel_id) = some c) (hd : d ∈ admitted)
    (hsame : d.channel_id = channel_id) (hlevel : level policy d = level policy c) :
    c.rank.endpoint_order ≤ d.rank.endpoint_order := by
  have hkept := hordered.kept
  rw [if_pos hretry] at hkept
  obtain ⟨tier, hbefore, harranged⟩ := hordered.arranged (level policy c)
  rw [Prescribed, hselection] at harranged
  dsimp only at harranged
  rw [← harranged, List.pairwise_filter] at hbefore
  have hc : c.channel_id = channel_id := by simpa using List.find?_some hfind
  rcases related_of_find? hbefore hfind (hkept.mem_iff.mpr hd) (by simpa using hsame) with rfl | hrelated
  · exact le_refl _
  · exact order_le_of_before (hsame.trans hc.symm) hlevel (hrelated (by simp) (by simpa using hlevel))

/-- The first attempt on a channel is in its highest tier. It is the endpoint that the channel
    prefers where endpoints of the same channel are not tried again, and where the tiers are
    tried in order: there nativeness counts only if it is asked for. -/
theorem first_attempt_on_channel (self : RoutePlanner) (rng : Rng ρ) (source : ρ) (model : String) (inbound : Protocol)
    (hids : (channels.map (·.id)).Nodup) :
    ∀ channel_id c, (self.plan rng channels model inbound source).1.attempts.find? (·.channel_id = channel_id) = some c →
      c ∈ own_candidates channels model inbound channel_id ∧
      (self.policy.native_first = true → (∃ d ∈ own_candidates channels model inbound channel_id, d.rank.native = true) →
        c.rank.native = true) ∧
      (self.policy.retry_same_channel = false → Preferred (own_candidates channels model inbound channel_id) c) ∧
      (self.policy.selection = .first → self.policy.retry_same_channel = true →
        if self.policy.native_first then Preferred (own_candidates channels model inbound channel_id) c
        else ∀ d ∈ own_candidates channels model inbound channel_id, c.rank.endpoint_order ≤ d.rank.endpoint_order) := by
  intro channel_id c hfind
  have hordered := self.plan_ordered rng channels model inbound source
  have hc : c.channel_id = channel_id := by simpa using List.find?_some hfind
  have hadmitted : c ∈ collect channels model inbound := by
    have hkept := hordered.kept
    split at hkept
    · exact hkept.mem_iff.mp (List.mem_of_find?_eq_some hfind)
    · exact hkept.subperm.subset (List.mem_of_find?_eq_some hfind)
  have hown : ∀ d, d ∈ own_candidates channels model inbound channel_id ↔ d ∈ collect channels model inbound ∧ d.channel_id = channel_id := by
    intro d
    rw [own_candidates, List.mem_filter, decide_eq_true_eq]
  have hmem : c ∈ own_candidates channels model inbound channel_id := (hown c).mpr ⟨hadmitted, hc⟩
  have hpriority : ∀ d ∈ collect channels model inbound, d.channel_id = channel_id → d.rank.priority = c.rank.priority :=
    fun d hd hsame => priority_of_same_channel hids hadmitted hd (hsame.trans hc.symm)
  have hhighest : ∀ d ∈ own_candidates channels model inbound channel_id, level self.policy d ≤ level self.policy c := fun d hd =>
    level_le_of_find? hordered hfind hpriority ((hown d).mp hd).1 ((hown d).mp hd).2
  have hnative : self.policy.native_first = true → (∃ d ∈ own_candidates channels model inbound channel_id, d.rank.native = true) →
      c.rank.native = true := by
    rintro hfirst ⟨d, hd, hd_native⟩
    exact native_of_level_le hfirst (hhighest d hd) hd_native
  refine ⟨hmem, hnative, fun hretry => ?_, fun hselection hretry => ?_⟩
  · have hkept := hordered.kept
    rw [hretry] at hkept
    refine preferred_of_channel_key_le hmem fun d hd => ?_
    obtain ⟨hd, hsame⟩ := (hown d).mp hd
    exact ⟨hsame.trans hc.symm, find?_of_onePerChannel hkept hfind hd hsame⟩
  · have hleast : ∀ d ∈ own_candidates channels model inbound channel_id,
        d.rank.native_rank self.policy.native_first = c.rank.native_rank self.policy.native_first →
          c.rank.endpoint_order ≤ d.rank.endpoint_order := by
      intro d hd hrank
      obtain ⟨hd, hsame⟩ := (hown d).mp hd
      have hlevel : level self.policy d = level self.policy c := by rw [level, level, hrank, hpriority d hd hsame]
      exact order_le_of_find? hordered hselection hretry hfind hd hsame hlevel
    cases hfirst : self.policy.native_first with
    | false => exact fun d hd => hleast d hd (by rw [hfirst]; rfl)
    | true =>
      refine ⟨hmem, hnative hfirst, fun hforeign d hd => hleast d hd ?_⟩
      rw [RankKey.native_rank, RankKey.native_rank, hforeign d hd, hforeign c hmem]

/-- Random numbers that are all as low as can be. -/
def lowest_number : Rng Unit where
  random_range _ hpos source := (⟨0, hpos⟩, source)

/-- A channel with an endpoint of one protocol, and one of lower order of another protocol that is
    converted. -/
def two_endpoints : Channel where
  id := 1
  owner_id := 1
  tags := []
  visibility := .shared
  user_id := none
  endpoints := [
    { protocol := .chat, order := 1, models := [⟨"m", none⟩] },
    { protocol := .messages, order := 0, models := [⟨"m", none⟩], transcode := ⟨true, ProtocolSet.insert {} .chat⟩ }]

def in_turn : RoutePlanner := ⟨{ native_first := false, selection := .first, retry_same_channel := true }, fun _ => none⟩

/-- One of the two endpoints is tried first. -/
theorem two_endpoints_tried :
    ∃ c, (in_turn.plan lowest_number [two_endpoints] "m" .chat ()).1.attempts.find? (·.channel_id = 1) = some c := by
  have hkept : (in_turn.plan lowest_number [two_endpoints] "m" .chat ()).1.attempts.Perm (collect [two_endpoints] "m" .chat) :=
    (in_turn.plan_ordered lowest_number [two_endpoints] "m" .chat ()).kept
  obtain ⟨native, hnative, hid⟩ : ∃ native ∈ collect [two_endpoints] "m" .chat, native.channel_id = 1 := ⟨_, .head _, rfl⟩
  exact Option.isSome_iff_exists.mp (List.find?_isSome.mpr ⟨native, hkept.mem_iff.mpr hnative, decide_eq_true hid⟩)

theorem first_attempt_on_channel_of_two :
    ∃ c, (in_turn.plan lowest_number [two_endpoints] "m" .chat ()).1.attempts.find? (·.channel_id = 1) = some c ∧
      ∀ d ∈ own_candidates [two_endpoints] "m" .chat 1, c.rank.endpoint_order ≤ d.rank.endpoint_order := by
  obtain ⟨c, hfind⟩ := two_endpoints_tried
  have hids : ([two_endpoints].map (·.id)).Nodup := List.nodup_singleton _
  obtain ⟨-, -, -, hfirst⟩ := first_attempt_on_channel in_turn lowest_number () "m" .chat hids 1 c hfind
  exact ⟨c, hfind, hfirst rfl rfl⟩

/-- The endpoint of lower order is tried first, though the other one is native. -/
theorem native_endpoint_not_first :
    ∃ c, (in_turn.plan lowest_number [two_endpoints] "m" .chat ()).1.attempts.find? (·.channel_id = 1) = some c ∧
      ¬ Preferred (own_candidates [two_endpoints] "m" .chat 1) c := by
  have hordered := in_turn.plan_ordered lowest_number [two_endpoints] "m" .chat ()
  have hkept : (in_turn.plan lowest_number [two_endpoints] "m" .chat ()).1.attempts.Perm (collect [two_endpoints] "m" .chat) := hordered.kept
  obtain ⟨native, foreign, hcandidates, hnative, hforeign, hid, hforeign_id⟩ :
      ∃ native foreign, collect [two_endpoints] "m" .chat = [native, foreign] ∧ native.rank = ⟨true, 0, 1⟩ ∧
        foreign.rank = ⟨false, 0, 0⟩ ∧ native.channel_id = 1 ∧ foreign.channel_id = 1 := ⟨_, _, rfl, rfl, rfl, rfl, rfl⟩
  rw [hcandidates] at hordered hkept
  obtain ⟨c, hfind⟩ := two_endpoints_tried
  refine ⟨c, hfind, fun hpreferred => ?_⟩
  have hown : native ∈ own_candidates [two_endpoints] "m" .chat 1 := by
    rw [own_candidates, hcandidates]
    exact List.mem_filter.mpr ⟨.head _, decide_eq_true hid⟩
  have hc_native : c.rank.native = true := hpreferred.native ⟨native, hown, by rw [hnative]⟩
  rcases List.mem_pair.mp (hkept.mem_iff.mp (List.mem_of_find?_eq_some hfind)) with rfl | rfl
  · have hlevel : level in_turn.policy foreign = level in_turn.policy c := by
      rw [level, level, hnative, hforeign]
      rfl
    have hle := order_le_of_find? hordered rfl rfl hfind (.tail _ (.head _)) hforeign_id hlevel
    rw [hnative, hforeign] at hle
    cases hle
  · rw [hforeign] at hc_native
    cases hc_native

end First

end refract.router.RoutePlanner
