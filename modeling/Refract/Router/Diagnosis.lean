import Mathlib.Data.String.Basic
import Refract.Core.Override
import Refract.Core.Validation
import Refract.Router.Planner

open refract.core refract.machine

namespace refract.core

def ProtocolSet.iter (self : ProtocolSet) : List Protocol := Protocol.ALL.filter (self.contains ·)

def GatewayError.not_found (message : String) : GatewayError := .new .notFound message

def GatewayError.no_channel (message : String) : GatewayError := .new .noAvailableChannel message

end refract.core

namespace refract.router

/-- Why there is no route for a model. -/
inductive Diagnosis where
  | routable
  | unknown_model
  | protocol_not_permitted (available : ProtocolSet)
  deriving DecidableEq, Repr

namespace RoutePlanner

/-- The endpoints in service, in the order of their channels. -/
def serving_endpoints (channels : List Channel) : List ChannelEndpoint :=
  (channels.filter (·.enabled)).flatMap fun channel => channel.endpoints.filter (·.enabled)

/-- The models of the endpoints in service, each once, in alphabetical order. -/
def visible_models (channels : List Channel) : List String :=
  sort_by_key id <| ((serving_endpoints channels).flatMap fun endpoint => endpoint.models.map (·.name)).foldl
    (fun names name => if names.contains name then names else names ++ [name]) []

/-- The protocols over which an endpoint is reached. -/
def reached_over (available : ProtocolSet) (endpoint : ChannelEndpoint) : ProtocolSet :=
  Protocol.ALL.foldl (fun available p => if endpoint.transcode.can_serve p endpoint.protocol then available.insert p else available) available

def diagnose (channels : List Channel) (model : String) (inbound : Protocol) : Diagnosis :=
  let endpoints := (serving_endpoints channels).filter fun endpoint => (endpoint.find_model model).isSome
  let available := endpoints.foldl reached_over {}
  if endpoints.isEmpty then .unknown_model
  else if available.contains inbound then .routable
  else .protocol_not_permitted available

variable {ρ : Type} {self : RoutePlanner} {rng : Rng ρ} {channels : List Channel} {model : String} {inbound : Protocol} {source : ρ}

theorem channel_of_collect {c : Candidate} (hc : c ∈ collect channels model inbound) : c.channel ∈ channels := by
  obtain ⟨channel, hchannel, hc⟩ := List.mem_flatMap.mp hc
  split at hc
  · cases hc
  · obtain ⟨endpoint, -, hcandidate⟩ := List.mem_filterMap.mp hc
    unfold candidate_of at hcandidate
    split at hcandidate
    · cases hcandidate
    · split at hcandidate
      · cases hcandidate
      · split at hcandidate
        · cases hcandidate
        · obtain rfl := Option.some.inj hcandidate
          exact hchannel

/-- All candidates of a route are of channels that it was planned from. -/
theorem channel_of_plan {c : Candidate} (hc : c ∈ (self.plan rng channels model inbound source).1.attempts) : c.channel ∈ channels := by
  have hkept := (self.plan_ordered rng channels model inbound source).kept
  split at hkept
  · exact channel_of_collect (hkept.mem_iff.mp hc)
  · exact channel_of_collect (hkept.subperm.subset hc)

section Reachability

/-- An endpoint in service has a model. -/
def Provides (channels : List Channel) (model : String) (endpoint : ChannelEndpoint) : Prop :=
  endpoint ∈ serving_endpoints channels ∧ ∃ entry ∈ endpoint.models, entry.name = model

theorem provides_iff {endpoint : ChannelEndpoint} :
    Provides channels model endpoint ↔
      endpoint ∈ (serving_endpoints channels).filter fun endpoint => (endpoint.find_model model).isSome := by
  rw [List.mem_filter, Provides]
  refine and_congr_right fun _ => ?_
  rw [ChannelEndpoint.find_model, List.find?_isSome]
  simp

theorem mem_serving_endpoints {endpoint : ChannelEndpoint} :
    endpoint ∈ serving_endpoints channels ↔
      ∃ channel ∈ channels, channel.enabled = true ∧ endpoint ∈ channel.endpoints ∧ endpoint.enabled = true := by
  simp only [serving_endpoints, List.mem_flatMap, List.mem_filter, and_assoc]

theorem candidate_of_isSome {channel : Channel} {endpoint : ChannelEndpoint} :
    (candidate_of channel model inbound endpoint).isSome = true ↔
      endpoint.enabled = true ∧ (endpoint.find_model model).isSome = true ∧
        endpoint.transcode.can_serve inbound endpoint.protocol = true := by
  unfold candidate_of
  cases endpoint.enabled with
  | false => simp
  | true =>
    cases endpoint.find_model model with
    | none => simp
    | some entry => cases endpoint.transcode.can_serve inbound endpoint.protocol <;> simp

/-- There is a candidate for a request if an endpoint with the model takes its protocol. -/
theorem collect_ne_nil :
    collect channels model inbound ≠ [] ↔
      ∃ endpoint, Provides channels model endpoint ∧ endpoint.transcode.can_serve inbound endpoint.protocol = true := by
  simp only [provides_iff, List.mem_filter, mem_serving_endpoints]
  constructor
  · intro hsome
    obtain ⟨c, hc⟩ := List.exists_mem_of_ne_nil _ hsome
    obtain ⟨channel, hchannel, hc⟩ := List.mem_flatMap.mp hc
    cases henabled : channel.enabled with
    | false =>
      rw [henabled] at hc
      cases hc
    | true =>
      rw [henabled] at hc
      obtain ⟨endpoint, hendpoint, hcandidate⟩ := List.mem_filterMap.mp hc
      obtain ⟨hserving, hmodel, hserved⟩ := candidate_of_isSome.mp (Option.isSome_of_eq_some hcandidate)
      exact ⟨endpoint, ⟨⟨channel, hchannel, henabled, hendpoint, hserving⟩, hmodel⟩, hserved⟩
  · rintro ⟨endpoint, ⟨⟨channel, hchannel, henabled, hendpoint, hserving⟩, hmodel⟩, hserved⟩
    obtain ⟨c, hcandidate⟩ := Option.isSome_iff_exists.mp (candidate_of_isSome.mpr ⟨hserving, hmodel, hserved⟩)
    have hc : c ∈ collect channels model inbound := by
      refine List.mem_flatMap.mpr ⟨channel, hchannel, ?_⟩
      rw [henabled]
      exact List.mem_filterMap.mpr ⟨endpoint, hendpoint, hcandidate⟩
    exact List.ne_nil_of_mem hc

/-- A route has attempts if there is a candidate. -/
theorem attempts_ne_nil : (self.plan rng channels model inbound source).1.attempts ≠ [] ↔ collect channels model inbound ≠ [] := by
  have hkept := (self.plan_ordered rng channels model inbound source).kept
  split at hkept
  · rw [← List.length_pos_iff, ← List.length_pos_iff, hkept.length_eq]
  · constructor
    · rintro hattempts hnone
      rw [hnone] at hkept
      exact hattempts (List.subperm_nil.mp hkept.subperm)
    · intro hcandidates hnone
      obtain ⟨c, hc⟩ := List.exists_mem_of_ne_nil _ hcandidates
      obtain ⟨k, hk, -⟩ := hkept.preferred c hc
      exact List.ne_nil_of_mem hk hnone

theorem contains_foldl_insert {protocols : List Protocol} {served : Protocol → Prop} [DecidablePred served] {available : ProtocolSet} (p : Protocol) :
    (protocols.foldl (fun available p => if served p then available.insert p else available) available).contains p = true ↔
      available.contains p = true ∨ p ∈ protocols ∧ served p := by
  induction protocols generalizing available with
  | nil => simp
  | cons q protocols ih =>
    rw [List.foldl_cons, ih]
    by_cases hserved : served q
    · rw [if_pos hserved, ProtocolSet.contains_insert]
      constructor
      · rintro ((rfl | havailable) | ⟨hp, hown⟩)
        · exact .inr ⟨.head _, hserved⟩
        · exact .inl havailable
        · exact .inr ⟨.tail _ hp, hown⟩
      · rintro (havailable | ⟨hp, hown⟩)
        · exact .inl (.inr havailable)
        · rcases List.mem_cons.mp hp with rfl | hp
          · exact .inl (.inl rfl)
          · exact .inr ⟨hp, hown⟩
    · rw [if_neg hserved]
      refine or_congr_right (and_congr_left fun hown => ?_)
      have hne : p ≠ q := fun heq => hserved (heq ▸ hown)
      simp [hne]

theorem contains_reached_over {endpoint : ChannelEndpoint} {available : ProtocolSet} (p : Protocol) :
    (reached_over available endpoint).contains p = true ↔
      available.contains p = true ∨ endpoint.transcode.can_serve p endpoint.protocol = true := by
  rw [reached_over, contains_foldl_insert]
  exact or_congr_right (and_iff_right (by cases p <;> decide))

/-- The protocols that are found for the endpoints of a model. -/
theorem contains_foldl_reached_over {endpoints : List ChannelEndpoint} {available : ProtocolSet} (p : Protocol) :
    (endpoints.foldl reached_over available).contains p = true ↔
      available.contains p = true ∨ ∃ endpoint ∈ endpoints, endpoint.transcode.can_serve p endpoint.protocol = true := by
  induction endpoints generalizing available with
  | nil => simp
  | cons endpoint endpoints ih =>
    rw [List.foldl_cons, ih, contains_reached_over, List.exists_mem_cons_iff, or_assoc]

/-- A diagnosis says for which models and protocols there is a route. -/
theorem diagnosis_of_plan (self : RoutePlanner) (rng : Rng ρ) (source : ρ) (channels : List Channel) (model : String) (inbound : Protocol) :
    (diagnose channels model inbound = .routable ↔ (self.plan rng channels model inbound source).1.attempts ≠ []) ∧
    (diagnose channels model inbound = .unknown_model ↔
      ∀ channel ∈ channels, channel.enabled = true → ∀ endpoint ∈ channel.endpoints, endpoint.enabled = true →
        ∀ entry ∈ endpoint.models, entry.name ≠ model) ∧
    ∀ available, diagnose channels model inbound = .protocol_not_permitted available →
      ∀ p, available.contains p = true ↔ (self.plan rng channels model p source).1.attempts ≠ [] := by
  let endpoints := (serving_endpoints channels).filter fun endpoint => (endpoint.find_model model).isSome
  have hreached : ∀ p, (endpoints.foldl reached_over {}).contains p = true ↔
      (self.plan rng channels model p source).1.attempts ≠ [] := by
    intro p
    rw [attempts_ne_nil, collect_ne_nil, contains_foldl_reached_over, ProtocolSet.contains_empty]
    simp only [provides_iff, endpoints, Bool.false_eq_true, false_or]
  have hunknown : endpoints.isEmpty = true ↔
      ∀ channel ∈ channels, channel.enabled = true → ∀ endpoint ∈ channel.endpoints, endpoint.enabled = true →
        ∀ entry ∈ endpoint.models, entry.name ≠ model := by
    rw [List.isEmpty_iff, List.eq_nil_iff_forall_not_mem]
    simp only [endpoints, ← provides_iff, Provides, mem_serving_endpoints]
    grind
  have hdiagnose : diagnose channels model inbound =
      if endpoints.isEmpty then .unknown_model
      else if (endpoints.foldl reached_over {}).contains inbound then .routable
      else .protocol_not_permitted (endpoints.foldl reached_over {}) := rfl
  have hnone : endpoints.isEmpty = true → (endpoints.foldl reached_over {}).contains inbound = false := by
    intro hempty
    rw [List.isEmpty_iff.mp hempty]
    exact ProtocolSet.contains_empty inbound
  rw [hdiagnose, ← hunknown, ← hreached inbound]
  cases hempty : endpoints.isEmpty with
  | true =>
    rw [hnone hempty]
    simp
  | false =>
    cases hroute : (endpoints.foldl reached_over {}).contains inbound with
    | true => simp
    | false => simpa using hreached

end Reachability

end RoutePlanner

end refract.router
