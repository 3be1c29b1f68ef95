import Refract.Gateway.Principal
import Refract.Router.Affinity
import Refract.Router.Keys
import Refract.Router.Planner

open refract.core refract.json refract.machine refract.router refract.stream refract.upstream

namespace refract.gateway

/-- The state that requests are routed by. -/
structure AppState where
  /-- The channels as they were last read from the database. -/
  channels : List Channel
  planner : RoutePlanner
  affinity : AffinityEngine
  keys : KeySelector := {}

/-- What of a request decides where it is routed. -/
structure GatewayRequest where
  principal : Principal
  inbound : Protocol
  headers : HeaderMap := []
  body : Bytes := []
  model : String

namespace GatewayRequest

variable (self : GatewayRequest)

/-- The key of the request, as a machine word. -/
def key_id : Option Nat := self.principal.api_key.map fun key => (key.id % 18446744073709551616).toNat

def inbound_path : String :=
  match self.inbound with
  | .chat => "/v1/chat/completions"
  | .responses => "/v1/responses"
  | .messages => "/v1/messages"
  | .gemini => "/v1beta/models"

end GatewayRequest

/-- Looks for the binding of a request. The body is read only where a rule needs
    it. -/
def resolve_affinity (serde : Serde) (engine : AffinityEngine) (request : GatewayRequest) (now : Instant) :
    Option AffinityDecision × AffinityEngine :=
  if !engine.is_active then (none, engine)
  else
    engine.resolve serde {
      model := request.model
      path := request.inbound_path
      api_key_id := request.key_id
      headers := request.headers
      body := if engine.needs_body then from_slice serde request.body else none } now

/-- Decides about a binding to a channel that cannot serve the request. It stays
    if the channel is in service. -/
def drop_affinity_binding (engine : AffinityEngine) (channels : List Channel) (decision : AffinityDecision) (bound : Int) :
    AffinityEngine :=
  match channels.find? (·.id = bound) with
  | none => engine.forget decision.cache_key
  | some channel =>
    if (!channel.enabled || channel.auto_disabled) && !engine.keep_on_channel_disabled then engine.forget decision.cache_key
    else engine

/-- Ends the binding of a request that failed, unless its rule keeps to it. -/
def settle_affinity_on_failure (engine : AffinityEngine) (decision : AffinityDecision) : AffinityEngine :=
  if decision.skip_retry_on_failure then engine else engine.forget decision.cache_key

/-- A way in which a request is answered. -/
inductive Handling where
  | unary
  | stream
  | passthrough
  deriving DecidableEq, Repr

section Dispatch

variable {ρ : Type} (serde : Serde) (rng : Rng ρ) (handling : Handling) (state : AppState) (request : GatewayRequest)
  (source : ρ) (now : Instant)

/-- The route of a request as it was planned. A call that is passed through keeps
    the candidates that speak its protocol. -/
def planned_route : Route :=
  let planned :=
    (state.planner.plan rng (allowed_channels state.channels request.principal) request.model request.inbound source).1
  match handling with
  | .unary | .stream => { planned with identity := request.key_id }
  | .passthrough =>
    { planned with
      attempts := planned.attempts.filter (·.protocol = request.inbound)
      identity := request.key_id }

/-- Moves the channel to which a request is bound to the front. -/
def pin (decision : Option AffinityDecision) (engine : AffinityEngine) (route : Route) : Route × AffinityEngine :=
  match decision with
  | none => (route, engine)
  | some decision =>
    match decision.binding with
    | none => (route, engine)
    | some bound =>
      let pinned := route.pin_channel bound
      (pinned.2, if pinned.1 then engine else drop_affinity_binding engine state.channels decision bound)

/-- The route that is executed for a decision. -/
def settled_route (decision : Option AffinityDecision) (route : Route) : Route :=
  let pinned := decision.bind (·.binding)
  let pinned_only := decision.any (·.skip_retry_on_failure)
  match pinned with
  | some _ => if pinned_only then route.pinned_only else route
  | none => route

/-- The decision about a request, and the route that is executed for it, if it
    has candidates. -/
def dispatch : Option AffinityDecision × Option Route :=
  let resolved := resolve_affinity serde state.affinity request now
  let route := (pin state resolved.1 resolved.2 (planned_route rng handling state request source)).1
  (resolved.1, if route.attempts.isEmpty then none else some (settled_route resolved.1 route))

/-- All candidates of a route are there for failover, or it was cut down to the
    candidate that the request is bound to. -/
inductive FailoverKept (planned : Route) (binding : Option Int) (executed : Route) : Prop where
  | kept (hattempts : executed.attempts.Perm planned.attempts)
      (hcap : min planned.attempts.length (max executed.attempt_cap 1) = min planned.attempts.length (max planned.attempt_cap 1))
  | cut (c : Candidate) (hbinding : binding = some c.channel_id) (hcandidate : c ∈ planned.attempts)
      (hexecuted : executed.attempts = [c])

/-- A request that must not be retried elsewhere is bound to a channel among its
    candidates, unless there is nothing to choose from. -/
def RealPin (decision : Option AffinityDecision) (planned : Route) : Prop :=
  ∀ d bound, decision = some d → d.skip_retry_on_failure = true → d.binding = some bound →
    (∃ c ∈ planned.attempts, c.channel_id = bound) ∨ planned.attempts.length ≤ 1

variable {state}

theorem FailoverKept.of_perm {planned : Route} (binding : Option Int) {attempts : List Candidate}
    (hperm : attempts.Perm planned.attempts) : FailoverKept planned binding { planned with attempts } :=
  .kept hperm rfl

/-- A route that is cut down without a pin keeps everything only if it has one
    candidate. -/
theorem failoverKept_pinned_only_iff {planned : Route} {bound : Int}
    (hmissing : ¬ ∃ c ∈ planned.attempts, c.channel_id = bound) :
    FailoverKept planned (some bound) planned.pinned_only ↔ planned.attempts.length ≤ 1 := by
  constructor
  · rintro (⟨hattempts, -⟩ | ⟨c, hbinding, hcandidate, -⟩)
    · have hlength := hattempts.length_eq
      rw [Route.pinned_only, List.length_take] at hlength
      omega
    · exact absurd ⟨c, hcandidate, (Option.some.inj hbinding).symm⟩ hmissing
  · intro hsingle
    refine .kept ?_ ?_
    · rw [Route.pinned_only, List.take_of_length_le hsingle]
    · rw [Route.pinned_only]
      omega

theorem settled_kept_iff (decision : Option AffinityDecision) (engine : AffinityEngine) (planned : Route) :
    FailoverKept planned (decision.bind (·.binding)) (settled_route decision (pin state decision engine planned).1) ↔
      RealPin decision planned := by
  cases decision with
  | none => exact iff_of_true (.of_perm _ .rfl) nofun
  | some d =>
    cases hbinding : d.binding with
    | none =>
      have hroute : settled_route (some d) (pin state (some d) engine planned).1 = planned := by
        simp [settled_route, pin, hbinding]
      rw [hroute]
      refine iff_of_true (.of_perm _ .rfl) ?_
      intro other bound hdecision _ hbound
      obtain rfl := Option.some.inj hdecision
      cases hbinding.symm.trans hbound
    | some bound =>
      have hpinned : (pin state (some d) engine planned).1 = (planned.pin_channel bound).2 := by simp only [pin, hbinding]
      have hsettled : settled_route (some d) (pin state (some d) engine planned).1 =
          if d.skip_retry_on_failure then (planned.pin_channel bound).2.pinned_only else (planned.pin_channel bound).2 := by
        rw [hpinned]
        simp [settled_route, hbinding]
      have hreal : RealPin (some d) planned ↔ (d.skip_retry_on_failure = true →
          (∃ c ∈ planned.attempts, c.channel_id = bound) ∨ planned.attempts.length ≤ 1) := by
        constructor
        · exact fun h hskip => h d bound rfl hskip hbinding
        · intro h other_decision other hdecision hskip hother
          obtain rfl := Option.some.inj hdecision
          cases hbinding.symm.trans hother
          exact h hskip
      rw [hsettled, hreal, Option.bind_some, hbinding]
      by_cases hmem : ∃ c ∈ planned.attempts, c.channel_id = bound
      · refine iff_of_true ?_ fun _ => .inl hmem
        obtain ⟨c, rest, hroute, hid, hperm⟩ := Route.pin_channel_of_mem hmem
        rw [hroute]
        split
        · exact .cut c (hid ▸ rfl) (hperm.subset (.head _)) rfl
        · exact .of_perm _ hperm
      · rw [Route.pin_channel_of_not_mem hmem]
        cases hskip : d.skip_retry_on_failure with
        | false => exact iff_of_true (.of_perm _ .rfl) nofun
        | true => simpa [hmem] using failoverKept_pinned_only_iff hmem

/-- A route without candidates stays without them. -/
theorem pin_attempts_eq_nil_iff (decision : Option AffinityDecision) (engine : AffinityEngine) (route : Route) :
    (pin state decision engine route).1.attempts = [] ↔ route.attempts = [] := by
  unfold pin
  split
  · exact Iff.rfl
  · split
    · exact Iff.rfl
    next bound _ =>
      by_cases hmem : ∃ c ∈ route.attempts, c.channel_id = bound
      · obtain ⟨c, rest, hroute, -, hperm⟩ := Route.pin_channel_of_mem hmem
        rw [hroute]
        exact ⟨fun hnil => (List.cons_ne_nil _ _ hnil).elim, fun hnil => List.perm_nil.mp (hnil ▸ hperm)⟩
      · rw [Route.pin_channel_of_not_mem hmem]

theorem dispatch_kept_iff :
    (∀ executed, (dispatch serde rng handling state request source now).2 = some executed →
      FailoverKept (planned_route rng handling state request source)
        ((dispatch serde rng handling state request source now).1.bind (·.binding)) executed) ↔
    RealPin (resolve_affinity serde state.affinity request now).1 (planned_route rng handling state request source) := by
  have hsettled := @settled_kept_iff state (resolve_affinity serde state.affinity request now).1
    (resolve_affinity serde state.affinity request now).2 (planned_route rng handling state request source)
  simp only [dispatch, List.isEmpty_iff, pin_attempts_eq_nil_iff]
  by_cases hempty : (planned_route rng handling state request source).attempts = []
  · simp only [if_pos hempty]
    refine iff_of_true nofun fun d bound _ _ _ => .inr ?_
    rw [hempty]
    exact Nat.zero_le 1
  · simp only [if_neg hempty, Option.some.injEq, forall_eq']
    exact hsettled

/-- Failover is given up for nothing but a real pin exactly when a request that
    must not be retried elsewhere is bound to one of its candidates. -/
theorem failover_kept_iff :
    (∀ executed, (dispatch serde rng handling state request source now).2 = some executed →
      FailoverKept (planned_route rng handling state request source)
        ((dispatch serde rng handling state request source now).1.bind (·.binding)) executed) ↔
    RealPin (resolve_affinity serde state.affinity request now).1 (planned_route rng handling state request source) :=
  dispatch_kept_iff serde rng handling request source now

end Dispatch

section Fading

theorem resolve_affinity_fades (serde : Serde) (engine : AffinityEngine) (request : GatewayRequest) (now : Instant) :
    engine.Fades (resolve_affinity serde engine request now).2 ∧
      ∀ decision, (resolve_affinity serde engine request now).1 = some decision →
        (resolve_affinity serde engine request now).2.bound decision.cache_key = decision.binding := by
  unfold resolve_affinity
  split
  · exact ⟨.refl engine, nofun⟩
  · exact AffinityEngine.resolve_fades serde _ now

/-- A pin ends the binding that it was made for, or none. -/
theorem pin_engine (state : AppState) (decision : AffinityDecision) (engine : AffinityEngine) (route : Route) :
    (pin state (some decision) engine route).2 = engine ∨
      ((pin state (some decision) engine route).2 = engine.forget decision.cache_key ∧
        (decision.binding.any fun bound => !(route.pin_channel bound).1) = true) := by
  simp only [pin]
  cases decision.binding with
  | none => exact .inl rfl
  | some bound =>
    dsimp only
    cases hpinned : (route.pin_channel bound).1 with
    | true => exact .inl (if_pos rfl)
    | false =>
      rw [if_neg Bool.false_ne_true, drop_affinity_binding]
      split
      · exact .inr ⟨rfl, by simp [hpinned]⟩
      · split
        · exact .inr ⟨rfl, by simp [hpinned]⟩
        · exact .inl rfl

theorem settle_engine (engine : AffinityEngine) (decision : AffinityDecision) :
    settle_affinity_on_failure engine decision = engine ∨
      (settle_affinity_on_failure engine decision = engine.forget decision.cache_key ∧
        decision.skip_retry_on_failure = false) := by
  unfold settle_affinity_on_failure
  cases decision.skip_retry_on_failure with
  | true => exact .inl rfl
  | false => exact .inr ⟨rfl, rfl⟩

theorem pin_fades (state : AppState) (decision : AffinityDecision) (engine : AffinityEngine) (route : Route) :
    engine.Fades (pin state (some decision) engine route).2 := by
  rcases pin_engine state decision engine route with hsame | ⟨hforgets, -⟩
  · rw [hsame]
    exact .refl engine
  · rw [hforgets]
    exact AffinityEngine.forget_fades decision.cache_key

theorem settle_fades (engine : AffinityEngine) (decision : AffinityDecision) :
    engine.Fades (settle_affinity_on_failure engine decision) := by
  rcases settle_engine engine decision with hsame | ⟨hforgets, -⟩
  · rw [hsame]
    exact .refl engine
  · rw [hforgets]
    exact AffinityEngine.forget_fades decision.cache_key

end Fading

/-- Two channels that serve one model, and a caller who is bound to a third one,
    which is gone, by a rule that keeps to its bindings. -/
def serving (id : Int) : Channel where
  id := id
  owner_id := 1
  tags := []
  visibility := .shared
  user_id := none
  endpoints := [{ protocol := .chat, models := [⟨"m", none⟩] }]

def keeping_rule : CompiledRule where
  name := "session"
  sources := [.api_key_id]
  ttl_secs := 60
  skip_retry_on_failure := true

def bound_elsewhere : AppState where
  channels := [serving 1, serving 2]
  planner := { policy := { selection := .first, retry_same_channel := true }, round_robin_cursors := fun _ => none }
  affinity := {
    enabled := true
    rules := [keeping_rule]
    entries := SortedMap.insert {} (build_cache_key "session" true "m" "1") { channel_id := 9, expires_at := 1, last_used := 0 } }

def keyed_request : GatewayRequest where
  principal := .from_api_key (sample_key (some 5))
  inbound := .chat
  model := "m"

/-- Always the first number. -/
def first_number : Rng Unit where
  random_range _ hpos _ := (⟨0, hpos⟩, ())

/-- Only one of the two channels is tried. -/
theorem bound_elsewhere_not_kept :
    ¬ ∀ executed, (dispatch .compact first_number .unary bound_elsewhere keyed_request () 0).2 = some executed →
      FailoverKept (planned_route first_number .unary bound_elsewhere keyed_request ())
        ((dispatch .compact first_number .unary bound_elsewhere keyed_request () 0).1.bind (·.binding)) executed := by
  have hplanned : (planned_route first_number .unary bound_elsewhere keyed_request ()).attempts.Perm
      (RoutePlanner.collect [serving 1, serving 2] "m" .chat) :=
    (bound_elsewhere.planner.order_ordered first_number _ "m" ()).kept
  have hchannels : (RoutePlanner.collect [serving 1, serving 2] "m" .chat).map Candidate.channel_id = [1, 2] := rfl
  have hresolved : (resolve_affinity .compact bound_elsewhere.affinity keyed_request 0).1 =
      some { rule_name := "session", cache_key := build_cache_key "session" true "m" "1", binding := some 9
             skip_retry_on_failure := true, ttl_secs := 60 } := rfl
  intro hkept
  have hreal := (dispatch_kept_iff .compact first_number .unary keyed_request () 0).mp hkept _ 9 hresolved rfl rfl
  rcases hreal with ⟨c, hc, hid⟩ | hlength
  · have hmem : c.channel_id ∈ [1, 2] := hchannels ▸ List.mem_map_of_mem (hplanned.subset hc)
    rw [hid] at hmem
    exact absurd hmem (by decide)
  · rw [hplanned.length_eq] at hlength
    exact absurd hlength (by decide)

end refract.gateway
