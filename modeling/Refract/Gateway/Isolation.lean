import Refract.Gateway.Affinity
import Refract.Router.Diagnosis

open refract.core refract.json refract.machine refract.router refract.stream refract.upstream

namespace refract.gateway

/-- The models that a principal sees. -/
def visible_model_names (channels : List Channel) (principal : Principal) : List String :=
  (sort_by_key id ((RoutePlanner.visible_models (allowed_channels channels principal)).filter principal.allows_model)).destutter (· ≠ ·)

/-- The error of a request for which there is no route. -/
def reject_empty_route (channels : List Channel) (request : GatewayRequest) : GatewayError :=
  match RoutePlanner.diagnose (allowed_channels channels request.principal) request.model request.inbound with
  | .unknown_model => .not_found ("no enabled channel provides model `" ++ request.model ++ "`")
  | .protocol_not_permitted available =>
    .invalid_request ("model `" ++ request.model ++ "` is not reachable over the " ++ request.inbound.as_str ++
      " protocol; enable protocol conversion on the channel, or use one of: " ++
      ", ".intercalate (available.iter.map (·.as_str)))
  | .routable =>
    .no_channel ("every endpoint serving `" ++ request.model ++ "` is currently suspended by the circuit breaker")

/-- Where a realtime session is connected to. -/
structure BridgeTarget where
  url : String
  credential : Credential
  channel_id : Int
  channel_name : String
  api_key_id : Option Int
  user_id : Option Int
  upstream_model : String
  extra_headers : List (String × String)

def GatewayRequest.api_key_id (self : GatewayRequest) : Option Int := self.principal.api_key.map (·.id)

section Realtime

variable {ρ : Type} (rng : Rng ρ) (config : RouterConfig) (suspended_until : Int → Protocol → Option Nat)
  (realtime_url : UpstreamAddress → String → Except GatewayError String)

/-- The target of a realtime session: the first candidate that speaks the protocol
    itself. The URL is made of its address and of the name of the model. -/
def resolve_target (state : AppState) (request : GatewayRequest) (source : ρ) : Except GatewayError BridgeTarget :=
  let planned := (state.planner.plan rng (allowed_channels state.channels request.principal) request.model .chat source).1
  let route := { planned with attempts := planned.attempts.filter (·.protocol = .chat) }
  match prioritize config suspended_until route with
  | [] => .error (.not_found ("no chat-protocol channel provides model `" ++ request.model ++ "` for realtime"))
  | place :: _ =>
    let candidate := route.candidate place
    (realtime_url candidate.address candidate.upstream_model).map fun url =>
      { url
        credential := (candidate.channel.key_pool candidate.endpoint).key_at 0
        channel_id := candidate.channel_id
        channel_name := candidate.channel.name
        api_key_id := request.api_key_id
        user_id := request.principal.user_id
        upstream_model := candidate.upstream_model
        extra_headers := candidate.channel.extra_headers }

end Realtime

/-- A private channel of somebody else. -/
def Foreign (user_id : Int) (channel : Channel) : Prop := channel.visibility = .exclusive ∧ channel.user_id ≠ some user_id

/-- Channels that differ only in private channels of others than a user. -/
inductive Alike (user_id : Int) : List Channel → List Channel → Prop
  | nil : Alike user_id [] []
  | both (channel : Channel) {channels others : List Channel} (halike : Alike user_id channels others) :
    Alike user_id (channel :: channels) (channel :: others)
  | left {channel : Channel} (hforeign : Foreign user_id channel) {channels others : List Channel}
    (halike : Alike user_id channels others) : Alike user_id (channel :: channels) others
  | right {channel : Channel} (hforeign : Foreign user_id channel) {channels others : List Channel}
    (halike : Alike user_id channels others) : Alike user_id channels (channel :: others)

section Visible

variable {user_id : Int} {channel : Channel} {channels others : List Channel} {principal : Principal}

theorem Foreign.hidden (hforeign : Foreign user_id channel) :
    (channel.visibility = .shared || channel.user_id = some user_id : Bool) = false := by
  simp [hforeign.1, hforeign.2]

theorem not_foreign_of_mem (hmem : channel ∈ channels_for channels user_id) : ¬Foreign user_id channel := by
  intro hforeign
  have hvisible := (List.mem_filter.mp hmem).2
  cases hforeign.hidden.symm.trans hvisible

/-- What a user sees of channels that are alike is the same. -/
theorem Alike.channels_for (halike : Alike user_id channels others) :
    gateway.channels_for channels user_id = gateway.channels_for others user_id := by
  unfold gateway.channels_for
  induction halike with
  | nil => rfl
  | both channel _ ih => rw [List.filter_cons, List.filter_cons, ih]
  | left hforeign _ ih => rw [List.filter_cons, if_neg (Bool.eq_false_iff.mp hforeign.hidden), ih]
  | right hforeign _ ih => rw [List.filter_cons, if_neg (Bool.eq_false_iff.mp hforeign.hidden), ih]

theorem Alike.allowed_channels (halike : Alike principal.gateway_user_id channels others) :
    gateway.allowed_channels channels principal = gateway.allowed_channels others principal :=
  congrArg (List.filter principal.allows_channel) halike.channels_for

theorem not_foreign_of_allowed (hmem : channel ∈ allowed_channels channels principal) :
    ¬Foreign principal.gateway_user_id channel := not_foreign_of_mem (List.mem_filter.mp hmem).1

end Visible

section Subset

variable {state : AppState} {decision : Option AffinityDecision} {engine : AffinityEngine} {route : Route} {c : Candidate}

theorem pin_subset (hc : c ∈ (pin state decision engine route).1.attempts) : c ∈ route.attempts := by
  unfold pin at hc
  split at hc
  · exact hc
  · split at hc
    · exact hc
    next bound _ =>
      by_cases hmem : ∃ c ∈ route.attempts, c.channel_id = bound
      · obtain ⟨first, rest, hroute, -, hperm⟩ := Route.pin_channel_of_mem hmem
        rw [hroute] at hc
        exact hperm.subset hc
      · rw [Route.pin_channel_of_not_mem hmem] at hc
        exact hc

theorem settled_route_subset (hc : c ∈ (settled_route decision route).attempts) : c ∈ route.attempts := by
  unfold settled_route at hc
  dsimp only at hc
  split at hc
  · split at hc
    · exact List.mem_of_mem_take hc
    · exact hc
  · exact hc

end Subset

section Isolation

variable {ρ : Type} (serde : Serde) (rng : Rng ρ) (config : RouterConfig) (suspended_until : Int → Protocol → Option Nat)
  (realtime_url : UpstreamAddress → String → Except GatewayError String)

/-- A request gets the same in two states of the gateway, and no private channel of
    anybody else. -/
structure Isolated (handling : Handling) (state other : AppState) (request : GatewayRequest) (source : ρ) (now : Instant) : Prop where
  planned : planned_route rng handling state request source = planned_route rng handling other request source
  /-- The cursors and the random numbers move on alike. -/
  moved : (state.planner.plan rng (allowed_channels state.channels request.principal) request.model request.inbound source).2 =
    (other.planner.plan rng (allowed_channels other.channels request.principal) request.model request.inbound source).2
  dispatched : dispatch serde rng handling state request source now = dispatch serde rng handling other request source now
  diagnosed : reject_empty_route state.channels request = reject_empty_route other.channels request
  listed : visible_model_names state.channels request.principal = visible_model_names other.channels request.principal
  bridged : resolve_target rng config suspended_until realtime_url state request source =
    resolve_target rng config suspended_until realtime_url other request source
  planned_own : ∀ c ∈ (planned_route rng handling state request source).attempts, ¬Foreign request.principal.gateway_user_id c.channel
  dispatched_own : ∀ route, (dispatch serde rng handling state request source now).2 = some route →
    ∀ c ∈ route.attempts, ¬Foreign request.principal.gateway_user_id c.channel
  bridged_own : ∀ target, resolve_target rng config suspended_until realtime_url state request source = .ok target →
    ∃ channel ∈ state.channels, ¬Foreign request.principal.gateway_user_id channel ∧ target.channel_id = channel.id

variable {rng} {handling : Handling} {state : AppState} {channels : List Channel} {request : GatewayRequest} {source : ρ} {now : Instant}

theorem planned_route_own {c : Candidate} (hc : c ∈ (planned_route rng handling state request source).attempts) :
    ¬Foreign request.principal.gateway_user_id c.channel := by
  have hplanned : c ∈ (state.planner.plan rng (allowed_channels state.channels request.principal) request.model request.inbound
      source).1.attempts := by
    cases handling with
    | unary | stream => exact hc
    | passthrough => exact (List.mem_filter.mp hc).1
  exact not_foreign_of_allowed (RoutePlanner.channel_of_plan hplanned)

/-- The route that is executed has candidates of the planned one alone. -/
theorem dispatch_subset {route : Route} (hroute : (dispatch serde rng handling state request source now).2 = some route) {c : Candidate}
    (hc : c ∈ route.attempts) : c ∈ (planned_route rng handling state request source).attempts := by
  unfold dispatch at hroute
  dsimp only at hroute
  split at hroute
  · cases hroute
  · obtain rfl := Option.some.inj hroute
    exact pin_subset (settled_route_subset hc)

variable {config suspended_until realtime_url} in
theorem resolve_target_own {target : BridgeTarget}
    (htarget : resolve_target rng config suspended_until realtime_url state request source = .ok target) :
    ∃ channel ∈ state.channels, ¬Foreign request.principal.gateway_user_id channel ∧ target.channel_id = channel.id := by
  unfold resolve_target at htarget
  dsimp only at htarget
  split at htarget
  · cases htarget
  next place rest _ =>
    have hplanned := (List.mem_filter.mp (List.get_mem _ place)).1
    have hallowed := RoutePlanner.channel_of_plan hplanned
    have hmem := (List.mem_filter.mp (List.mem_filter.mp hallowed).1).1
    refine ⟨_, hmem, not_foreign_of_allowed hallowed, ?_⟩
    cases hurl : realtime_url (Route.candidate _ place).address (Route.candidate _ place).upstream_model with
    | error error =>
      rw [hurl] at htarget
      cases htarget
    | ok url =>
      rw [hurl] at htarget
      obtain rfl := Except.ok.inj htarget
      rfl

/-- Where a request is moved to does not depend on the channels. -/
theorem pin_route (state other : AppState) (decision : Option AffinityDecision) (engine : AffinityEngine) (route : Route) :
    (pin state decision engine route).1 = (pin other decision engine route).1 := by
  cases decision with
  | none => rfl
  | some decision =>
    unfold pin
    split
    · rfl
    · split <;> rfl

variable (channels request source now)

/-- Private channels of others neither show nor move anything. -/
theorem isolated (halike : Alike request.principal.gateway_user_id state.channels channels) :
    Isolated serde rng config suspended_until realtime_url handling state { state with channels } request source now := by
  have hallowed := halike.allowed_channels
  have hplanned : planned_route rng handling state request source = planned_route rng handling { state with channels } request source := by
    simp only [planned_route, hallowed]
  exact {
    planned := hplanned
    moved := by rw [hallowed]
    dispatched := by
      simp only [dispatch, ← hplanned]
      rw [pin_route state { state with channels }]
    diagnosed := by simp only [reject_empty_route, hallowed]
    listed := by
      unfold visible_model_names
      rw [hallowed]
    bridged := by
      unfold resolve_target
      rw [hallowed]
    planned_own := fun _ hc => planned_route_own hc
    dispatched_own := fun _ hroute _ hc => planned_route_own (dispatch_subset serde hroute hc)
    bridged_own := fun _ htarget => resolve_target_own htarget }

end Isolation

/-- A channel of another user that serves the same model, and comes first. -/
def neighbour : Channel := { serving 3 with visibility := .exclusive, user_id := some 9, priority := 1 }

theorem neighbour_isolated :
    Isolated .compact first_number {} (fun _ _ => none) (fun _ _ => .ok "wss://upstream/v1/realtime") .stream
      { bound_elsewhere with channels := [serving 1, neighbour, serving 2] }
      { bound_elsewhere with channels := [serving 1, serving 2] } keyed_request () 0 :=
  isolated .compact {} (fun _ _ => none) (fun _ _ => .ok "wss://upstream/v1/realtime") [serving 1, serving 2] keyed_request () 0
    (.both _ (.left ⟨rfl, by decide⟩ (.both _ .nil)))

end refract.gateway
