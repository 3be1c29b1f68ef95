import Refract.Codec.Thinking
import Refract.Router.Bounds

open refract.core refract.json refract.ir refract.stream refract.upstream

namespace refract.router

section Overrides

/-- What becomes of a field when others are merged over it. -/
def merged (key : String) (own : Option Value) (fields : Map) : Option Value :=
  fields.foldl (fun own field => if field.1 = key then (if field.2.is_null then none else some field.2) else own) own

/-- What becomes of a field under the overrides of a channel. -/
def overridden (param_override : Option ParamOverride) (protocol : Protocol) (key : String) (own : Option Value) :
    Option Value :=
  match param_override with
  | none => own
  | some overrides => merged key (merged key own overrides.common) ((overrides.protocols protocol).getD [])

/-- A field that the merged ones do not name stays as it is. -/
theorem merged_eq_of_not_mem {key : String} {fields : Map} (h : key ∉ fields.map Prod.fst) (own : Option Value) :
    merged key own fields = own := by
  induction fields generalizing own with
  | nil => rfl
  | cons field fields ih =>
    rw [List.map_cons, List.mem_cons, not_or] at h
    rw [merged, List.foldl_cons, if_neg (Ne.symm h.1)]
    exact ih h.2 own

theorem merge_fields_spec {map : Map} (hkeys : (map.map Prod.fst).Nodup) (fields : Map) :
    ((merge_fields map fields).map Prod.fst).Nodup ∧
      ∀ key, (merge_fields map fields).lookup key = merged key (map.lookup key) fields := by
  induction fields generalizing map with
  | nil => exact ⟨hkeys, fun _ => rfl⟩
  | cons field fields ih =>
    by_cases hnull : field.2.is_null = true
    · obtain ⟨hnodup, hlookup⟩ := ih (keys_swap_remove_nodup hkeys field.1)
      rw [merge_fields, List.foldl_cons, if_pos hnull]
      refine ⟨hnodup, fun key => (hlookup key).trans ?_⟩
      rw [lookup_swap_remove hkeys, merged, merged, List.foldl_cons, if_pos hnull]
      by_cases hkey : key = field.1
      · rw [if_pos hkey, if_pos hkey.symm]
      · rw [if_neg hkey, if_neg (Ne.symm hkey)]
    · obtain ⟨hnodup, hlookup⟩ := ih (keys_insert_nodup hkeys field.1 field.2)
      rw [merge_fields, List.foldl_cons, if_neg hnull]
      refine ⟨hnodup, fun key => (hlookup key).trans ?_⟩
      rw [merged, merged, List.foldl_cons, if_neg hnull]
      by_cases hkey : key = field.1
      · rw [if_pos hkey.symm, hkey, Map.get_insert_self]
      · rw [if_neg (Ne.symm hkey), Map.get_insert_of_ne _ _ _ hkey]

/-- The overrides of a channel, field by field. -/
theorem get_apply_param_override {map : Map} (hkeys : (map.map Prod.fst).Nodup) (param_override : Option ParamOverride)
    (protocol : Protocol) (key : String) :
    (apply_param_override (.object map) param_override protocol).get key =
      overridden param_override protocol key (map.lookup key) := by
  cases param_override with
  | none => rfl
  | some overrides =>
    obtain ⟨hnodup, hcommon⟩ := merge_fields_spec hkeys overrides.common
    rw [apply_param_override, overridden]
    cases hgroup : overrides.protocols protocol with
    | none => rw [Option.getD_none, ← hcommon]; rfl
    | some group =>
      rw [Option.getD_some, ← hcommon, ← (merge_fields_spec hnodup group).2]
      rfl

end Overrides

namespace Loop

variable {route : Route} {ρ α : Type} {loop : Loop route ρ α}

/-- A call is one that was prepared for its candidate. -/
def Prepared (loop : Loop route ρ α) (call : route.Place × UpstreamRequest) : Prop :=
  ∃ attempts request credential, loop.prepare call.1 attempts = .ready request ∧ call.2 = request credential

/-- What was sent was prepared, and so is what is sent again. -/
structure Sends (loop : Loop route ρ α) (turn : Turn route α) : Prop where
  sent : ∀ call ∈ turn.effects.filterMap Effect.call, loop.Prepared call
  awaits : ∀ progress attempt rest, turn.state = .awaiting progress attempt rest →
    ∃ attempts, loop.prepare attempt.idx attempts = .ready attempt.request

theorem call_sends {attempt : Attempt route} (h : ∃ attempts, loop.prepare attempt.idx attempts = .ready attempt.request)
    (progress : Progress) (rest : List route.Place) : loop.Sends (call progress attempt rest : Turn route α) := by
  obtain ⟨attempts, hprepare⟩ := h
  rcases call_cases (α := α) progress attempt rest with hexhausted | ⟨-, hcall⟩
  · rw [hexhausted]
    exact ⟨by simp, by simp⟩
  · rw [hcall]
    refine ⟨fun call hmem => ?_, fun _ _ _ hstate => ?_⟩
    · obtain rfl := List.mem_singleton.mp hmem
      exact ⟨attempts, attempt.request, attempt.rotator.current, hprepare, rfl⟩
    · obtain ⟨-, rfl, -⟩ := State.awaiting.inj hstate
      exact ⟨attempts, hprepare⟩

theorem visit_sends (progress : Progress) (order : List route.Place) : loop.Sends (loop.visit progress order) := by
  induction order generalizing progress with
  | nil => exact ⟨by simp [visit], by simp [visit]⟩
  | cons idx rest ih =>
    rw [visit]
    generalize (if loop.counts_first = true then progress.attempt else progress) = looked
    cases hprepare : loop.prepare idx looked.attempts with
    | skipped error => exact ih _
    | aborted error => exact ⟨by simp, by simp⟩
    | ready request => exact call_sends ⟨_, hprepare⟩ _ rest

/-- Earlier effects come before. -/
theorem Sends.after {turn : Turn route α} (h : loop.Sends turn) {effects : List (Effect route)}
    (heffects : ∀ call ∈ effects.filterMap Effect.call, loop.Prepared call) : loop.Sends (turn.after effects) where
  sent call hmem := by
    rw [Turn.after, List.filterMap_append, List.mem_append] at hmem
    exact hmem.elim (heffects call) (h.sent call)
  awaits := h.awaits

/-- An answer leads to nothing else. -/
theorem step_sends {turn : Turn route α} (h : loop.Sends turn) (moment : Moment) (reply : ρ) :
    loop.Sends ((loop.step turn.state moment reply).after turn.effects) := by
  refine Sends.after ?_ h.sent
  cases hstate : turn.state with
  | finished result => exact ⟨by simp [step], by simp [step]⟩
  | awaiting progress attempt rest =>
    have hprepare := h.awaits _ _ _ hstate
    have hstep := loop.step_stepped progress attempt rest moment reply
    generalize loop.step (.awaiting progress attempt rest) moment reply = next at hstep
    cases hstep with
    | finished hempty result effects heffects => exact ⟨by simp [heffects], by simp⟩
    | again hempty =>
      refine call_sends ?_ _ rest
      exact hprepare
    | rotated hempty hrotate =>
      refine call_sends ?_ _ rest
      exact hprepare
    | moved hempty error effects heffects => exact (visit_sends _ rest).after (by simp [heffects])

theorem foldl_sends (replies : List (Moment × ρ)) {turn : Turn route α} (h : loop.Sends turn) :
    loop.Sends (replies.foldl loop.next turn) := by
  induction replies generalizing turn with
  | nil => exact h
  | cons reply replies ih => exact ih (step_sends h reply.1 reply.2)

/-- Every call of a run was prepared for its candidate. -/
theorem run_prepared {order : List route.Place} {replies : List (Moment × ρ)} {idx : route.Place} {request : UpstreamRequest}
    (hsent : .sent idx request ∈ (loop.run order replies).effects) : loop.Prepared (idx, request) :=
  (foldl_sends replies (visit_sends _ order)).sent _ (List.mem_filterMap.mpr ⟨_, hsent, rfl⟩)

end Loop

/-- The codecs of the gateway. -/
def codec_set (serde : Serde) : RequestCodec UnifiedRequest where
  decode_request := codec.decode_request serde
  encode_request protocol ir := .ok (codec.encode_request serde protocol ir)
  address ir model stream := { ir with model := model, stream := stream }

/-- The stream options that ask for usage. -/
def with_usage : Value := .object [("include_usage", .bool true)]

section Requests

variable {serde : Serde} {ir : UnifiedRequest}

/-- A Chat request names no field twice. -/
theorem chat_fields_nodup (serde : Serde) (ir : UnifiedRequest) : ((codec.chat.request_fields serde ir).map Prod.fst).Nodup := by
  have hsublist : ((codec.chat.request_fields serde ir).map Prod.fst).Sublist
      (["model", "messages"] ++ ["temperature"] ++ ["top_p"] ++ ["frequency_penalty"] ++ ["presence_penalty"] ++ ["seed"] ++
        ["n"] ++ ["stop"] ++ ["max_completion_tokens"] ++ ["stream"] ++ ["stream_options"] ++ ["reasoning_effort"] ++
        ["response_format"] ++ ["tools"] ++ ["tool_choice"] ++ ["parallel_tool_calls"] ++ ["user"]) := by
    simp only [codec.chat.request_fields, List.map_append]
    repeat' apply List.Sublist.append
    all_goals first | exact keys_member _ _ | exact .refl _
  exact hsublist.nodup (by decide)

theorem chat_restored_nodup (ext : Extensions) {body : Map} (hbody : (body.map Prod.fst).Nodup) :
    ((codec.chat.restore_extensions ext body).map Prod.fst).Nodup := by
  induction ext generalizing body with
  | nil => exact hbody
  | cons entry ext ih =>
    rw [codec.chat.restore_extensions, List.foldl_cons]
    refine ih ?_
    dsimp only
    split
    · split
      · exact hbody
      · exact keys_insert_nodup hbody _ _
    · exact hbody

/-- The stream options of a Chat request, which no protocol's own fields touch. -/
theorem chat_stream_options {source : Protocol} (hext : ir.extensions.Every (codec.Kept source)) (hstream : ir.stream = true) :
    (codec.chat.encode_request serde ir).get "stream_options" =
      if ir.stream_include_usage then some with_usage else none := by
  rw [codec.chat.encode_request, Value.get_object,
    codec.chat.lookup_restore hext _ (by unfold codec.Stored; decide)]
  simp [codec.chat.request_fields, List.lookup_append, lookup_member, List.lookup_cons, hstream, with_usage]

end Requests

/-- The gateway's executor. -/
def gateway_executor (serde : Serde) (texts : Texts) (config : RouterConfig) : RouteExecutor UnifiedRequest where
  serde := serde
  texts := texts
  codec := codec_set serde
  config := config

/-- The document that a call sends. -/
def sent_document (serde : Serde) (request : UpstreamRequest) : Option Value :=
  request.body.or (request.raw_body.bind (from_slice serde))

/-- The upstream is asked to count the tokens of a stream. -/
def AsksUsage (body : Value) : Prop :=
  ((body.get "stream_options").bind (·.get "include_usage")).bind Value.as_bool = some true

/-- The stream options that a client's request is sent with to a Chat upstream. -/
def sent_options (route : Route) (idx : route.Place) (client : Value) : Option Value :=
  let overridden := overridden (route.candidate idx).channel.param_override .chat "stream_options"
  if route.inbound = .chat then client.as_object.bind fun own => overridden (own.lookup "stream_options")
  else overridden (some with_usage)

section Bodies

variable {serde : Serde}

/-- Usage is wanted of every stream whose client did not have to ask for it. -/
theorem include_usage_of_decode_request {source : Protocol} {client : Value} {ir : UnifiedRequest}
    (h : codec.decode_request serde source client = .ok ir) (hsource : source ≠ .chat)
    (hstream : source ≠ .gemini → (client.get "stream").bind Value.as_bool = some true) : ir.stream_include_usage = true := by
  cases source with
  | chat => exact absurd rfl hsource
  | responses =>
    obtain ⟨obj, rfl, hread⟩ := codec.responses.decode_request_decodesTo h
    rw [hread.usage, show (Map.get obj "stream").bind Value.as_bool = some true from hstream (by decide)]
    rfl
  | messages =>
    obtain ⟨obj, rfl, hread⟩ := codec.messages.decode_request_decodesTo h
    rw [hread.usage, show (Map.get obj "stream").bind Value.as_bool = some true from hstream (by decide)]
    rfl
  | gemini =>
    obtain ⟨obj, -, hread⟩ := codec.gemini.decode_request_decodesTo h
    exact hread.usage

/-- Putting in the model's name leaves the other fields alone. -/
theorem get_overridden_model {map : Map} (hkeys : (map.map Prod.fst).Nodup) (candidate : Candidate) :
    (apply_param_override (rewrite_model (.object map) .chat candidate.upstream_model) candidate.channel.param_override
      .chat).get "stream_options" =
      overridden candidate.channel.param_override .chat "stream_options" (map.lookup "stream_options") := by
  rw [rewrite_model, if_neg (by decide), get_apply_param_override (keys_insert_nodup hkeys _ _), Map.get_insert_of_ne _ _ _ (by decide)]

/-- A transcoded body. -/
theorem encode_for_stream_options {source : Protocol} {client body : Value} {ir : UnifiedRequest} {candidate : Candidate}
    {model : String} (hir : codec.decode_request serde source client = .ok ir) (husage : ir.stream_include_usage = true)
    (hchat : candidate.protocol = .chat)
    (hbody : encode_for (codec_set serde) candidate { ir with model := model, stream := true } = .ok body) :
    body.get "stream_options" = overridden candidate.channel.param_override .chat "stream_options" (some with_usage) := by
  have hext : ir.extensions.Every (codec.Kept source) := codec.decode_request_kept hir
  have hkeys := chat_restored_nodup ir.extensions (chat_fields_nodup serde { ir with model := model, stream := true })
  have hoptions : (codec.chat.encode_request serde { ir with model := model, stream := true }).get "stream_options" =
      some with_usage := by
    refine (@chat_stream_options _ _ source ?_ rfl).trans (if_pos husage)
    exact hext
  obtain rfl := Except.ok.inj hbody
  rw [hchat, ← hoptions]
  exact get_overridden_model hkeys candidate

/-- The overrides of a channel name a field. -/
def Names (param_override : Option ParamOverride) (protocol : Protocol) (key : String) : Prop :=
  ∃ overrides, param_override = some overrides ∧
    (key ∈ overrides.common.map Prod.fst ∨ key ∈ ((overrides.protocols protocol).getD []).map Prod.fst)

theorem overridden_eq_of_not_names {param_override : Option ParamOverride} {protocol : Protocol} {key : String}
    (h : ¬Names param_override protocol key) (own : Option Value) : overridden param_override protocol key own = own := by
  cases param_override with
  | none => rfl
  | some overrides =>
    have hcommon : key ∉ overrides.common.map Prod.fst := fun hmem => h ⟨overrides, rfl, .inl hmem⟩
    have hgroup : key ∉ ((overrides.protocols protocol).getD []).map Prod.fst := fun hmem => h ⟨overrides, rfl, .inr hmem⟩
    rw [overridden, merged_eq_of_not_mem hgroup, merged_eq_of_not_mem hcommon]

/-- Overrides without effect name no field. -/
theorem not_names_of_not_touches {param_override : Option ParamOverride} {protocol : Protocol}
    (h : ¬param_override_touches param_override protocol = true) (key : String) : ¬Names param_override protocol key := by
  rintro ⟨overrides, rfl, hmem⟩
  refine h ?_
  rw [param_override_touches, Option.any_some, Bool.or_eq_true]
  rcases hmem with hmem | hmem
  · left
    cases hcommon : overrides.common with
    | nil => simp [hcommon] at hmem
    | cons => rfl
  · right
    cases hgroup : overrides.protocols protocol with
    | none => simp [hgroup] at hmem
    | some group =>
      cases group with
      | nil => simp [hgroup] at hmem
      | cons => rfl

/-- A native body. -/
theorem native_stream_options (hserde : serde.Lawful) {texts : Texts} {candidate : Candidate} {route : Route}
    {raw_body : Bytes} {client : Value} {prepared : PreparedBody} (hclient : from_slice serde raw_body = some client)
    (hchat : candidate.protocol = .chat) (hprepared : prepare_native_body serde texts candidate route raw_body = .ok prepared)
    (credential : Credential) (action : Action) :
    ∃ body, sent_document serde (prepared.to_request candidate credential action) = some body ∧
      body.get "stream_options" = client.as_object.bind fun own =>
        overridden candidate.channel.param_override .chat "stream_options" (own.lookup "stream_options") := by
  unfold prepare_native_body at hprepared
  dsimp only at hprepared
  split at hprepared
  next huntouched =>
    obtain rfl := Except.ok.inj hprepared
    refine ⟨client, hclient, ?_⟩
    cases client with
    | object own =>
      have hnames := not_names_of_not_touches (hchat ▸ huntouched.2) "stream_options"
      exact (overridden_eq_of_not_names hnames _).symm
    | _ => rfl
  · rw [hclient] at hprepared
    dsimp only at hprepared
    obtain rfl := Except.ok.inj hprepared
    refine ⟨_, rfl, ?_⟩
    rw [hchat]
    cases client with
    | object own =>
      have hkeys : (own.map Prod.fst).Nodup := by
        unfold from_slice at hclient
        split at hclient
        · exact ((Value.wellFormed_object own).mp (hserde.from_str_wellFormed _ _ hclient)).1
        · cases hclient
      split
      · exact get_overridden_model hkeys candidate
      · exact get_apply_param_override hkeys _ _ _
    | _ =>
      have hsame : ∀ body : Value, body.as_object = none → ∀ param_override,
          (apply_param_override body param_override .chat).get "stream_options" = none := by
        intro body hnone param_override
        cases body with
        | object map => cases hnone
        | _ => cases param_override <;> rfl
      split
      · exact hsame _ rfl _
      · exact hsame _ rfl _

end Bodies

section Runs

variable {serde : Serde} {texts : Texts} {config : RouterConfig} {route : Route} {first_index : route.Place → Nat}
  {raw_body : Bytes} {model : String} {headers : List (String × String)} {client : Value} {idx : route.Place}

/-- What is prepared for a Chat upstream. -/
theorem prepared_stream_options (hserde : serde.Lawful) (hclient : from_slice serde raw_body = some client)
    (hstream : route.inbound ≠ .gemini → (client.get "stream").bind Value.as_bool = some true)
    (hchat : (route.candidate idx).protocol = .chat) {attempts : Nat} {make : Credential → UpstreamRequest}
    (hprepare : ((gateway_executor serde texts config).execute_stream route first_index
      (.raw route.inbound raw_body model true headers)).prepare idx attempts = .ready make) (credential : Credential) :
    ∃ body, sent_document serde (make credential) = some body ∧
      body.get "stream_options" = sent_options route idx client := by
  have hneeds : (route.candidate idx).needs_transcode route.inbound = decide (route.inbound ≠ .chat) := by
    rw [Candidate.needs_transcode, show (route.candidate idx).endpoint.protocol = .chat from hchat]
  dsimp only [RouteExecutor.execute_stream, RouteExecutor.execute_stream_raw, gateway_executor] at hprepare
  rw [hneeds] at hprepare
  by_cases hinbound : route.inbound = .chat
  · rw [if_neg (by simp [hinbound])] at hprepare
    split at hprepare
    · cases hprepare
    next prepared hprepared =>
      obtain rfl := Preparation.ready.inj hprepare
      rw [sent_options, if_pos hinbound]
      exact native_stream_options hserde hclient hchat hprepared credential .stream
  · rw [if_pos (by simp [hinbound])] at hprepare
    split at hprepare
    · cases hprepare
    next ir hir =>
      split at hprepare
      · cases hprepare
      next body hbody =>
        obtain rfl := Preparation.ready.inj hprepare
        rw [decode_raw_request, hclient] at hir
        obtain ⟨read, hread, hir⟩ := machine.bind_eq_ok.mp hir
        obtain rfl := Except.ok.inj hir
        rw [sent_options, if_neg hinbound]
        exact ⟨body, rfl, encode_for_stream_options hread (include_usage_of_decode_request hread hinbound hstream) hchat hbody⟩

/-- In every run, a request for a stream of a Chat upstream carries the options
    for it that its client sent, where the client speaks Chat, and else asks for
    usage; both up to the overrides of the channel. -/
theorem stream_options_sent (hserde : serde.Lawful) (hclient : from_slice serde raw_body = some client)
    (hstream : route.inbound ≠ .gemini → (client.get "stream").bind Value.as_bool = some true)
    (order : List route.Place) (replies : List (Moment × RouteExecutor.StreamReply)) {request : UpstreamRequest}
    (hsent : .sent idx request ∈ (((gateway_executor serde texts config).execute_stream route first_index
      (.raw route.inbound raw_body model true headers)).run order replies).effects)
    (hchat : (route.candidate idx).protocol = .chat) :
    ∃ body, sent_document serde request = some body ∧ body.get "stream_options" = sent_options route idx client ∧
      (route.inbound ≠ .chat → ¬Names (route.candidate idx).channel.param_override .chat "stream_options" →
        AsksUsage body) := by
  obtain ⟨attempts, make, credential, hprepare, rfl⟩ := Loop.run_prepared hsent
  obtain ⟨body, hbody, hoptions⟩ := prepared_stream_options hserde hclient hstream hchat hprepare credential
  refine ⟨body, hbody, hoptions, fun hinbound hnames => ?_⟩
  rw [AsksUsage, hoptions, sent_options, if_neg hinbound, overridden_eq_of_not_names hnames]
  rfl

end Runs

/-- A Chat client's request with one candidate, a Chat upstream. -/
def streamed : Route where
  inbound := .chat
  model := "m"
  attempts := [{
    channel := { id := 1, owner_id := 1, tags := [], visibility := .shared, user_id := none }
    endpoint := { protocol := .chat }
    model := ⟨"m", none⟩
    rank := ⟨false, 0, 0⟩ }]
  attempt_cap := 1
  max_upstream_calls := 0
  identity := none

/-- A request for a stream, with the client's options for it. -/
def streaming (options : Option Value) : Value :=
  .object ([("model", .string "m"), ("stream", .bool true)] ++ member "stream_options" options)

theorem from_slice_streaming {options : Option Value} (hoptions : ∀ v, options = some v → v.WellFormed) :
    from_slice Serde.compact (as_bytes (Serde.compact.to_string (streaming options))) = some (streaming options) := by
  rw [from_slice, from_utf8_as_bytes]
  refine Serde.compact_lawful.from_str_to_string _ ?_
  cases options with
  | none => simp [streaming, member]
  | some v => simp [streaming, member, hoptions v rfl]

/-- The call that a client's request is sent with. -/
def streamed_call (options : Option Value) : UpstreamRequest :=
  .post_raw .chat {} ⟨""⟩ "m" .stream (as_bytes (Serde.compact.to_string (streaming options)))

/-- It is the client's body. -/
theorem streamed_call_sent (options : Option Value) :
    .sent (0 : Fin 1) (streamed_call options) ∈
      (((gateway_executor Serde.compact RouteExecutor.plain.texts {}).execute_stream streamed (fun _ => 0)
        (.raw streamed.inbound (as_bytes (Serde.compact.to_string (streaming options))) "m" true [])).run [(0 : Fin 1)]
          []).effects :=
  List.mem_singleton.mpr rfl

theorem stream_options_sent_of_client :
    ∃ body, sent_document Serde.compact (streamed_call (some with_usage)) = some body ∧
      body.get "stream_options" = sent_options streamed (0 : Fin 1) (streaming (some with_usage)) ∧
      (streamed.inbound ≠ .chat → ¬Names (streamed.candidate (0 : Fin 1)).channel.param_override .chat "stream_options" →
        AsksUsage body) :=
  stream_options_sent Serde.compact_lawful
    (from_slice_streaming fun v hv => by obtain rfl := Option.some.inj hv; simp [with_usage]) (fun _ => rfl)
    ([(0 : Fin 1)] : List streamed.Place) [] (streamed_call_sent (some with_usage)) rfl

/-- A Chat client that does not ask for usage is not asked for it either. -/
theorem no_usage_asked :
    ¬ ∀ (route : Route) (first_index : route.Place → Nat) (raw_body : Bytes) (model : String)
      (headers : List (String × String)) (client : Value) (order : List route.Place)
      (replies : List (Moment × RouteExecutor.StreamReply)) (idx : route.Place) (request : UpstreamRequest),
      from_slice Serde.compact raw_body = some client →
      (route.inbound ≠ .gemini → (client.get "stream").bind Value.as_bool = some true) →
      .sent idx request ∈ (((gateway_executor Serde.compact RouteExecutor.plain.texts {}).execute_stream route first_index
        (.raw route.inbound raw_body model true headers)).run order replies).effects →
      (route.candidate idx).protocol = .chat →
      ∃ body, sent_document Serde.compact request = some body ∧ AsksUsage body := by
  intro h
  have hclient := from_slice_streaming fun _ hv => absurd hv.symm (Option.some_ne_none _)
  obtain ⟨body, hbody, hasks⟩ := h streamed (fun _ => 0) _ "m" [] _ [(0 : Fin 1)] [] (0 : Fin 1) _ hclient (fun _ => rfl)
    (streamed_call_sent none) rfl
  obtain rfl : streaming none = body := Option.some.inj (hclient.symm.trans hbody)
  exact absurd hasks (by unfold AsksUsage; decide)

end refract.router
