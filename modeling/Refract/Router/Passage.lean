import Refract.Codec.Reply
import Refract.Codec.Task
import Refract.Router.Overrides

open refract.core refract.json refract.ir refract.codec refract.machine refract.stream refract.upstream

namespace refract.router

/-- A call as it travels: a body, with the model and the way of answering that its path
    or its body names. -/
structure Call where
  protocol : Protocol
  body : Value
  model : String
  stream : Bool

/-- The call that a gateway makes of a call, when it chooses a candidate. One of the same
    protocol gets the body as it is, but for the name of the model. -/
def forward (serde : Serde) (call : Call) (candidate : Candidate) : Except GatewayError Call :=
  if candidate.needs_transcode call.protocol then do
    let ir ← (codec_set serde).decode_request call.protocol call.body
    let body ← encode_for (codec_set serde) candidate ((codec_set serde).address ir call.model call.stream)
    return { protocol := candidate.protocol, body := body, model := candidate.upstream_model, stream := call.stream }
  else
    .ok
      { call with
        body := apply_param_override
          (if candidate.protocol ≠ .gemini ∧ candidate.upstream_model ≠ call.model
            then rewrite_model call.body candidate.protocol candidate.upstream_model else call.body)
          candidate.channel.param_override candidate.protocol
        model := candidate.upstream_model }

/-- A call for a task, which the next gateway can read. -/
structure Means (serde : Serde) (task : Task) (call : Call) : Prop where
  model : call.model = task.model
  reads : ∃ read, codec.decode_request serde call.protocol call.body = .ok read ∧ Addressed serde task read

variable {serde : Serde} {task : Task}

section Rewritten

variable {obj : Map}

/-- The name of the model is no extension. -/
theorem foldl_insert_known {keep : Extensions → String × Value → Extensions} {key : String} (h : ∀ ext value, keep ext (key, value) = ext)
    (value : Value) (ext : Extensions) : (Map.insert obj key value).foldl keep ext = obj.foldl keep ext := by
  induction obj generalizing ext with
  | nil => exact h ext value
  | cons entry obj ih =>
    obtain ⟨k, v⟩ := entry
    by_cases hk : k = key
    · subst hk
      rw [Map.insert, if_pos rfl, List.foldl_cons, List.foldl_cons, h, h]
    · rw [Map.insert, if_neg hk, List.foldl_cons, List.foldl_cons, ih]

theorem get_rewritten {key : String} (hkey : key ≠ "model") (model : String) :
    Map.get (Map.insert obj "model" (.string model)) key = Map.get obj key := Map.get_insert_of_ne _ _ _ hkey

theorem get_str_rewritten {key : String} (hkey : key ≠ "model") (model : String) :
    (Value.object (Map.insert obj "model" (.string model))).get_str key = (Value.object obj).get_str key :=
  congrArg (Option.bind · Value.as_str) (get_rewritten hkey model)

theorem named_rewritten {model : String} (hne : model ≠ "") :
    ((Value.object (Map.insert obj "model" (.string model))).get_str "model").filter (· ≠ "") = some model := by
  have hget : (Value.object (Map.insert obj "model" (.string model))).get_str "model" = some model :=
    congrArg (Option.bind · Value.as_str) (Map.get_insert_self obj "model" (.string model))
  rw [hget]
  simp [Option.filter, hne]

/-- A request under another name of the model is read as it was. -/
theorem chat_rewritten {read : UnifiedRequest} (h : codec.chat.decode_request serde (.object obj) = .ok read) {model : String} (hne : model ≠ "") :
    codec.chat.decode_request serde (.object (Map.insert obj "model" (.string model))) = .ok { read with model := model } := by
  have hextensions : ∀ tools, codec.chat.request_extensions (Map.insert obj "model" (.string model)) tools =
      codec.chat.request_extensions obj tools := fun tools => foldl_insert_known (fun ext value => if_pos (by decide)) _ _
  unfold codec.chat.decode_request at h ⊢
  dsimp only at h ⊢
  rw [named_rewritten hne]
  simp only [get_rewritten (by decide : "messages" ≠ "model"), get_rewritten (by decide : "dropped_thinking" ≠ "model"),
    get_rewritten (by decide : "tools" ≠ "model"), get_rewritten (by decide : "tool_choice" ≠ "model"),
    get_rewritten (by decide : "parallel_tool_calls" ≠ "model"), get_rewritten (by decide : "temperature" ≠ "model"),
    get_rewritten (by decide : "top_p" ≠ "model"), get_rewritten (by decide : "frequency_penalty" ≠ "model"),
    get_rewritten (by decide : "presence_penalty" ≠ "model"), get_rewritten (by decide : "stop" ≠ "model"),
    get_rewritten (by decide : "seed" ≠ "model"), get_rewritten (by decide : "n" ≠ "model"),
    get_rewritten (by decide : "max_completion_tokens" ≠ "model"), get_rewritten (by decide : "max_tokens" ≠ "model"),
    get_rewritten (by decide : "stream" ≠ "model"), get_rewritten (by decide : "stream_options" ≠ "model"),
    get_rewritten (by decide : "response_format" ≠ "model"), get_str_rewritten (by decide : "reasoning_effort" ≠ "model"),
    get_str_rewritten (by decide : "user" ≠ "model"), hextensions]
  split at h
  · cases h
  · cases h
  next raws hmodel hmessages =>
    rw [hmessages]
    obtain ⟨conversation, hconversation, rfl⟩ := map_eq_ok.mp h
    dsimp only
    rw [hconversation]
    rfl

theorem responses_rewritten {read : UnifiedRequest} (h : codec.responses.decode_request serde (.object obj) = .ok read) {model : String}
    (hne : model ≠ "") :
    codec.responses.decode_request serde (.object (Map.insert obj "model" (.string model))) = .ok { read with model := model } := by
  have hextensions : ∀ builtins, codec.responses.request_extensions (Map.insert obj "model" (.string model)) builtins =
      codec.responses.request_extensions obj builtins := by
    intro builtins
    unfold codec.responses.request_extensions
    simp only [List.foldl_cons, List.foldl_nil, get_rewritten (by decide : "previous_response_id" ≠ "model"),
      get_rewritten (by decide : "store" ≠ "model"), get_rewritten (by decide : "include" ≠ "model"),
      get_rewritten (by decide : "metadata" ≠ "model")]
    exact foldl_insert_known (fun ext value => if_pos rfl) _ _
  unfold codec.responses.decode_request at h ⊢
  dsimp only at h ⊢
  rw [named_rewritten hne]
  simp only [get_rewritten (by decide : "input" ≠ "model"), get_rewritten (by decide : "tools" ≠ "model"),
    get_rewritten (by decide : "tool_choice" ≠ "model"), get_rewritten (by decide : "parallel_tool_calls" ≠ "model"),
    get_rewritten (by decide : "temperature" ≠ "model"), get_rewritten (by decide : "top_p" ≠ "model"),
    get_rewritten (by decide : "max_output_tokens" ≠ "model"), get_rewritten (by decide : "stream" ≠ "model"),
    get_rewritten (by decide : "reasoning" ≠ "model"), get_rewritten (by decide : "text" ≠ "model"),
    get_str_rewritten (by decide : "instructions" ≠ "model"), get_str_rewritten (by decide : "user" ≠ "model"), hextensions]
  split at h
  · cases h
  next hmodel =>
    obtain ⟨told, htold, rfl⟩ := map_eq_ok.mp h
    rw [htold]
    rfl

theorem messages_rewritten {read : UnifiedRequest} (h : codec.messages.decode_request serde (.object obj) = .ok read) {model : String}
    (hne : model ≠ "") :
    codec.messages.decode_request serde (.object (Map.insert obj "model" (.string model))) = .ok { read with model := model } := by
  have hextensions : ∀ functions server, codec.messages.request_extensions (Map.insert obj "model" (.string model)) functions server =
      codec.messages.request_extensions obj functions server := by
    intro functions server
    unfold codec.messages.request_extensions codec.messages.other_metadata
    simp only [get_rewritten (by decide : "system" ≠ "model"), get_rewritten (by decide : "metadata" ≠ "model")]
    exact foldl_insert_known (fun ext value => if_pos (by decide)) _ _
  unfold codec.messages.decode_request at h ⊢
  dsimp only at h ⊢
  rw [named_rewritten hne]
  simp only [get_rewritten (by decide : "max_tokens" ≠ "model"), get_rewritten (by decide : "stream" ≠ "model"),
    get_rewritten (by decide : "system" ≠ "model"), get_rewritten (by decide : "messages" ≠ "model"),
    get_rewritten (by decide : "tools" ≠ "model"), get_rewritten (by decide : "tool_choice" ≠ "model"),
    get_rewritten (by decide : "temperature" ≠ "model"), get_rewritten (by decide : "top_p" ≠ "model"),
    get_rewritten (by decide : "top_k" ≠ "model"), get_rewritten (by decide : "stop_sequences" ≠ "model"),
    get_rewritten (by decide : "thinking" ≠ "model"), get_rewritten (by decide : "metadata" ≠ "model"), hextensions]
  obtain ⟨named, -, h⟩ := bind_eq_ok.mp h
  obtain ⟨limit, hlimit, h⟩ := bind_eq_ok.mp h
  obtain ⟨system, hsystem, h⟩ := bind_eq_ok.mp h
  obtain ⟨conversation, hconversation, h⟩ := bind_eq_ok.mp h
  obtain ⟨tools, htools, h⟩ := bind_eq_ok.mp h
  obtain rfl := Except.ok.inj h
  rw [hlimit, hsystem, hconversation, htools]
  rfl

end Rewritten

/-- What is no object is no request. -/
theorem object_of_decode_request {protocol : Protocol} {body : Value} {read : UnifiedRequest}
    (h : codec.decode_request serde protocol body = .ok read) : ∃ obj, body = .object obj := by
  cases body with
  | object obj => exact ⟨obj, rfl⟩
  | _ => cases protocol <;> cases h

theorem rewritten {protocol : Protocol} (hprotocol : protocol ≠ .gemini) {body : Value} {read : UnifiedRequest}
    (h : codec.decode_request serde protocol body = .ok read) {model : String} (hne : model ≠ "") :
    codec.decode_request serde protocol (rewrite_model body protocol model) = .ok { read with model := model } := by
  obtain ⟨obj, rfl⟩ := object_of_decode_request h
  rw [rewrite_model, if_neg hprotocol]
  cases protocol with
  | chat => exact chat_rewritten h hne
  | responses => exact responses_rewritten h hne
  | messages => exact messages_rewritten h hne
  | gemini => exact absurd rfl hprotocol

/-- Nothing is put in the place of what the client asks for, and the upstream has a name
    for the model. -/
structure Candidate.Faithful (candidate : Candidate) : Prop where
  named : candidate.upstream_model ≠ ""
  spares : param_override_touches candidate.channel.param_override candidate.protocol = false

/-- Overrides without effect. -/
theorem apply_untouched {param_override : Option ParamOverride} {protocol : Protocol}
    (h : param_override_touches param_override protocol = false) (body : Value) :
    apply_param_override body param_override protocol = body := by
  cases param_override with
  | none => rfl
  | some overrides =>
    rw [param_override_touches, Option.any_some, Bool.or_eq_false_iff] at h
    obtain ⟨hcommon, hgroup⟩ := h
    cases body with
    | object map =>
      have hkept : merge_fields map overrides.common = map := by
        cases hentries : overrides.common with
        | nil => rfl
        | cons => simp [hentries] at hcommon
      rw [apply_param_override, hkept]
      cases hprotocol : overrides.protocols protocol with
      | none => rfl
      | some group =>
        cases group with
        | nil => rfl
        | cons => simp [hprotocol] at hgroup
    | _ => rfl

/-- A request under another name of the model is for the same task. -/
theorem addressed_rewritten {protocol : Protocol} {body : Value} {model : String} (hne : model ≠ "")
    (h : ∃ read, codec.decode_request serde protocol body = .ok read ∧ Addressed serde task read) :
    ∃ read, codec.decode_request serde protocol (rewrite_model body protocol model) = .ok read ∧ Addressed serde task read := by
  obtain ⟨read, hread, haddressed⟩ := h
  by_cases hprotocol : protocol = .gemini
  · have hsame : rewrite_model body protocol model = body := if_pos hprotocol
    rw [hsame]
    exact ⟨read, hread, haddressed⟩
  · refine ⟨_, rewritten hprotocol hread hne, fun name stream => ?_⟩
    exact haddressed name stream

/-- A task stays the same from one gateway to the next. -/
theorem forward_means (hserde : serde.Lawful) (hsound : task.Sound) {call : Call} (h : Means serde task call) {candidate : Candidate}
    (hfaithful : candidate.Faithful) :
    ∃ next, forward serde call candidate = .ok next ∧ Means serde { task with model := candidate.upstream_model } next ∧
      next.protocol = candidate.protocol ∧ next.model = candidate.upstream_model ∧ next.stream = call.stream := by
  obtain ⟨read, hread, haddressed⟩ := h.reads
  by_cases hneeds : candidate.needs_transcode call.protocol = true
  · have hasks : Asks serde task { read with model := call.model, stream := call.stream } := by
      have hcall := haddressed call.model call.stream
      rw [h.model] at hcall ⊢
      exact hcall
    have hwritten := addressed_rewritten hfaithful.named (task_passes hserde hsound hasks candidate.protocol)
    refine ⟨⟨candidate.protocol, rewrite_model (codec.encode_request serde candidate.protocol
      { read with model := call.model, stream := call.stream }) candidate.protocol candidate.upstream_model,
      candidate.upstream_model, call.stream⟩, ?_, ⟨rfl, hwritten⟩, rfl, rfl, rfl⟩
    rw [forward, if_pos hneeds]
    change Except.bind (codec.decode_request serde call.protocol call.body) _ = _
    rw [hread]
    refine congrArg Except.ok (congrArg (Call.mk _ · _ _) ?_)
    exact apply_untouched hfaithful.spares _
  · have hsame : call.protocol = candidate.protocol := by
      unfold Candidate.needs_transcode at hneeds
      exact not_not.mp fun hne => hneeds (decide_eq_true hne)
    rw [forward, if_neg hneeds, apply_untouched hfaithful.spares]
    refine ⟨_, rfl, ⟨rfl, ?_⟩, hsame, rfl, rfl⟩
    dsimp only
    rw [← hsame]
    split
    · exact addressed_rewritten hfaithful.named ⟨read, hread, haddressed⟩
    · exact ⟨read, hread, haddressed⟩

/-- A call of a function and what it comes to. -/
def weather : Errand where
  id := "call_1"
  name := "weather"
  input := [("city", .string "Oslo")]
  output := [("sky", .string "clear")]

theorem weather_sound : weather.Sound where
  id_ne := by decide
  own_id := by decide
  input := by simp [weather]
  output := by simp [weather]
  no_error := by decide

/-- A dialogue with a call. -/
def forecast : Task where
  model := "m"
  instructions := some "Be brief."
  moves := [.asked "Is it clear?", .called [weather], .answered "Yes."]
  offers := [⟨"weather", some "Looks at the sky.", [("type", .string "object")]⟩]
  choice := .auto
  temperature := none
  top_p := none
  limit := 100

theorem forecast_sound : forecast.Sound where
  model_ne := by decide
  instructed := by decide
  moves :=
    { each := by
        simp only [forecast, List.forall_mem_cons]
        exact ⟨.asked (by decide), .called (by decide) (by simpa using weather_sound), .answered (by decide), List.forall_mem_nil _⟩
      opened := by simp [forecast, Move.is_question]
      alternate := by simp [forecast, Move.is_question, Move.is_answer]
      one_name := by simp [forecast, Move.errands] }
  offers := List.forall_mem_cons.mpr ⟨⟨by decide, by decide⟩, List.forall_mem_nil _⟩
  limited := by decide

/-- The request of its client. -/
def forecast_request : UnifiedRequest where
  model := "m"
  system := [.text "Be brief."]
  messages := [{ role := .user, content := [.text "Is it clear?"] },
    { role := .assistant, content := [.toolUse "call_1" "weather" (.object weather.input) none] },
    { role := .tool, content := [.toolResult "call_1" none [.text (Serde.compact.to_string (.object weather.output))] false] },
    { role := .assistant, content := [.text "Yes."] }]
  tools := [⟨"weather", some "Looks at the sky.", .object [("type", .string "object")], none⟩]
  tool_choice := .auto
  max_output_tokens := some 100

theorem forecast_asked : Asks Serde.compact forecast forecast_request where
  model := rfl
  system := rfl
  messages := by
    have hreport := @Reports.of_output _ _ Serde.compact_lawful weather_sound none (by simp)
    have hresults : List.Forall₂ (Reports Serde.compact) [weather]
        [[ContentPart.toolResult "call_1" none [.text (Serde.compact.to_string (.object weather.output))] false]].flatten := .cons hreport .nil
    exact .asked none (.called none (.cons ⟨none, rfl⟩ .nil) hresults (by simp) (.answered none .nil))
  tools := .cons ⟨rfl, rfl, rfl⟩ .nil
  tool_choice := rfl
  parallel := by decide
  temperature := rfl
  top_p := rfl
  limit := rfl
  reasoning := rfl
  extensions := rfl

/-- A candidate that speaks a protocol and has a name for the model. -/
def speaking (protocol : Protocol) (upstream_model : String) : Candidate where
  channel := { id := 1, owner_id := 1, tags := [], visibility := .shared, user_id := none }
  endpoint := { protocol := protocol }
  model := ⟨"m", some upstream_model⟩
  rank := ⟨false, 0, 0⟩

def forecast_call : Call where
  protocol := .chat
  body := encode_request Serde.compact .chat forecast_request
  model := "m"
  stream := false

theorem forecast_meant : Means Serde.compact forecast forecast_call :=
  ⟨rfl, task_passes Serde.compact_lawful forecast_sound forecast_asked .chat⟩

section Runs

variable {texts : Texts} {config : RouterConfig} {route : Route} {first_index : route.Place → Nat} {raw_body : Bytes}
  {headers : List (String × String)} {call : Call} {idx : route.Place}

/-- What is made of a body that is passed on. -/
theorem native_forwarded (hclient : from_slice serde raw_body = some call.body) (hmodel : route.model = call.model)
    (hneeds : ¬(route.candidate idx).needs_transcode call.protocol = true) (hfaithful : (route.candidate idx).Faithful)
    {prepared : PreparedBody} (hprepared : prepare_native_body serde texts (route.candidate idx) route raw_body = .ok prepared)
    (credential : Credential) (action : Action) :
    ∃ next, forward serde call (route.candidate idx) = .ok next ∧
      sent_document serde (prepared.to_request (route.candidate idx) credential action) = some next.body := by
  obtain ⟨body, hsent, hbody⟩ := prepare_native_body_spec hclient hprepared credential action
  have hsame : body = aliased (route.candidate idx) route call.body := by
    obtain hbody | ⟨hbody, -⟩ := hbody
    · rw [hbody, apply_untouched hfaithful.spares]
    · exact hbody
  refine ⟨_, if_neg hneeds, hsent.trans (congrArg some ?_)⟩
  rw [hsame, ← hmodel]
  exact (apply_untouched hfaithful.spares _).symm

/-- What is made of a body that is read and written again. -/
theorem transcoded_forwarded (hclient : from_slice serde raw_body = some call.body)
    (hneeds : (route.candidate idx).needs_transcode call.protocol = true) {ir : UnifiedRequest} {body : Value}
    (hread : decode_raw_request (codec_set serde) serde texts call.protocol raw_body call.model call.stream = .ok ir)
    (hbody : encode_for (codec_set serde) (route.candidate idx) ir = .ok body) :
    ∃ next, forward serde call (route.candidate idx) = .ok next ∧ next.body = body := by
  rw [decode_raw_request, hclient] at hread
  obtain ⟨read, hdecoded, hread⟩ := bind_eq_ok.mp hread
  obtain rfl := Except.ok.inj hread
  refine ⟨⟨(route.candidate idx).protocol, body, (route.candidate idx).upstream_model, call.stream⟩, ?_, rfl⟩
  rw [forward, if_pos hneeds, hdecoded]
  exact bind_eq_ok.mpr ⟨read, rfl, bind_eq_ok.mpr ⟨body, hbody, rfl⟩⟩

/-- What is prepared for a candidate is the call that it is forwarded. -/
theorem prepared_forwarded (hclient : from_slice serde raw_body = some call.body) (hinbound : route.inbound = call.protocol)
    (hmodel : route.model = call.model) (hfaithful : (route.candidate idx).Faithful) {attempts : Nat}
    {make : Credential → UpstreamRequest}
    (hprepare : ((gateway_executor serde texts config).execute route first_index
        (.raw call.protocol raw_body call.model call.stream headers)).prepare idx attempts = .ready make ∨
      ((gateway_executor serde texts config).execute_stream route first_index
        (.raw call.protocol raw_body call.model call.stream headers)).prepare idx attempts = .ready make)
    (credential : Credential) :
    ∃ next, forward serde call (route.candidate idx) = .ok next ∧ sent_document serde (make credential) = some next.body := by
  by_cases hneeds : (route.candidate idx).needs_transcode call.protocol = true
  · obtain hprepare | hprepare := hprepare
    all_goals
      dsimp only [RouteExecutor.execute, RouteExecutor.execute_raw, RouteExecutor.execute_stream, RouteExecutor.execute_stream_raw,
        gateway_executor] at hprepare
      rw [hinbound, if_pos hneeds] at hprepare
      split at hprepare
      · cases hprepare
      next ir hread =>
        split at hprepare
        · cases hprepare
        next body hbody =>
          obtain rfl := Preparation.ready.inj hprepare
          obtain ⟨next, hnext, rfl⟩ := transcoded_forwarded hclient hneeds hread hbody
          exact ⟨next, hnext, rfl⟩
  · obtain hprepare | hprepare := hprepare
    all_goals
      dsimp only [RouteExecutor.execute, RouteExecutor.execute_raw, RouteExecutor.execute_stream, RouteExecutor.execute_stream_raw,
        gateway_executor] at hprepare
      rw [hinbound, if_neg hneeds] at hprepare
      split at hprepare
      · cases hprepare
      next prepared hprepared =>
        obtain rfl := Preparation.ready.inj hprepare
        exact native_forwarded hclient hmodel hneeds hfaithful hprepared credential _

end Runs

/-- A client's call with one candidate, which speaks its protocol. -/
def asking : Route where
  inbound := .chat
  model := "m"
  attempts := [speaking .chat "m"]
  attempt_cap := 1
  max_upstream_calls := 0
  identity := none

/-- What its client writes. -/
theorem forecast_written : forecast_call.body = .object [("model", .string "m"),
    ("messages", .array [.object [("role", .string "system"), ("content", .string "Be brief.")],
      .object [("role", .string "user"), ("content", .string "Is it clear?")],
      .object [("role", .string "assistant"), ("content", .null),
        ("tool_calls", .array [.object [("id", .string "call_1"), ("type", .string "function"),
          ("function", .object [("name", .string "weather"), ("arguments", .string (Serde.compact.to_string (.object weather.input)))])]])],
      .object [("role", .string "tool"), ("tool_call_id", .string "call_1"),
        ("content", .string (Serde.compact.to_string (.object weather.output)))],
      .object [("role", .string "assistant"), ("content", .string "Yes.")]]),
    ("max_completion_tokens", .nat 100),
    ("tools", .array [.object [("type", .string "function"), ("function", .object [("name", .string "weather"),
      ("description", .string "Looks at the sky."), ("parameters", .object [("type", .string "object")])])]]),
    ("tool_choice", .string "auto")] := by
  rfl

theorem from_slice_forecast :
    from_slice Serde.compact (as_bytes (Serde.compact.to_string forecast_call.body)) = some forecast_call.body := by
  rw [from_slice, from_utf8_as_bytes]
  refine Serde.compact_lawful.from_str_to_string _ ?_
  simp [forecast_written]

section Replies

/-- An answer on its way back. -/
structure Returned where
  protocol : Protocol
  body : Value

/-- What a gateway makes of the answer of an upstream, for a client of a protocol. One of the
    same protocol is passed on as it is. -/
def hand_back (serde : Serde) (answer : Returned) (hop : Moment × Protocol) : Except GatewayError Returned :=
  if answer.protocol ≠ hop.2 then do
    let payload ← decode_response serde hop.1.uuid hop.1.now answer.protocol answer.body
    return ⟨hop.2, encode_response serde hop.2 payload⟩
  else .ok answer

/-- An answer that gives a reply, whenever it is read. -/
def Bears (serde : Serde) (reply : Reply) (answer : Returned) : Prop :=
  ∀ uuid now, ∃ payload, decode_response serde uuid now answer.protocol answer.body = .ok payload ∧ Gives reply payload

variable {reply : Reply} {payload : UnifiedResponse} {answer : Returned}

theorem bears_written (hserde : serde.Lawful) (hsound : reply.Sound) (h : Gives reply payload) (protocol : Protocol) :
    Bears serde reply ⟨protocol, encode_response serde protocol payload⟩ := fun _ _ => reply_passes hserde hsound h protocol

/-- A reply stays the same from one gateway to the next. -/
theorem hand_back_bears (hserde : serde.Lawful) (hsound : reply.Sound) (h : Bears serde reply answer) (hop : Moment × Protocol) :
    ∃ next, hand_back serde answer hop = .ok next ∧ Bears serde reply next ∧ next.protocol = hop.2 := by
  by_cases hsame : answer.protocol = hop.2
  · exact ⟨answer, if_neg (not_not.mpr hsame), h, hsame⟩
  · obtain ⟨payload, hpayload, hgives⟩ := h hop.1.uuid hop.1.now
    refine ⟨_, ?_, bears_written hserde hsound hgives hop.2, rfl⟩
    rw [hand_back, if_pos hsame, hpayload]
    rfl

/-- The upstream's reply to the forecast's question. -/
def outlook : Reply where
  id := "r"
  model := "m"
  text := some "I look."
  errands := [weather]
  stop := .toolUse
  input_tokens := 7
  output_tokens := 9

theorem outlook_sound : outlook.Sound where
  id_ne := by decide
  worded := by decide
  errands := by simpa [outlook] using weather_sound.toSendable
  stops := .inr rfl

theorem outlook_given : Gives outlook
    { id := "r", model := "m", created := 0
      content := [.text "I look.", .toolUse "call_1" "weather" (.object weather.input) none], stop_reason := some .toolUse
      usage := { input_tokens := 7, output_tokens := 9 } } where
  id := rfl
  model := rfl
  content := ⟨_, .cons ⟨none, rfl⟩ .nil, .inl rfl⟩
  stop_reason := rfl
  input_tokens := rfl
  output_tokens := rfl
  reasoning := Fin.zero_le _
  extensions := .inl rfl

/-- When a gateway reads it. -/
def outlook_read : Moment where
  uuid := "u"
  now := 0
  latency_ms := 0

end Replies

end refract.router
