import Refract.Codec.Passage

open refract.core refract.json refract.ir refract.machine

namespace refract.codec

/-- A function that the model is offered. -/
structure Offer where
  name : String
  description : Option String
  parameters : Map

/-- What every protocol can ask of a model. -/
structure Task where
  model : String
  instructions : Option String
  moves : List Move
  offers : List Offer
  choice : ToolChoice
  temperature : Option F64
  top_p : Option F64
  limit : Nat

/-- A function with a name. One that is not described says nothing. -/
structure Offer.Sound (offer : Offer) : Prop where
  name_ne : offer.name ≠ ""
  described : offer.description ≠ some ""

structure Task.Sound (task : Task) : Prop where
  model_ne : task.model ≠ ""
  instructed : task.instructions ≠ some ""
  moves : codec.Sound task.moves
  offers : ∀ offer ∈ task.offers, offer.Sound
  limited : task.limit ≤ U32_MAX

/-- A tool that is the function. Whether its schema is strict is not asked everywhere. -/
def Offers (offer : Offer) (tool : ToolDef) : Prop :=
  tool.name = offer.name ∧ tool.description = offer.description ∧ tool.parameters = .object offer.parameters

/-- A request for a task. What else it names may be lost on the way, such as the
    sequences to stop at or the form of the answer. -/
structure Asks (serde : Serde) (task : Task) (ir : UnifiedRequest) : Prop where
  model : ir.model = task.model
  system : ir.system = (task.instructions.map ContentPart.text).toList
  messages : Conveys serde task.moves ir.messages
  tools : List.Forall₂ Offers task.offers ir.tools
  tool_choice : ir.tool_choice = task.choice
  parallel : ir.parallel_tool_calls ≠ some false
  temperature : ir.sampling.temperature = task.temperature
  top_p : ir.sampling.top_p = task.top_p
  limit : ir.max_output_tokens = some task.limit
  reasoning : ir.reasoning = none
  extensions : ir.extensions = []

variable {serde : Serde} {task : Task} {ir : UnifiedRequest}

/-- Items that change nothing can be passed over. -/
theorem foldl_still {α β : Type} {f : α → β → α} {items : List β} (h : ∀ item ∈ items, ∀ a, f a item = a) (a : α) :
    items.foldl f a = a := by
  induction items with
  | nil => rfl
  | cons item items ih =>
    obtain ⟨hitem, hitems⟩ := List.forall_mem_cons.mp h
    rw [List.foldl_cons, hitem, ih hitems]

/-- Fields that are all known add no extension. -/
theorem foldl_known {obj : Map} {keys : List String} {keep : Extensions → String × Value → Extensions}
    (hkeys : (obj.map Prod.fst).Sublist keys) (h : ∀ key ∈ keys, ∀ ext value, keep ext (key, value) = ext) (ext : Extensions) :
    obj.foldl keep ext = ext :=
  foldl_still (fun entry hentry ext => h entry.1 (hkeys.subset (List.mem_map_of_mem hentry)) ext entry.2) ext

theorem as_f64_to_json (value : Option F64) : (value.map F64.to_json).bind as_f64 = value := by
  cases value <;> rfl

theorem filter_all {α : Type} {p : α → Bool} (h : ∀ a, p a = true) (value : Option α) : value.filter p = value := by
  cases value with
  | none => rfl
  | some a => rw [Option.filter, if_pos (h a)]

theorem bind_bool (value : Option Bool) : (value.map Value.bool).bind Value.as_bool = value := by
  cases value <;> rfl

theorem lines_text (text : String) : ContentPart.lines [.text text] = text := by
  simp [ContentPart.lines, ContentPart.texts, ContentPart.as_text]

theorem filterMap_read {α β : Type} {f : α → Option β} {as : List α} {bs : List β} (h : List.Forall₂ (fun a b => f a = some b) as bs) :
    as.filterMap f = bs := by
  induction h with
  | nil => rfl
  | cons hfirst _ ih => rw [List.filterMap_cons, hfirst, ih]

/-- A list that is left out when it is empty. -/
theorem getD_listed (items : List Value) :
    ((if items.isEmpty then none else some (Value.array items)).bind Value.as_array).getD [] = items := by
  cases items <;> rfl

/-- A request is for a task under any name of the model, and however it is to be answered. -/
def Addressed (serde : Serde) (task : Task) (read : UnifiedRequest) : Prop :=
  ∀ model stream, Asks serde { task with model := model } { read with model := model, stream := stream }

section Chat

def chat.REQUEST_KEYS : List String :=
  ["model", "messages"] ++ ["temperature"] ++ ["top_p"] ++ ["frequency_penalty"] ++ ["presence_penalty"] ++ ["seed"] ++ ["n"] ++
    ["stop"] ++ ["max_completion_tokens"] ++ ["stream"] ++ ["stream_options"] ++ ["reasoning_effort"] ++ ["response_format"] ++
    ["tools"] ++ ["tool_choice"] ++ ["parallel_tool_calls"] ++ ["user"]

theorem chat.request_keys : ((chat.request_fields serde ir).map Prod.fst).Sublist chat.REQUEST_KEYS := by
  simp only [chat.request_fields, List.map_append]
  repeat' apply List.Sublist.append
  all_goals first | exact keys_member _ _ | exact .refl _

/-- The members of a request. -/
theorem chat.request_members : ∀ obj, obj = chat.request_fields serde ir →
    Map.get obj "model" = some (.string ir.model) ∧
    Map.get obj "messages" = some (.array (chat.encode_system ir ++ ir.messages.flatMap (chat.encode_message serde))) ∧
    Map.get obj "temperature" = ir.sampling.temperature.map F64.to_json ∧
    Map.get obj "top_p" = ir.sampling.top_p.map F64.to_json ∧
    Map.get obj "max_completion_tokens" = ir.max_output_tokens.map Value.nat ∧
    Map.get obj "reasoning_effort" = chat.encode_effort ir ∧
    Map.get obj "tools" = (if (chat.encode_tools ir).isEmpty then none else some (.array (chat.encode_tools ir))) ∧
    Map.get obj "tool_choice" = chat.tool_choice_json ir.tool_choice ∧
    Map.get obj "parallel_tool_calls" = ir.parallel_tool_calls.map .bool ∧
    Map.get obj "dropped_thinking" = none := by
  rintro _ rfl
  refine ⟨?_, ?_, ?_, ?_, ?_, ?_, ?_, ?_, ?_, ?_⟩
  all_goals simp [chat.request_fields, Map.get, List.lookup_append, lookup_member, lookup_cons_ite]

/-- What a request with a model and messages is read into. -/
theorem chat.decode_request_object {obj : Map} {model : String} {raws : List Value} {system : List ContentPart} {messages : List Message}
    (hmodel : Map.get obj "model" = some (.string model)) (hne : model ≠ "") (hmessages : Map.get obj "messages" = some (.array raws))
    (hread : chat.decode_messages serde ((Map.get obj "dropped_thinking").bind Value.as_array) 0 raws = .ok (system, messages)) :
    ∃ read, chat.decode_request serde (.object obj) = .ok read ∧ read.system = system ∧ read.messages = messages ∧
      read.tools = (((Map.get obj "tools").bind Value.as_array).getD []).filterMap chat.decode_tool ∧
      read.tool_choice = chat.decode_tool_choice (Map.get obj "tool_choice") ∧
      read.parallel_tool_calls = (Map.get obj "parallel_tool_calls").bind Value.as_bool ∧
      read.sampling.temperature = (Map.get obj "temperature").bind as_f64 ∧
      read.sampling.top_p = (Map.get obj "top_p").bind as_f64 ∧
      read.max_output_tokens =
        (chat.as_u32 (Map.get obj "max_completion_tokens")).or (chat.as_u32 (Map.get obj "max_tokens")) ∧
      read.reasoning = ((Map.get obj "reasoning_effort").bind Value.as_str).map (fun effort => { effort := some effort }) ∧
      read.extensions = chat.request_extensions obj (((Map.get obj "tools").bind Value.as_array).getD []) := by
  have hnamed : ((Value.object obj).get_str "model").filter (· ≠ "") = some model := by
    change ((Map.get obj "model").bind Value.as_str).filter _ = _
    rw [hmodel]
    simp [Option.filter, Value.as_str, hne]
  have hlist : (Map.get obj "messages").bind Value.as_array = some raws := by
    rw [hmessages]
    rfl
  unfold chat.decode_request
  dsimp only
  rw [hnamed, hlist]
  dsimp only
  rw [hread]
  exact ⟨_, rfl, rfl, rfl, rfl, rfl, rfl, rfl, rfl, rfl, rfl, rfl⟩

/-- A function is read back. -/
theorem chat.decode_tool_json (tool : ToolDef) : chat.decode_tool (chat.tool_json tool) = some tool := by
  obtain ⟨name, description, parameters, strict⟩ := tool
  cases description <;> cases strict <;> rfl

theorem chat.tool_json_function (tool : ToolDef) : ((chat.tool_json tool).get "function").isNone = false := rfl

theorem chat.tool_choice_read (choice : ToolChoice) : chat.decode_tool_choice (chat.tool_choice_json choice) = choice := by
  cases choice <;> rfl

theorem chat.as_u32_nat {n : Nat} (hn : n ≤ U32_MAX) : chat.as_u32 (some (.nat n)) = some n := by
  have hlt : n < 18446744073709551616 := by
    unfold U32_MAX at hn
    omega
  rw [chat.as_u32, Option.bind_some, Value.as_u64_nat_of_lt hlt, Option.map_some]
  exact congrArg some (min_eq_left hn)

/-- A task is the same after a request in this protocol. -/
theorem chat.task_passes (hserde : serde.Lawful) (hsound : task.Sound) (h : Asks serde task ir) :
    ∃ read, chat.decode_request serde (chat.encode_request serde ir) = .ok read ∧ Addressed serde task read := by
  have hwritten : chat.encode_request serde ir = .object (chat.request_fields serde ir) := by
    rw [chat.encode_request, h.extensions]
    rfl
  obtain ⟨hmodel, hmessages, htemperature, htop_p, hlimit, heffort, htools, hchoice, hparallel, hdropped⟩ :=
    @chat.request_members serde ir _ rfl
  have htool_values : chat.encode_tools ir = ir.tools.map chat.tool_json := by
    rw [chat.encode_tools, UnifiedRequest.extension, h.extensions]
    exact List.append_nil _
  obtain ⟨conversation, hconversation, htells⟩ := chat.conversation_read hserde h.messages hsound.moves.each
  have hread : chat.decode_messages serde none 0 (chat.encode_system ir ++ ir.messages.flatMap (chat.encode_message serde)) =
      .ok ((task.instructions.map ContentPart.text).toList, conversation) := by
    cases hinstructions : task.instructions with
    | none =>
      have hsystem : chat.encode_system ir = [] := by
        rw [chat.encode_system, h.system, hinstructions]
        rfl
      rw [hsystem]
      exact chat.decode_messages_read hconversation 0
    | some text =>
      have hne : text ≠ "" := fun heq => hsound.instructed (by rw [hinstructions, heq])
      have hsystem : chat.encode_system ir = [.object [("role", .string "system"), ("content", .string text)]] := by
        have htext : ir.system_text = text := by rw [UnifiedRequest.system_text, h.system, hinstructions]; exact lines_text text
        rw [chat.encode_system, htext, h.system, hinstructions]
        rfl
      have hinstruction : chat.decode_message serde none 0 (.object [("role", .string "system"), ("content", .string text)]) =
          .ok (chat.parse_content (some (.string text)), []) := rfl
      rw [chat.parse_content, if_neg hne] at hinstruction
      rw [hsystem, List.singleton_append, chat.decode_messages, hinstruction, Except.bind, chat.decode_messages_read hconversation 1]
      rfl
  have hne : ir.model ≠ "" := by
    rw [h.model]
    exact hsound.model_ne
  obtain ⟨read, hdecoded, hsystem, hmessages_read, htools_read, hchoice_read, hparallel_read, htemperature_read, htop_p_read,
    hlimit_read, hreasoning_read, hextensions_read⟩ :=
      chat.decode_request_object hmodel hne hmessages (by rw [hdropped]; exact hread)
  rw [hwritten]
  refine ⟨read, hdecoded, fun model stream => ?_⟩
  rw [htools, getD_listed, htool_values] at htools_read hextensions_read
  constructor
  case model => rfl
  case system => exact hsystem
  case messages => exact hmessages_read ▸ htells
  case tools =>
    have hback : (ir.tools.map chat.tool_json).filterMap chat.decode_tool = ir.tools := by
      have hcomposed : chat.decode_tool ∘ chat.tool_json = some := funext chat.decode_tool_json
      rw [List.filterMap_map, hcomposed, List.filterMap_some]
    rw [hback] at htools_read
    exact htools_read ▸ h.tools
  case tool_choice =>
    rw [hchoice, chat.tool_choice_read, h.tool_choice] at hchoice_read
    exact hchoice_read
  case parallel =>
    rw [hparallel, bind_bool] at hparallel_read
    exact hparallel_read ▸ h.parallel
  case temperature =>
    rw [htemperature, as_f64_to_json, h.temperature] at htemperature_read
    exact htemperature_read
  case top_p =>
    rw [htop_p, as_f64_to_json, h.top_p] at htop_p_read
    exact htop_p_read
  case limit =>
    rw [hlimit, h.limit, Option.map_some, chat.as_u32_nat hsound.limited] at hlimit_read
    exact hlimit_read
  case reasoning =>
    rw [heffort, chat.encode_effort, h.reasoning] at hreasoning_read
    exact hreasoning_read
  case extensions =>
    have hnone : chat.builtin_tools (ir.tools.map chat.tool_json) = [] := by
      refine List.filter_eq_nil_iff.mpr fun raw hraw => ?_
      obtain ⟨tool, -, rfl⟩ := List.mem_map.mp hraw
      exact Bool.false_ne_true
    rw [chat.request_extensions, hnone] at hextensions_read
    refine hextensions_read.trans (foldl_known chat.request_keys (fun key hkey ext value => if_pos ?_) _)
    exact List.all_eq_true.mp (by decide : chat.REQUEST_KEYS.all chat.KNOWN_REQUEST_FIELDS.contains = true) key hkey

end Chat

section Messages

def messages.REQUEST_KEYS : List String :=
  ["model", "max_tokens"] ++ ["stream"] ++ ["system"] ++ ["messages"] ++ ["tools"] ++ ["tool_choice"] ++ ["temperature"] ++ ["top_p"] ++
    ["top_k"] ++ ["stop_sequences"] ++ ["thinking"] ++ ["metadata"]

theorem messages.request_keys : ((messages.request_fields ir).map Prod.fst).Sublist messages.REQUEST_KEYS := by
  simp only [messages.request_fields, List.map_append]
  repeat' apply List.Sublist.append
  all_goals first | exact keys_member _ _ | exact .refl _

theorem messages.request_members : ∀ obj, obj = messages.request_fields ir →
    Map.get obj "model" = some (.string ir.model) ∧
    Map.get obj "max_tokens" = some (.nat (messages.max_tokens ir)) ∧
    Map.get obj "system" = messages.encode_instructions ir ∧
    Map.get obj "messages" = some (.array (messages.encode_messages ir.messages)) ∧
    Map.get obj "tools" = messages.encode_tools ir ∧
    Map.get obj "tool_choice" = messages.encode_tool_choice ir.tool_choice ir.parallel_tool_calls ∧
    Map.get obj "temperature" = messages.encode_temperature ir ∧
    Map.get obj "top_p" = messages.encode_top_p ir ∧
    Map.get obj "thinking" = messages.encode_reasoning ir ∧
    Map.get obj "metadata" = messages.encode_metadata ir := by
  rintro _ rfl
  refine ⟨?_, ?_, ?_, ?_, ?_, ?_, ?_, ?_, ?_, ?_⟩
  all_goals simp [messages.request_fields, Map.get, List.lookup_append, lookup_member, lookup_cons_ite]

/-- The functions among the tools of a request. -/
def messages.functions (obj : Map) : List Value :=
  (((Map.get obj "tools").bind Value.as_array).getD []).filter fun tool => (tool.get "input_schema").isSome

def messages.server_tools (obj : Map) : List Value :=
  (((Map.get obj "tools").bind Value.as_array).getD []).filter fun tool => (tool.get "input_schema").isNone

theorem messages.decode_request_object {obj : Map} {model : String} {limit : Nat} {system : List ContentPart} {conversation : List Message}
    {tools : List ToolDef} (hmodel : Map.get obj "model" = some (.string model)) (hne : model ≠ "")
    (hlimit : messages.decode_max_tokens (Map.get obj "max_tokens") = .ok limit)
    (hsystem : ((Map.get obj "system").map (messages.decode_system serde)).getD (.ok []) = .ok system)
    (hmessages : messages.decode_conversation serde (Map.get obj "messages") = .ok conversation)
    (htools : messages.decode_tools (messages.functions obj) = .ok tools) :
    ∃ read, messages.decode_request serde (.object obj) = .ok read ∧ read.system = system ∧ read.messages = conversation ∧
      read.tools = tools ∧
      (read.tool_choice, read.parallel_tool_calls) =
        ((Map.get obj "tool_choice").map messages.decode_tool_choice).getD (.unspecified, none) ∧
      read.sampling.temperature = (Map.get obj "temperature").bind as_f64 ∧
      read.sampling.top_p = (Map.get obj "top_p").bind as_f64 ∧
      read.max_output_tokens = some limit ∧
      read.reasoning = (Map.get obj "thinking").bind messages.decode_thinking ∧
      read.extensions = messages.request_extensions obj (messages.functions obj) (messages.server_tools obj) := by
  have hnamed : messages.required (((Value.object obj).get_str "model").filter (· ≠ "")) "field `model` is required" = .ok model := by
    change messages.required (((Map.get obj "model").bind Value.as_str).filter _) _ = _
    rw [hmodel]
    simp [Option.filter, Value.as_str, hne, messages.required]
  unfold messages.functions at htools
  unfold messages.decode_request
  dsimp only
  rw [hnamed, hlimit, hsystem, hmessages, htools]
  exact ⟨_, rfl, rfl, rfl, rfl, rfl, rfl, rfl, rfl, rfl, rfl⟩

/-- A function is read back, without a wish for a strict schema. -/
theorem messages.offer_passes {offer : Offer} {tool : ToolDef} (h : Offers offer tool) :
    ∃ raw read, [messages.encode_tool tool] = [raw] ∧ messages.decode_tool raw = .ok read ∧ Offers offer read := by
  obtain ⟨name, description, parameters, strict⟩ := tool
  obtain ⟨hname, hdescription, hparameters⟩ := h
  dsimp only at hname hdescription hparameters
  subst hname hdescription hparameters
  refine ⟨_, { name := offer.name, description := offer.description, parameters := .object offer.parameters, strict := none }, rfl,
    ?_, rfl, rfl, rfl⟩
  cases offer.description <;> rfl

theorem messages.decode_tools_read {raws : List Value} {tools : List ToolDef}
    (h : List.Forall₂ (fun raw tool => messages.decode_tool raw = .ok tool) raws tools) : messages.decode_tools raws = .ok tools := by
  induction h with
  | nil => rfl
  | cons hfirst _ ih =>
    rw [messages.decode_tools, hfirst, Except.bind, ih]
    rfl

theorem messages.as_u32_nat {n : Nat} (hn : n ≤ U32_MAX) : messages.as_u32 (some (.nat n)) = some n := by
  unfold U32_MAX at hn
  have hlt : n < 18446744073709551616 := by omega
  rw [messages.as_u32, Option.bind_some, Value.as_u64_nat_of_lt hlt, Option.map_some]
  refine congrArg some (Nat.mod_eq_of_lt ?_)
  unfold U32_MAX
  dsimp only
  omega

theorem messages.decode_max_tokens_nat {n : Nat} (hn : n ≤ U32_MAX) : messages.decode_max_tokens (some (.nat n)) = .ok n := by
  have hread := messages.as_u32_nat hn
  rw [Value.nat] at hread ⊢
  rw [messages.decode_max_tokens, hread]

/-- A choice is read back where calls may be made in parallel. -/
theorem messages.tool_choice_read {choice : ToolChoice} {parallel : Option Bool} (hparallel : parallel ≠ some false) :
    ((messages.encode_tool_choice choice parallel).map messages.decode_tool_choice).getD (.unspecified, none) = (choice, none) := by
  unfold messages.encode_tool_choice
  rw [if_neg hparallel, if_neg hparallel]
  cases choice <;> rfl

/-- A task is the same after a request in this protocol. -/
theorem messages.task_passes (hsound : task.Sound) (h : Asks serde task ir) :
    ∃ read, messages.decode_request serde (messages.encode_request ir) = .ok read ∧ Addressed serde task read := by
  have hwritten : messages.encode_request ir = .object (messages.request_fields ir) := by
    rw [messages.encode_request, h.extensions]
    rfl
  obtain ⟨hmodel, hlimit, hsystem, hmessages, htools, hchoice, htemperature, htop_p, hthinking, hmetadata⟩ :=
    @messages.request_members ir _ rfl
  have hthoughtless : messages.encode_reasoning ir = none := by
    rw [messages.encode_reasoning, h.reasoning]
    rfl
  have hplain : messages.thinking_enabled ir = false := by
    rw [messages.thinking_enabled, hthoughtless]
    rfl
  have hne : ir.model ≠ "" := by
    rw [h.model]
    exact hsound.model_ne
  obtain ⟨conversation, hconversation, htells⟩ := messages.conversation_passes hsound.moves h.messages
  have hlimited : messages.decode_max_tokens (Map.get (messages.request_fields ir) "max_tokens") = .ok task.limit := by
    rw [hlimit, messages.max_tokens, h.limit, Option.getD_some, messages.decode_max_tokens_nat hsound.limited]
  have hinstructed : ((Map.get (messages.request_fields ir) "system").map (messages.decode_system serde)).getD (.ok []) =
      .ok (task.instructions.map ContentPart.text).toList := by
    rw [hsystem, messages.encode_instructions, UnifiedRequest.extension, h.extensions, h.system]
    cases hinstructions : task.instructions with
    | none => rfl
    | some text =>
      have hne : text ≠ "" := fun heq => hsound.instructed (by rw [hinstructions, heq])
      change messages.decode_system serde (.string (ContentPart.lines [.text text])) = _
      rw [lines_text, messages.decode_system, if_neg hne]
      rfl
  have hconversed : messages.decode_conversation serde (Map.get (messages.request_fields ir) "messages") = .ok conversation := by
    rw [hmessages]
    exact hconversation
  obtain ⟨tools, htools_raw, htools_read⟩ := forall_passed h.tools fun offer _ tool => messages.offer_passes
  rw [← List.map_eq_flatMap] at htools_raw
  have hlisted : ((Map.get (messages.request_fields ir) "tools").bind Value.as_array).getD [] = ir.tools.map messages.encode_tool := by
    rw [htools, messages.encode_tools, UnifiedRequest.extension, UnifiedRequest.extension, h.extensions]
    cases ir.tools <;> rfl
  have hall : ∀ raw ∈ ir.tools.map messages.encode_tool, (raw.get "input_schema").isSome = true ∧ messages.has_cache_control raw = false := by
    intro raw hraw
    obtain ⟨tool, -, rfl⟩ := List.mem_map.mp hraw
    refine ⟨rfl, ?_⟩
    rw [messages.encode_tool, messages.has_cache_control]
    cases tool.description <;> rfl
  have hfunctions : messages.functions (messages.request_fields ir) = ir.tools.map messages.encode_tool := by
    rw [messages.functions, hlisted]
    exact List.filter_eq_self.mpr fun raw hraw => (hall raw hraw).1
  have hserver : messages.server_tools (messages.request_fields ir) = [] := by
    rw [messages.server_tools, hlisted]
    refine List.filter_eq_nil_iff.mpr fun raw hraw hnone => ?_
    have hsome := (hall raw hraw).1
    rw [Option.isNone_iff_eq_none.mp hnone] at hsome
    cases hsome
  obtain ⟨read, hdecoded, hsystem_read, hmessages_read, htools_given, hchoice_read, htemperature_read, htop_p_read, hlimit_read,
    hreasoning_read, hextensions_read⟩ := messages.decode_request_object hmodel hne hlimited hinstructed hconversed
      (by rw [hfunctions]; exact messages.decode_tools_read htools_raw)
  rw [hwritten]
  refine ⟨read, hdecoded, fun model stream => ?_⟩
  rw [hchoice, messages.tool_choice_read h.parallel] at hchoice_read
  obtain ⟨hchosen, hunbound⟩ := Prod.mk.inj hchoice_read
  constructor
  case model => rfl
  case system => exact hsystem_read
  case messages => exact hmessages_read ▸ htells
  case tools => exact htools_given ▸ htools_read
  case tool_choice => exact hchosen.trans h.tool_choice
  case parallel =>
    intro hfalse
    rw [hunbound] at hfalse
    cases hfalse
  case temperature =>
    rw [htemperature, messages.encode_temperature, hplain, filter_all fun _ => by simp, as_f64_to_json, h.temperature] at htemperature_read
    exact htemperature_read
  case top_p =>
    rw [htop_p, messages.encode_top_p, hplain, filter_all fun _ => by simp, as_f64_to_json, h.top_p] at htop_p_read
    exact htop_p_read
  case limit => exact hlimit_read
  case reasoning =>
    rw [hthinking, hthoughtless] at hreasoning_read
    exact hreasoning_read
  case extensions =>
    have hcached : (Map.get (messages.request_fields ir) "system").filter messages.has_cache_control = none := by
      rw [hsystem, messages.encode_instructions, UnifiedRequest.extension, h.extensions, h.system]
      cases task.instructions <;> rfl
    have hother : messages.other_metadata (messages.request_fields ir) = [] := by
      rw [messages.other_metadata, hmetadata, messages.encode_metadata, UnifiedRequest.extension, h.extensions]
      cases ir.user <;> rfl
    have huncached : (ir.tools.map messages.encode_tool).any messages.has_cache_control = false :=
      List.any_eq_false.mpr fun raw hraw => by simp [(hall raw hraw).2]
    rw [hfunctions, hserver, messages.request_extensions, hcached, hother, huncached] at hextensions_read
    refine hextensions_read.trans (foldl_known messages.request_keys (fun key hkey ext value => if_pos ?_) _)
    exact List.all_eq_true.mp (by decide : messages.REQUEST_KEYS.all messages.KNOWN_REQUEST_FIELDS.contains = true) key hkey

end Messages

section Responses

def responses.REQUEST_KEYS : List String :=
  ["model"] ++ ["instructions"] ++ ["input"] ++ ["stream"] ++ ["max_output_tokens"] ++ ["temperature"] ++ ["top_p"] ++
    ["parallel_tool_calls"] ++ ["user"] ++ ["tools"] ++ ["tool_choice"] ++ ["text"] ++ ["reasoning"]

theorem responses.request_keys : ((responses.request_fields serde ir).map Prod.fst).Sublist responses.REQUEST_KEYS := by
  simp only [responses.request_fields, List.map_append]
  repeat' apply List.Sublist.append
  all_goals first | exact keys_member _ _ | exact .refl _

theorem responses.request_members : ∀ obj, obj = responses.request_fields serde ir →
    Map.get obj "model" = some (.string ir.model) ∧
    Map.get obj "instructions" = (if ir.system.isEmpty then none else some (.string ir.system_text)) ∧
    Map.get obj "input" = some (.array (responses.encode_input_items serde ir.messages)) ∧
    Map.get obj "max_output_tokens" = ir.max_output_tokens.map Value.nat ∧
    Map.get obj "temperature" = ir.sampling.temperature.map F64.to_json ∧
    Map.get obj "top_p" = ir.sampling.top_p.map F64.to_json ∧
    Map.get obj "parallel_tool_calls" = ir.parallel_tool_calls.map .bool ∧
    Map.get obj "tools" = (if (responses.encode_tools ir).isEmpty then none else some (.array (responses.encode_tools ir))) ∧
    Map.get obj "tool_choice" = responses.encode_tool_choice ir.tool_choice ∧
    Map.get obj "reasoning" = ir.reasoning.bind (responses.encode_reasoning · ir.max_output_tokens) ∧
    ∀ key ∈ ["previous_response_id", "store", "include", "metadata"], Map.get obj key = none := by
  rintro _ rfl
  refine ⟨?_, ?_, ?_, ?_, ?_, ?_, ?_, ?_, ?_, ?_, ?_⟩
  all_goals simp [responses.request_fields, Map.get, List.lookup_append, lookup_member, lookup_cons_ite]

theorem responses.decode_request_object {obj : Map} {model : String} {items : List Value} {conversation : List Message}
    (hmodel : Map.get obj "model" = some (.string model)) (hne : model ≠ "") (hinput : Map.get obj "input" = some (.array items))
    (hread : responses.decode_input_items serde items = .ok conversation)
    (hspoken : ∀ message ∈ conversation, message.role ≠ .system) :
    ∃ read, responses.decode_request serde (.object obj) = .ok read ∧
      read.system = (((Map.get obj "instructions").bind Value.as_str).map ContentPart.text).toList ∧
      read.messages = conversation ∧
      read.tools = (((Map.get obj "tools").bind Value.as_array).getD []).filterMap responses.decode_tool ∧
      read.tool_choice = ((Map.get obj "tool_choice").map responses.decode_tool_choice).getD .unspecified ∧
      read.parallel_tool_calls = (Map.get obj "parallel_tool_calls").bind Value.as_bool ∧
      read.sampling.temperature = (Map.get obj "temperature").bind as_f64 ∧
      read.sampling.top_p = (Map.get obj "top_p").bind as_f64 ∧
      read.max_output_tokens = (Map.get obj "max_output_tokens").bind responses.as_u32 ∧
      read.reasoning = (Map.get obj "reasoning").bind responses.decode_reasoning ∧
      read.extensions = responses.request_extensions obj
        ((((Map.get obj "tools").bind Value.as_array).getD []).filter responses.is_builtin) := by
  have hnamed : ((Value.object obj).get_str "model").filter (· ≠ "") = some model := by
    change ((Map.get obj "model").bind Value.as_str).filter _ = _
    rw [hmodel]
    simp [Option.filter, Value.as_str, hne]
  have hsystem : conversation.filter (·.role = .system) = [] :=
    List.filter_eq_nil_iff.mpr fun message hmessage => by simpa using hspoken message hmessage
  have hall : conversation.filter (·.role ≠ .system) = conversation :=
    List.filter_eq_self.mpr fun message hmessage => by simpa using hspoken message hmessage
  have hconversed : responses.decode_input serde (Map.get obj "input") = .ok ([], conversation) := by
    rw [hinput, responses.decode_input, hread, Except.map, hsystem, hall]
    rfl
  unfold responses.decode_request
  dsimp only
  rw [hnamed]
  dsimp only
  rw [hconversed]
  exact ⟨_, rfl, List.append_nil _, rfl, rfl, rfl, rfl, rfl, rfl, rfl, rfl, rfl⟩

/-- A function with a name is read back. -/
theorem responses.offer_passes {offer : Offer} (hoffer : offer.Sound) {tool : ToolDef} (h : Offers offer tool) :
    ∃ raw read, [responses.encode_tool tool] = [raw] ∧ responses.decode_tool raw = some read ∧ Offers offer read := by
  obtain ⟨name, description, parameters, strict⟩ := tool
  obtain ⟨hname, hdescription, hparameters⟩ := h
  dsimp only at hname hdescription hparameters
  subst hname hdescription hparameters
  have hnamed : (some offer.name).filter (· ≠ "") = some offer.name := by simp [Option.filter, hoffer.name_ne]
  refine ⟨_, { name := offer.name, description := offer.description, parameters := .object offer.parameters, strict := strict }, rfl,
    ?_, rfl, rfl, rfl⟩
  cases offer.description <;> cases strict <;>
    (change Option.map _ (Option.filter _ (some offer.name)) = _
     rw [hnamed]
     rfl)

theorem responses.as_u32_nat {n : Nat} (hn : n ≤ U32_MAX) : responses.as_u32 (.nat n) = some n := by
  unfold U32_MAX at hn
  have hlt : n < 18446744073709551616 := by omega
  rw [responses.as_u32, Value.as_u64_nat_of_lt hlt, Option.map_some, Option.filter, if_pos]
  apply decide_eq_true
  dsimp only
  omega

theorem responses.tool_choice_read (choice : ToolChoice) :
    ((responses.encode_tool_choice choice).map responses.decode_tool_choice).getD .unspecified = choice := by
  cases choice <;> rfl

/-- A task is the same after a request in this protocol. -/
theorem responses.task_passes (hserde : serde.Lawful) (hsound : task.Sound) (h : Asks serde task ir) :
    ∃ read, responses.decode_request serde (responses.encode_request serde ir) = .ok read ∧ Addressed serde task read := by
  have hwritten : responses.encode_request serde ir = .object (responses.request_fields serde ir) := by
    rw [responses.encode_request, h.extensions]
    rfl
  obtain ⟨hmodel, hinstructions, hinput, hlimit, htemperature, htop_p, hparallel, htools, hchoice, hreasoning, hfresh⟩ :=
    @responses.request_members serde ir _ rfl
  have htool_values : responses.encode_tools ir = ir.tools.map responses.encode_tool := by
    rw [responses.encode_tools, UnifiedRequest.extension, h.extensions]
    exact List.append_nil _
  have hne : ir.model ≠ "" := by
    rw [h.model]
    exact hsound.model_ne
  obtain ⟨conversation, htells, hconversation⟩ :=
    responses.conversation_read hserde h.messages hsound.moves.each hsound.moves.alternate
  obtain ⟨read, hdecoded, hsystem_read, hmessages_read, htools_read, hchoice_read, hparallel_read, htemperature_read, htop_p_read,
    hlimit_read, hreasoning_read, hextensions_read⟩ :=
      responses.decode_request_object hmodel hne hinput (hconversation [] (by simp)) htells.spoken
  rw [hwritten]
  refine ⟨read, hdecoded, fun model stream => ?_⟩
  rw [htools, getD_listed, htool_values] at htools_read hextensions_read
  constructor
  case model => rfl
  case system =>
    rw [hinstructions, h.system, UnifiedRequest.system_text, h.system] at hsystem_read
    refine hsystem_read.trans ?_
    cases task.instructions with
    | none => rfl
    | some text => exact congrArg (fun said => [ContentPart.text said]) (lines_text text)
  case messages => exact hmessages_read ▸ htells
  case tools =>
    obtain ⟨tools, htools_raw, htools_offered⟩ := forall_passed h.tools fun offer hoffer tool =>
      responses.offer_passes (hsound.offers offer hoffer)
    rw [← List.map_eq_flatMap] at htools_raw
    rw [filterMap_read htools_raw] at htools_read
    exact htools_read ▸ htools_offered
  case tool_choice =>
    rw [hchoice, responses.tool_choice_read, h.tool_choice] at hchoice_read
    exact hchoice_read
  case parallel =>
    rw [hparallel, bind_bool] at hparallel_read
    exact hparallel_read ▸ h.parallel
  case temperature =>
    rw [htemperature, as_f64_to_json, h.temperature] at htemperature_read
    exact htemperature_read
  case top_p =>
    rw [htop_p, as_f64_to_json, h.top_p] at htop_p_read
    exact htop_p_read
  case limit =>
    rw [hlimit, h.limit, Option.map_some, Option.bind_some, responses.as_u32_nat hsound.limited] at hlimit_read
    exact hlimit_read
  case reasoning =>
    rw [hreasoning, h.reasoning] at hreasoning_read
    exact hreasoning_read
  case extensions =>
    have hnone : (ir.tools.map responses.encode_tool).filter responses.is_builtin = [] := by
      refine List.filter_eq_nil_iff.mpr fun raw hraw => ?_
      obtain ⟨tool, -, rfl⟩ := List.mem_map.mp hraw
      exact Bool.false_ne_true
    rw [hnone, responses.request_extensions] at hextensions_read
    refine hextensions_read.trans ((foldl_known responses.request_keys (fun key hkey ext value => if_pos ?_) _).trans ?_)
    · exact List.all_eq_true.mp (by decide : responses.REQUEST_KEYS.all responses.KNOWN_REQUEST_FIELDS.contains = true) key hkey
    · refine foldl_still (fun key hkey ext => ?_) _
      rw [hfresh key hkey]
      rfl

end Responses

section Gemini

/-- The configuration of a request without extensions. -/
def gemini.generation_fields (ir : UnifiedRequest) : Map :=
  member "temperature" (ir.sampling.temperature.map F64.to_json) ++
    member "topP" (ir.sampling.top_p.map F64.to_json) ++
    member "topK" (ir.sampling.top_k.map Value.nat) ++
    member "seed" (ir.sampling.seed.map fun seed => .number (.int seed)) ++
    member "candidateCount" (ir.sampling.candidate_count.map Value.nat) ++
    member "stopSequences" (if ir.sampling.stop.isEmpty then none else some (.array (ir.sampling.stop.map .string))) ++
    member "maxOutputTokens" (ir.max_output_tokens.map Value.nat) ++
    gemini.encode_response_format ir ++
    member "thinkingConfig" (gemini.encode_thinking_config ir)

def gemini.GENERATION_KEYS : List String :=
  ["temperature"] ++ ["topP"] ++ ["topK"] ++ ["seed"] ++ ["candidateCount"] ++ ["stopSequences"] ++ ["maxOutputTokens"] ++
    ["responseMimeType", "responseSchema"] ++ ["thinkingConfig"]

/-- A type of answer that a request without extensions names is one that is known. -/
theorem gemini.format_known (hext : ir.extensions = []) :
    ((gemini.encode_response_format ir).map Prod.fst).Sublist ["responseMimeType", "responseSchema"] ∧
      ∀ mime, (gemini.encode_response_format ir).lookup "responseMimeType" = some (.string mime) →
        mime = "application/json" ∨ mime = "text/plain" := by
  rw [gemini.encode_response_format, UnifiedRequest.extension, hext]
  cases ir.response_format with
  | none => exact ⟨List.nil_sublist _, fun mime hmime => by cases hmime⟩
  | some format =>
    cases format with
    | text => exact ⟨.cons_cons _ (List.nil_sublist _), fun mime hmime => by cases hmime; exact .inr rfl⟩
    | jsonObject => exact ⟨.cons_cons _ (List.nil_sublist _), fun mime hmime => by cases hmime; exact .inl rfl⟩
    | jsonSchema name schema strict => exact ⟨.refl _, fun mime hmime => by cases hmime; exact .inl rfl⟩

theorem gemini.generation_keys (hext : ir.extensions = []) :
    ((gemini.generation_fields ir).map Prod.fst).Sublist gemini.GENERATION_KEYS := by
  simp only [gemini.generation_fields, List.map_append]
  repeat' apply List.Sublist.append
  all_goals first | exact keys_member _ _ | exact (gemini.format_known hext).1

theorem gemini.encode_generation_eq_fields (hext : ir.extensions = []) : gemini.encode_generation ir = gemini.generation_fields ir := by
  have hkeys : ((gemini.generation_fields ir).map Prod.fst).Nodup := (gemini.generation_keys hext).nodup (by decide)
  rw [gemini.encode_generation, UnifiedRequest.extension, hext]
  exact foldl_insert_of_nodup hkeys

theorem gemini.generation_members (hext : ir.extensions = []) : ∀ gen, gen = gemini.generation_fields ir →
    Map.get gen "temperature" = ir.sampling.temperature.map F64.to_json ∧
    Map.get gen "topP" = ir.sampling.top_p.map F64.to_json ∧
    Map.get gen "maxOutputTokens" = ir.max_output_tokens.map Value.nat ∧
    Map.get gen "thinkingConfig" = gemini.encode_thinking_config ir ∧
    Map.get gen "responseMimeType" = (gemini.encode_response_format ir).lookup "responseMimeType" ∧
    ∀ key ∈ ["top_p", "max_output_tokens", "thinking_config", "response_mime_type"], Map.get gen key = none := by
  have hformat : ∀ key, key ∉ ["responseMimeType", "responseSchema"] → (gemini.encode_response_format ir).lookup key = none := by
    intro key hkey
    refine List.lookup_eq_none_iff.mpr fun entry hentry => ?_
    have hmem := (gemini.format_known hext).1.subset (List.mem_map_of_mem hentry)
    have hne : key ≠ entry.1 := fun heq => hkey (heq ▸ hmem)
    simpa using hne
  rintro _ rfl
  refine ⟨?_, ?_, ?_, ?_, ?_, ?_⟩
  all_goals simp [gemini.generation_fields, Map.get, List.lookup_append, lookup_member, hformat, -List.lookup_eq_none_iff]

theorem gemini.request_members (hext : ir.extensions = []) : ∃ obj, gemini.encode_request serde ir = .object obj ∧
    Map.get obj "contents" = some (.array (gemini.encode_contents serde ir.messages)) ∧
    gemini.field obj "systemInstruction" "system_instruction" =
      (if (gemini.encode_system serde ir).isEmpty then none else some (.object [("parts", .array (gemini.encode_system serde ir))])) ∧
    Map.get obj "tools" = (if (gemini.encode_tools ir).isEmpty then none else some (.array (gemini.encode_tools ir))) ∧
    gemini.field obj "toolConfig" "tool_config" =
      (gemini.encode_tool_choice ir).map (fun fc => .object [("functionCallingConfig", fc)]) ∧
    gemini.field obj "generationConfig" "generation_config" =
      (if (gemini.generation_fields ir).isEmpty then none else some (.object (gemini.generation_fields ir))) ∧
    gemini.field obj "cachedContent" "cached_content" = none ∧
    gemini.field obj "safetySettings" "safety_settings" = none ∧
    (obj.map Prod.fst).Sublist
      (["contents"] ++ ["systemInstruction"] ++ ["tools"] ++ ["toolConfig"] ++ ["generationConfig"] ++ ["safetySettings"] ++
        ["cachedContent"]) := by
  have hsafety : ir.extension (gemini.EXT ++ "safetySettings") = none := by rw [UnifiedRequest.extension, hext]; rfl
  have hcached : ir.extension (gemini.EXT ++ "cachedContent") = none := by rw [UnifiedRequest.extension, hext]; rfl
  refine ⟨_, rfl, ?_, ?_, ?_, ?_, ?_, ?_, ?_, ?_⟩
  case refine_8 =>
    simp only [List.map_append]
    repeat' apply List.Sublist.append
    all_goals first | exact keys_member _ _ | exact .refl _
  all_goals simp [gemini.field, Map.get, List.lookup_append, lookup_member, lookup_cons_ite, hsafety, hcached,
    gemini.encode_generation_eq_fields hext]

theorem gemini.as_u32_nat_limited {n : Nat} (hn : n ≤ U32_MAX) : gemini.as_u32 (some (.nat n)) = some n := by
  unfold U32_MAX at hn
  have hlt : n < 18446744073709551616 := by omega
  rw [gemini.as_u32, Option.bind_some, Value.as_u64_nat_of_lt hlt, Option.map_some]
  refine congrArg some (Nat.mod_eq_of_lt ?_)
  unfold U32_MAX
  dsimp only
  omega

/-- A function is read back, without a wish for a strict schema. -/
theorem gemini.offer_passes {offer : Offer} (hoffer : offer.Sound) {tool : ToolDef} (h : Offers offer tool) :
    ∃ raw read, [gemini.encode_tool tool] = [raw] ∧ gemini.decode_declaration raw = .ok [read] ∧ Offers offer read := by
  obtain ⟨name, description, parameters, strict⟩ := tool
  obtain ⟨hname, hdescription, hparameters⟩ := h
  dsimp only at hname hdescription hparameters
  subst hname hdescription hparameters
  have hdescribed : gemini.non_empty_str (offer.description.map .string) = offer.description := by
    cases hoffer_description : offer.description with
    | none => rfl
    | some text =>
      have hne : text ≠ "" := fun heq => hoffer.described (by rw [hoffer_description, heq])
      simp [gemini.non_empty_str, Value.as_str, Option.filter, hne]
  refine ⟨_, ⟨offer.name, gemini.non_empty_str (offer.description.map .string), .object offer.parameters, none⟩, rfl, ?_, rfl,
    hdescribed, rfl⟩
  cases offer.description <;> rfl

theorem gemini.decode_declarations_read {raws : List Value} {tools : List ToolDef}
    (h : List.Forall₂ (fun raw tool => gemini.decode_declaration raw = .ok [tool]) raws tools) :
    gemini.decode_declarations raws = .ok tools := by
  induction h with
  | nil => rfl
  | cons hfirst _ ih =>
    rw [gemini.decode_declarations, hfirst, Except.bind, ih]
    rfl

theorem gemini.decode_request_object {obj : Map} {contents : List Value} {conversation : List Message} {tools : List ToolDef}
    (hcontents : Map.get obj "contents" = some (.array contents)) (hread : gemini.decode_contents serde contents = .ok conversation)
    (htools : gemini.decode_declarations ((((Map.get obj "tools").bind Value.as_array).getD []).flatMap gemini.declarations) = .ok tools) :
    ∃ read, gemini.decode_request serde (.object obj) = .ok read ∧
      read.system = gemini.decode_system serde (gemini.field obj "systemInstruction" "system_instruction") ∧
      read.messages = conversation ∧ read.tools = tools ∧
      read.tool_choice = ((gemini.calling_config obj).map gemini.decode_tool_choice).getD .unspecified ∧
      read.parallel_tool_calls = none ∧
      read.sampling = ((gemini.generation_config obj).map gemini.decode_sampling).getD {} ∧
      read.max_output_tokens = ((gemini.generation_config obj).bind fun gen_cfg =>
        gemini.as_u32 (gemini.field gen_cfg "maxOutputTokens" "max_output_tokens")) ∧
      read.reasoning = ((gemini.generation_config obj).bind gemini.thinking_config).bind gemini.decode_thinking ∧
      read.extensions = gemini.request_extensions obj (((Map.get obj "tools").bind Value.as_array).getD []) := by
  have hconversed : gemini.decode_conversation serde (Map.get obj "contents") = .ok conversation := by
    rw [hcontents, gemini.decode_conversation, hread]
  unfold gemini.decode_request
  dsimp only
  rw [hconversed, htools]
  exact ⟨_, rfl, rfl, rfl, rfl, rfl, rfl, rfl, rfl, rfl, rfl⟩

/-- A task is the same after a request in this protocol, whose path names the model. -/
theorem gemini.task_passes (hserde : serde.Lawful) (hsound : task.Sound) (h : Asks serde task ir) :
    ∃ read, gemini.decode_request serde (gemini.encode_request serde ir) = .ok read ∧ Addressed serde task read := by
  obtain ⟨obj, hwritten, hcontents, hsystem, htools, hconfig, hgeneration, hcached, hsafety, hkeys⟩ :=
    @gemini.request_members serde ir h.extensions
  obtain ⟨htemperature, htop_p, hlimit, hthinking, hmime, hsnake⟩ := @gemini.generation_members ir h.extensions _ rfl
  have hextension : ∀ key, ir.extension key = none := fun key => by
    rw [UnifiedRequest.extension, h.extensions]
    rfl
  obtain ⟨conversation, hconversation, htells⟩ := gemini.conversation_passes hserde hsound.moves h.messages
  have htool_values : gemini.encode_tools ir =
      if ir.tools.isEmpty then [] else [.object [("functionDeclarations", .array (ir.tools.map gemini.encode_tool))]] := by
    rw [gemini.encode_tools, hextension]
    exact List.append_nil _
  have hlisted : ((Map.get obj "tools").bind Value.as_array).getD [] = gemini.encode_tools ir := by
    rw [htools, getD_listed]
  have hdeclarations : (gemini.encode_tools ir).flatMap gemini.declarations = ir.tools.map gemini.encode_tool := by
    rw [htool_values]
    cases ir.tools with
    | nil => rfl
    | cons tool tools => exact List.append_nil _
  obtain ⟨tools, htools_raw, htools_offered⟩ := forall_passed h.tools fun offer hoffer tool =>
    gemini.offer_passes (hsound.offers offer hoffer)
  rw [← List.map_eq_flatMap] at htools_raw
  obtain ⟨read, hdecoded, hsystem_read, hmessages_read, htools_read, hchoice_read, hparallel_read, hsampling_read, hlimit_read,
    hreasoning_read, hextensions_read⟩ := gemini.decode_request_object hcontents hconversation
      (by rw [hlisted, hdeclarations]; exact gemini.decode_declarations_read htools_raw)
  have hconfigured : gemini.generation_config obj = some (gemini.generation_fields ir) := by
    have hsome : (gemini.generation_fields ir).isEmpty = false := by
      rw [h.limit] at hlimit
      cases hfields : gemini.generation_fields ir with
      | nil =>
        rw [hfields] at hlimit
        cases hlimit
      | cons => rfl
    rw [gemini.generation_config, hgeneration, hsome]
    rfl
  have hcalling : gemini.calling_config obj = (gemini.encode_tool_choice ir).bind Value.as_object := by
    rw [gemini.calling_config, hconfig]
    cases gemini.encode_tool_choice ir <;> rfl
  have hthoughtless : gemini.thinking_config (gemini.generation_fields ir) = none := by
    rw [gemini.thinking_config, gemini.field, hthinking, hsnake _ (by simp), gemini.encode_thinking_config, h.reasoning]
    rfl
  rw [hwritten]
  refine ⟨read, hdecoded, fun model stream => ?_⟩
  rw [hlisted] at hextensions_read
  rw [hconfigured] at hsampling_read hlimit_read hreasoning_read
  constructor
  case model => rfl
  case system =>
    have hnobody : ir.messages.filter (·.role = .system) = [] :=
      List.filter_eq_nil_iff.mpr fun message hmessage => by simpa using h.messages.spoken message hmessage
    refine hsystem_read.trans ?_
    rw [hsystem, gemini.encode_system, hnobody, h.system]
    cases task.instructions <;> rfl
  case messages => exact hmessages_read ▸ htells
  case tools => exact htools_read ▸ htools_offered
  case tool_choice =>
    have hchoice : (((gemini.encode_tool_choice ir).bind Value.as_object).map gemini.decode_tool_choice).getD .unspecified = ir.tool_choice := by
      rw [gemini.encode_tool_choice, hextension]
      cases ir.tool_choice <;> rfl
    rw [hcalling, hchoice, h.tool_choice] at hchoice_read
    exact hchoice_read
  case parallel =>
    intro hfalse
    rw [hparallel_read] at hfalse
    cases hfalse
  case temperature =>
    refine (congrArg Sampling.temperature hsampling_read).trans ?_
    change (Map.get (gemini.generation_fields ir) "temperature").bind as_f64 = _
    rw [htemperature, as_f64_to_json, h.temperature]
  case top_p =>
    refine (congrArg Sampling.top_p hsampling_read).trans ?_
    change (gemini.field (gemini.generation_fields ir) "topP" "top_p").bind as_f64 = _
    rw [gemini.field, htop_p, hsnake _ (by simp), Option.or_none, as_f64_to_json, h.top_p]
  case limit =>
    rw [Option.bind_some, gemini.field, hlimit, hsnake _ (by simp), Option.or_none, h.limit, Option.map_some,
      gemini.as_u32_nat_limited hsound.limited] at hlimit_read
    exact hlimit_read
  case reasoning =>
    rw [Option.bind_some, hthoughtless] at hreasoning_read
    exact hreasoning_read
  case extensions =>
    have hbuiltins : gemini.builtin_tools (gemini.encode_tools ir) = [] := by
      rw [htool_values]
      cases ir.tools <;> rfl
    have hkept : gemini.kept_names obj = none := by
      rw [gemini.kept_names, hcalling, gemini.encode_tool_choice, hextension]
      cases ir.tool_choice <;> rfl
    have hformat : gemini.other_mime_type (gemini.generation_fields ir) = none := by
      rw [gemini.other_mime_type, gemini.mime_type, gemini.field, hmime, hsnake _ (by simp), Option.or_none]
      refine Option.filter_eq_none_iff.mpr fun mime hmime_eq => ?_
      obtain ⟨value, hvalue, hstr⟩ := Option.bind_eq_some_iff.mp hmime_eq
      cases value with
      | string text =>
        obtain rfl := Option.some.inj hstr
        obtain rfl | rfl := (gemini.format_known h.extensions).2 _ hvalue <;> simp
      | _ => cases hstr
    have hother : gemini.other_generation (gemini.generation_fields ir) = [] := by
      refine List.filter_eq_nil_iff.mpr fun entry hentry => ?_
      have hknown := List.all_eq_true.mp
        (by decide : gemini.GENERATION_KEYS.all gemini.KNOWN_GENERATION_FIELDS.contains = true) entry.1
        ((gemini.generation_keys h.extensions).subset (List.mem_map_of_mem hentry))
      rw [hknown]
      exact Bool.false_ne_true
    rw [gemini.request_extensions] at hextensions_read
    dsimp only at hextensions_read
    rw [hconfigured, hbuiltins, hkept, hcached, hsafety, Option.bind_some, Option.bind_some, hformat, hthoughtless, Option.map_some,
      Option.getD_some, hother] at hextensions_read
    refine hextensions_read.trans (foldl_known hkeys (fun key hkey ext value => if_pos ?_) _)
    exact List.all_eq_true.mp (by decide : (["contents"] ++ ["systemInstruction"] ++ ["tools"] ++ ["toolConfig"] ++
      ["generationConfig"] ++ ["safetySettings"] ++ ["cachedContent"]).all gemini.KNOWN_REQUEST_FIELDS.contains = true) key hkey

end Gemini

/-- A task is the same after a request in any protocol. -/
theorem task_passes (hserde : serde.Lawful) (hsound : task.Sound) (h : Asks serde task ir) (protocol : Protocol) :
    ∃ read, decode_request serde protocol (encode_request serde protocol ir) = .ok read ∧ Addressed serde task read := by
  cases protocol with
  | chat => exact chat.task_passes hserde hsound h
  | responses => exact responses.task_passes hserde hsound h
  | messages => exact messages.task_passes hsound h
  | gemini => exact gemini.task_passes hserde hsound h

end refract.codec
