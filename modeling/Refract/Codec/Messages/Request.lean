import Refract.Codec.Messages.Response
import Refract.Ir.Request
import Refract.Json.Object
import Refract.Machine.Replies

open refract.core refract.json refract.ir refract.machine

namespace refract.codec.messages

/-- The limit of a request that names none. -/
def DEFAULT_MAX_TOKENS : Nat := 4096

/-- The tokens to think with where the model was to decide. -/
def DYNAMIC_THINKING_BUDGET : Nat := 8192

/-- The fields of a request that the representation names. -/
def KNOWN_REQUEST_FIELDS : List String :=
  ["model", "max_tokens", "stream", "system", "messages", "tools", "tool_choice", "thinking", "temperature", "top_p",
    "top_k", "stop_sequences", "metadata"]

/-- The low 32 bits of a count. -/
def as_u32 (v : Option Value) : Option Nat := (v.bind Value.as_u64).map fun n => n.val % (U32_MAX + 1)

mutual

/-- A block, or one of a list, marks a place to cache. -/
def has_cache_control (value : Value) : Bool :=
  match value with
  | .object obj => Map.contains_key obj "cache_control"
  | .array items => any_cache_control items
  | _ => false

def any_cache_control (items : List Value) : Bool :=
  match items with
  | [] => false
  | item :: items => has_cache_control item || any_cache_control items

end

def decode_system (serde : Serde) (raw : Value) : Except GatewayError (List ContentPart) :=
  match raw with
  | .string s => .ok (if s = "" then [] else [.text s])
  | .array items => decode_blocks serde items
  | .null => .ok []
  | _ => .error (.invalid_request "field `system` must be a string or an array of content blocks")

/-- Instructions that are all text are one text. -/
def encode_system (parts : List ContentPart) : Value :=
  if parts.all ContentPart.is_text then .string (ContentPart.lines parts) else .array (encode_blocks parts)

/-- The role of a message. One of the system is let pass. -/
def decode_role (here : String) (role : Option String) : Except GatewayError Role :=
  match role with
  | some "user" => .ok .user
  | some "assistant" => .ok .assistant
  | some "system" => .ok .system
  | some other => .error (.invalid_request (here ++ ".role must be `user` or `assistant`, got `" ++ other ++ "`"))
  | none => .error (.invalid_request (here ++ ".role is required"))

/-- A content is a text, a list of blocks, or missing. -/
def decode_content (serde : Serde) (here : String) (content : Option Value) : Except GatewayError (List ContentPart) :=
  match content with
  | some (.string s) => .ok [.text s]
  | some (.array items) => decode_blocks serde items
  | some .null | none => .ok []
  | some _ => .error (.invalid_request (here ++ ".content must be a string or an array of content blocks"))

/-- Reads one message. Results of calls alone are a message of the tools. -/
def decode_message (serde : Serde) (raw : Value) (position : Nat) : Except GatewayError Message :=
  let here := "messages[" ++ toString position ++ "]"
  match raw with
  | .object obj => do
    let role ← decode_role here (raw.get_str "role")
    let content ← decode_content serde here (Map.get obj "content")
    pure
      { role := if role = .user ∧ ¬content.isEmpty ∧ content.all ContentPart.is_tool_result then .tool else role
        content := content }
  | _ => .error (.invalid_request (here ++ " must be an object"))

/-- Reads messages up to the first that cannot be read. -/
def decode_messages (serde : Serde) : Nat → List Value → Except GatewayError (List Message)
  | _, [] => .ok []
  | position, raw :: rest =>
    (decode_message serde raw position).bind fun message => (decode_messages serde (position + 1) rest).map (message :: ·)

/-- The conversation of a request. -/
def decode_conversation (serde : Serde) (raw : Option Value) : Except GatewayError (List Message) :=
  match raw.bind Value.as_array with
  | some messages => decode_messages serde 0 messages
  | none => .error (.invalid_request "field `messages` must be an array")

/-- The role a message is sent under. -/
def role_str : Role → String
  | .user | .system | .tool => "user"
  | .assistant => "assistant"

/-- The messages of a conversation, neighbours of one role in one. A message
    without blocks is left out. -/
def merge_messages (messages : List Message) : List (String × List Value) :=
  merge_turns (messages.map fun msg => (role_str msg.role, encode_blocks msg.content))

/-- The user speaks first. -/
def start_with_user (merged : List (String × List Value)) : List (String × List Value) :=
  match merged with
  | (role, blocks) :: rest =>
    if role = "assistant" then
      ("user", [.object [("type", .string "text"), ("text", .string ".")]]) :: (role, blocks) :: rest
    else (role, blocks) :: rest
  | [] => []

/-- One text block is written as its text. -/
def encode_content (blocks : List Value) : Value :=
  match blocks with
  | [only] => if only.get_str "type" = some "text" then (only.get "text").getD (.string "") else .array [only]
  | blocks => .array blocks

def encode_messages (messages : List Message) : List Value :=
  (start_with_user (merge_messages messages)).map fun (role, blocks) =>
    .object [("role", .string role), ("content", encode_content blocks)]

def decode_tool (raw : Value) : Except GatewayError ToolDef :=
  (required (raw.get_str "name") "each tool requires a `name`").map fun name =>
    { name := name
      description := raw.get_str "description"
      parameters := (raw.get "input_schema").getD (.object [("type", .string "object"), ("properties", .object [])])
      strict := none }

/-- Reads tools up to the first that cannot be read. -/
def decode_tools : List Value → Except GatewayError (List ToolDef)
  | [] => .ok []
  | raw :: rest => (decode_tool raw).bind fun tool => (decode_tools rest).map (tool :: ·)

def encode_tool (tool : ToolDef) : Value :=
  .object ([("name", .string tool.name), ("input_schema", tool.parameters)] ++
    member "description" (tool.description.map .string))

/-- Reads a choice, and whether calls may be made in parallel. -/
def decode_tool_choice (raw : Value) : ToolChoice × Option Bool :=
  let choice : ToolChoice := match raw.get_str "type" with
    | some "auto" => .auto
    | some "any" => .required
    | some "none" => .none
    | some "tool" => ((raw.get_str "name").map ToolChoice.tool).getD .required
    | _ => .unspecified
  (choice, ((raw.get "disable_parallel_tool_use").bind Value.as_bool).map (!·))

/-- A choice that is left open is only written to forbid calls in parallel. -/
def encode_tool_choice (choice : ToolChoice) (parallel : Option Bool) : Option Value :=
  let out : Option Map := match choice with
    | .unspecified => if parallel = some false then some [("type", .string "auto")] else none
    | .auto => some [("type", .string "auto")]
    | .required => some [("type", .string "any")]
    | .none => some [("type", .string "none")]
    | .tool name => some [("type", .string "tool"), ("name", .string name)]
  out.map fun out => .object (out ++ if parallel = some false then [("disable_parallel_tool_use", .bool true)] else [])

def decode_thinking (raw : Value) : Option ReasoningConfig :=
  match raw.get_str "type" with
  | some "enabled" => some { budget_tokens := as_u32 (raw.get "budget_tokens"), include_thoughts := some true }
  | some "disabled" => some { effort := some "none", include_thoughts := some false }
  | _ => none

def disabled : Value := .object [("type", .string "disabled")]

def enabled (budget : Nat) : Value := .object [("type", .string "enabled"), ("budget_tokens", .nat budget)]

/-- Writes the tokens to think with, moved into what the protocol accepts. -/
def encode_thinking (cfg : ReasoningConfig) (max_output : Option Nat) : Value :=
  if cfg.include_thoughts = some false then disabled
  else
    match (cfg.budget_or_from_effort max_output).or
        (if cfg.include_thoughts = some true then some DYNAMIC_THINKING_BUDGET else none) with
    | none => disabled
    | some budget =>
      match max_output.map (· - 1) with
      | none => enabled (max budget 1024)
      | some ceiling => if ceiling < 1024 then disabled else enabled (min (max budget 1024) ceiling)

/-- The members of the metadata that the representation does not name. -/
def other_metadata (obj : Map) : Map :=
  (((Map.get obj "metadata").bind Value.as_object).getD []).filter fun entry => entry.1 ≠ "user_id"

/-- The extensions of a request: what marks a place to cache, the tools of the
    upstream, and what the representation does not name. -/
def request_extensions (obj : Map) (functions server : List Value) : Extensions :=
  let keep (key : String) (value : Option Value) (ext : Extensions) : Extensions :=
    match value with
    | some value => ext.insert (EXT ++ key) value
    | none => ext
  let metadata := other_metadata obj
  collect_unknown obj KNOWN_REQUEST_FIELDS <|
    keep "metadata" (if metadata.isEmpty then none else some (.object metadata)) <|
    keep "tools_raw" (if functions.any has_cache_control then some (.array functions) else none) <|
    keep "server_tools" (if server.isEmpty then none else some (.array server)) <|
    keep "system_raw" ((Map.get obj "system").filter has_cache_control) []

/-- The limit, which a request has to name. -/
def decode_max_tokens (value : Option Value) : Except GatewayError Nat :=
  match value with
  | some (.number n) =>
    match as_u32 (some (.number n)) with
    | some max_tokens => .ok max_tokens
    | none => .error (.invalid_request "field `max_tokens` must be a positive integer")
  | some _ => .error (.invalid_request "field `max_tokens` must be a positive integer")
  | none => .error (.invalid_request "field `max_tokens` is required by the Anthropic Messages API")

/-- Reads a request. -/
def decode_request (serde : Serde) (raw : Value) : Except GatewayError UnifiedRequest :=
  match raw with
  | .object obj => do
    let number key := (Map.get obj key).bind as_f64
    let model ← required ((raw.get_str "model").filter (· ≠ "")) "field `model` is required"
    let max_tokens ← decode_max_tokens (Map.get obj "max_tokens")
    let stream := (((Map.get obj "stream").bind Value.as_bool).getD false)
    let system ← ((Map.get obj "system").map (decode_system serde)).getD (.ok [])
    let messages ← decode_conversation serde (Map.get obj "messages")
    let raw_tools := ((Map.get obj "tools").bind Value.as_array).getD []
    let functions := raw_tools.filter fun tool => (tool.get "input_schema").isSome
    let server := raw_tools.filter fun tool => (tool.get "input_schema").isNone
    let tools ← decode_tools functions
    let choice := ((Map.get obj "tool_choice").map decode_tool_choice).getD (.unspecified, none)
    pure
      { model := model
        system := system
        messages := messages
        tools := tools
        tool_choice := choice.1
        parallel_tool_calls := choice.2
        sampling :=
          { temperature := number "temperature"
            top_p := number "top_p"
            top_k := as_u32 (Map.get obj "top_k")
            stop := (((Map.get obj "stop_sequences").bind Value.as_array).getD []).filterMap Value.as_str }
        max_output_tokens := some max_tokens
        stream := stream
        stream_include_usage := stream
        reasoning := (Map.get obj "thinking").bind decode_thinking
        user := (Map.get obj "metadata").bind (·.get_str "user_id")
        extensions := request_extensions obj functions server }
  | _ => .error (.invalid_request "request body must be a JSON object")

/-- The limit a request is sent with. -/
def max_tokens (ir : UnifiedRequest) : Nat := ir.max_output_tokens.getD DEFAULT_MAX_TOKENS

def encode_reasoning (ir : UnifiedRequest) : Option Value :=
  ir.reasoning.map fun r => encode_thinking r (some (max_tokens ir))

/-- Whether the request thinks, which leaves less to choose. -/
def thinking_enabled (ir : UnifiedRequest) : Bool := (encode_reasoning ir).bind (·.get_str "type") = some "enabled"

/-- A temperature besides 1, where it is allowed. -/
def encode_temperature (ir : UnifiedRequest) : Option Value :=
  (ir.sampling.temperature.filter fun t =>
    ¬(thinking_enabled ir ∧ (1 + F64.EPSILON < t.value ∨ t.value < 1 - F64.EPSILON))).map F64.to_json

def encode_top_p (ir : UnifiedRequest) : Option Value :=
  (ir.sampling.top_p.filter fun p => ¬(thinking_enabled ir ∧ p.value < mkRat 95 100)).map F64.to_json

def encode_top_k (ir : UnifiedRequest) : Option Value :=
  (ir.sampling.top_k.filter fun _ => ¬thinking_enabled ir).map Value.nat

/-- The instructions, where they marked a place to cache as they came. -/
def encode_instructions (ir : UnifiedRequest) : Option Value :=
  (ir.extension (EXT ++ "system_raw")).or (if ir.system.isEmpty then none else some (encode_system ir.system))

/-- The functions, where they marked a place to cache as they came, and the tools
    of the upstream. -/
def encode_tools (ir : UnifiedRequest) : Option Value :=
  let functions := match ir.extension (EXT ++ "tools_raw") with
    | some (.array tools_raw) => some tools_raw
    | _ => if ir.tools.isEmpty then none else some (ir.tools.map encode_tool)
  match ir.extension (EXT ++ "server_tools") with
  | some (.array server) => some (.array (functions.getD [] ++ server))
  | _ => functions.map .array

def encode_metadata (ir : UnifiedRequest) : Option Value :=
  let kept := ((ir.extension (EXT ++ "metadata")).bind Value.as_object).getD []
  let metadata := match ir.user with
    | some user => Map.insert kept "user_id" (.string user)
    | none => kept
  if metadata.isEmpty then none else some (.object metadata)

/-- What a request is written as, before the protocol's own fields. -/
def request_fields (ir : UnifiedRequest) : Map :=
  [("model", .string ir.model), ("max_tokens", .nat (max_tokens ir))] ++
  member "stream" (if ir.stream then some (.bool true) else none) ++
  member "system" (encode_instructions ir) ++
  [("messages", .array (encode_messages ir.messages))] ++
  member "tools" (encode_tools ir) ++
  member "tool_choice" (encode_tool_choice ir.tool_choice ir.parallel_tool_calls) ++
  member "temperature" (encode_temperature ir) ++
  member "top_p" (encode_top_p ir) ++
  member "top_k" (encode_top_k ir) ++
  member "stop_sequences" (if ir.sampling.stop.isEmpty then none else some (.array (ir.sampling.stop.map .string))) ++
  member "thinking" (encode_reasoning ir) ++
  member "metadata" (encode_metadata ir)

/-- Writes a request. -/
def encode_request (ir : UnifiedRequest) : Value :=
  .object (restore_extensions ir.extensions (request_fields ir) ["server_tools", "metadata", "system_raw", "tools_raw"])

end refract.codec.messages
