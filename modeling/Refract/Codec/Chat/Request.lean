import Refract.Codec.Chat.Response
import Refract.Codec.Counts
import Refract.Ir.Content
import Refract.Ir.Request
import Refract.Json.Object
import Refract.Json.Text
import Refract.Machine.Transaction

open refract.core refract.json refract.ir

namespace refract.codec.chat

/-- Writes one part. Parts that have a place of their own are left out. -/
def part_json (part : ContentPart) : Option Value :=
  match part with
  | .text text => some (.object [("type", .string "text"), ("text", .string text)])
  | .image source mime detail =>
    some (.object [("type", .string "image_url"),
      ("image_url", .object ([("url", .string (source.to_data_uri mime))] ++ member "detail" (detail.map .string)))])
  | .audio source format =>
    let data := match source with
      | .base64 d => d
      | other => other.to_data_uri none
    some (.object [("type", .string "input_audio"),
      ("input_audio", .object [("data", .string data), ("format", .string (format.getD "wav"))])])
  | .file source mime name =>
    let file := match source with
      | .fileId id => ("file_id", Value.string id)
      | other => ("file_data", .string (other.to_data_uri mime))
    some (.object [("type", .string "file"), ("file", .object ([file] ++ member "filename" (name.map .string)))])
  | .refusal text => some (.object [("type", .string "refusal"), ("refusal", .string text)])
  | .thinking _ _ | .redactedThinking _ | .toolUse _ _ _ _ | .toolResult _ _ _ _ | .opaqueBlock _ _ => none

/-- Parts that are all text are one text. -/
def content_json (parts : List ContentPart) : Value :=
  if parts.isEmpty then .string ""
  else if parts.all ContentPart.is_text then .string (String.join (ContentPart.texts parts))
  else .array (parts.filterMap part_json)

/-- Arguments are a text, which truncated ones are already. -/
def arguments_json (serde : Serde) (input : Value) : Value :=
  match input with
  | .string s => .string s
  | other => .string (serde.to_string other)

def tool_call_json (serde : Serde) (part : ContentPart) : Option Value :=
  match part with
  | .toolUse id name input _ =>
    some (.object [("id", .string id), ("type", .string "function"),
      ("function", .object [("name", .string name), ("arguments", arguments_json serde input)])])
  | _ => none

/-- What stands in the content of a message: neither calls and their results, nor
    thoughts, nor a refusal. -/
def is_visible : ContentPart → Bool
  | .toolUse _ _ _ _ | .refusal _ | .thinking _ _ | .redactedThinking _ | .toolResult _ _ _ _ => false
  | _ => true

/-- The refusals of a message as one text. -/
def refusal_text (content : List ContentPart) : Option String :=
  if content.any ContentPart.is_refusal then
    some (String.join (content.filterMap fun part =>
      match part with
      | .refusal text => some text
      | _ => none))
  else none

/-- The fields of a request that the representation names. -/
def KNOWN_REQUEST_FIELDS : List String :=
  ["model", "messages", "stream", "stream_options", "max_tokens", "max_completion_tokens", "temperature", "top_p",
    "frequency_penalty", "presence_penalty", "seed", "n", "stop", "reasoning_effort", "response_format", "tools",
    "tool_choice", "parallel_tool_calls", "user", "dropped_thinking"]

/-- A count that is cut to the largest `u32`. -/
def as_u32 (v : Option Value) : Option Nat := (v.bind Value.as_u64).map fun n => min n.val U32_MAX

/-- Writes the protocol's own fields back, where they are not written yet. The
    tools of the upstream have been written with the others. -/
def restore_extensions (ext : Extensions) (body : Map) : Map :=
  ext.foldl (fun body (key, value) =>
    match strip_start key EXT with
    | some field =>
      if field = "" ∨ field = "builtin_tools" ∨ body.contains_key field then body else body.insert field value
    | none => body) body

/-- A sequence to stop at is one text or several. -/
def parse_stop (v : Option Value) : List String :=
  match v with
  | some (.string s) => [s]
  | some (.array items) => items.filterMap Value.as_str
  | _ => []

def parse_response_format (raw : Value) : Option ResponseFormat :=
  match raw.get_str "type" with
  | some "text" => some .text
  | some "json_object" => some .jsonObject
  | some "json_schema" => (raw.get "json_schema").map fun schema =>
    .jsonSchema ((schema.get_str "name").getD "response") ((schema.get "schema").getD (.object []))
      (((schema.get "strict").bind Value.as_bool).getD false)
  | _ => none

def response_format_json (rf : ResponseFormat) : Value :=
  match rf with
  | .text => .object [("type", .string "text")]
  | .jsonObject => .object [("type", .string "json_object")]
  | .jsonSchema name schema strict =>
    .object [("type", .string "json_schema"),
      ("json_schema", .object [("name", .string name), ("schema", schema), ("strict", .bool strict)])]

def tool_json (tool : ToolDef) : Value :=
  .object [("type", .string "function"),
    ("function", .object ([("name", .string tool.name)] ++ member "description" (tool.description.map .string) ++
      [("parameters", tool.parameters)] ++ member "strict" (tool.strict.map .bool)))]

/-- The thoughts that were dropped from one message. -/
def dropped_for (items : Option (List Value)) (wire_index : Nat) : List Value :=
  (items.getD []).filter fun item => ((item.get "message").bind Value.as_u64).map Fin.val = some wire_index

/-- The parts of a message of the model. The thoughts that were dropped from it
    stand for the one text it may name. -/
def assistant_content (serde : Serde) (m : Value) (restored : List Value) : List ContentPart :=
  let reasoning := if restored.isEmpty then (((str (some m) "reasoning_content").filter (· ≠ "")).map
      (ContentPart.thinking · (str (some m) "reasoning_signature"))).toList
    else []
  let refusal := (((str (some m) "refusal").filter (· ≠ "")).map ContentPart.refusal).toList
  let calls := ((m.get "tool_calls").bind Value.as_array).getD []
  restore_dropped_parts restored (reasoning ++ parse_content (m.get "content") ++ refusal ++ parse_tool_calls serde calls)

/-- Reads one message: what it adds to the instructions, and to the conversation. -/
def decode_message (serde : Serde) (dropped : Option (List Value)) (i : Nat) (m : Value) :
    Except GatewayError (List ContentPart × List Message) :=
  let here := "messages[" ++ toString i ++ "]"
  match str (some m) "role" with
  | none => .error (.invalid_request (here ++ " is missing `role`"))
  | some "system" | some "developer" => .ok (parse_content (m.get "content"), [])
  | some "user" => .ok ([], [{ role := .user, content := parse_content (m.get "content"), name := str (some m) "name" }])
  | some "assistant" =>
    .ok ([], [{ role := .assistant, content := assistant_content serde m (dropped_for dropped i), name := str (some m) "name" }])
  | some "tool" =>
    match (str (some m) "tool_call_id").filter (· ≠ "") with
    | none => .error (.invalid_request (here ++ " with role `tool` is missing `tool_call_id`"))
    | some id => .ok ([], [{ role := .tool, content := [.toolResult id none (parse_content (m.get "content")) false] }])
  | some other => .error (.invalid_request (here ++ " has unsupported role `" ++ other ++ "`"))

/-- Reads messages up to the first that cannot be read. -/
def decode_messages (serde : Serde) (dropped : Option (List Value)) :
    Nat → List Value → Except GatewayError (List ContentPart × List Message)
  | _, [] => .ok ([], [])
  | i, m :: rest =>
    (decode_message serde dropped i m).bind fun (system, messages) =>
      (decode_messages serde dropped (i + 1) rest).map fun (systems, later) => (system ++ systems, messages ++ later)

def decode_tool (tool : Value) : Option ToolDef :=
  (tool.get "function").bind fun f => (f.get_str "name").map fun name =>
    { name := name
      description := f.get_str "description"
      parameters := (f.get "parameters").getD (.object [("type", .string "object"), ("properties", .object [])])
      strict := (f.get "strict").bind Value.as_bool }

/-- The tools of the upstream, which are no functions. -/
def builtin_tools (tools : List Value) : List Value := tools.filter fun tool => (tool.get "function").isNone

def decode_tool_choice (choice : Option Value) : ToolChoice :=
  match choice with
  | none | some .null => .unspecified
  | some (.string "none") => .none
  | some (.string "auto") => .auto
  | some (.string "required") | some (.string "any") => .required
  | some (.string _) => .unspecified
  | some v => ((str (v.get "function") "name").map ToolChoice.tool).getD .unspecified

/-- The extensions of a request: the tools of the upstream, and what the
    representation does not name. -/
def request_extensions (obj : Map) (tools : List Value) : Extensions :=
  let builtins := builtin_tools tools
  collect_unknown obj KNOWN_REQUEST_FIELDS
    (if builtins.isEmpty then [] else [(EXT ++ "builtin_tools", .array builtins)])

/-- Reads a request. -/
def decode_request (serde : Serde) (raw : Value) : Except GatewayError UnifiedRequest :=
  match raw with
  | .object obj =>
    let number key := (Map.get obj key).bind as_f64
    let flag key := (Map.get obj key).bind Value.as_bool
    match (raw.get_str "model").filter (· ≠ ""), (Map.get obj "messages").bind Value.as_array with
    | none, _ => .error (.invalid_request "missing required field `model`")
    | some _, none => .error (.invalid_request "missing required field `messages` (expected an array)")
    | some model, some raw_messages =>
      (decode_messages serde ((Map.get obj "dropped_thinking").bind Value.as_array) 0 raw_messages).map
        fun (system, messages) =>
          let tools := ((Map.get obj "tools").bind Value.as_array).getD []
          { model := model
            system := system
            messages := messages
            tools := tools.filterMap decode_tool
            tool_choice := decode_tool_choice (Map.get obj "tool_choice")
            parallel_tool_calls := flag "parallel_tool_calls"
            sampling :=
              { temperature := number "temperature"
                top_p := number "top_p"
                frequency_penalty := number "frequency_penalty"
                presence_penalty := number "presence_penalty"
                stop := parse_stop (Map.get obj "stop")
                seed := (Map.get obj "seed").bind Value.as_i64
                candidate_count := as_u32 (Map.get obj "n") }
            max_output_tokens := (as_u32 (Map.get obj "max_completion_tokens")).or (as_u32 (Map.get obj "max_tokens"))
            stream := (flag "stream").getD false
            stream_include_usage :=
              (((Map.get obj "stream_options").bind (·.get "include_usage")).bind Value.as_bool).getD false
            reasoning := (raw.get_str "reasoning_effort").map fun effort => { effort := some effort }
            response_format := (Map.get obj "response_format").bind parse_response_format
            user := raw.get_str "user"
            extensions := request_extensions obj tools }
  | _ => .error (.invalid_request "request body must be a JSON object")

/-- Writes the result of a call. Media have no place in it and follow in a message
    of the user. -/
def encode_tool_result (id : String) (content : List ContentPart) : List Value :=
  let media := content.filter fun part =>
    match part with
    | .image _ _ _ | .audio _ _ | .file _ _ _ => true
    | _ => false
  let note := Value.object [("type", .string "text"), ("text", .string ("[attachment from tool call " ++ id ++ "]"))]
  .object [("role", .string "tool"), ("tool_call_id", .string id),
      ("content", content_json (content.filter ContentPart.is_text))] ::
    if media.isEmpty then []
    else [.object [("role", .string "user"), ("content", .array (note :: media.filterMap part_json))]]

def encode_tool_results (content : List ContentPart) : List Value :=
  content.flatMap fun part =>
    match part with
    | .toolResult id _ content _ => encode_tool_result id content
    | _ => []

def role_str : Role → String
  | .system => "system"
  | .user => "user"
  | .assistant | .tool => "assistant"

/-- Writes one message as one or several. Results of calls are messages of their
    own, before what else is said. -/
def encode_message (serde : Serde) (msg : Message) : List Value :=
  if msg.role = .tool then
    if msg.content.any ContentPart.is_tool_result then encode_tool_results msg.content
    else if msg.content.isEmpty then []
    else [.object [("role", .string "user"), ("content", content_json msg.content)]]
  else
    let results := if msg.role = .user then encode_tool_results msg.content else []
    let visible := msg.content.filter is_visible
    let tool_calls := msg.content.filterMap (tool_call_json serde)
    let refusal := refusal_text msg.content
    if visible.isEmpty ∧ tool_calls.isEmpty ∧ refusal.isNone ∧ ¬msg.content.isEmpty then results
    else
      results ++ [.object ([("role", .string (role_str msg.role)),
        ("content", if visible.isEmpty ∧ (¬tool_calls.isEmpty ∨ refusal.isSome) then .null else content_json visible)] ++
        member "refusal" (refusal.map .string) ++
        member "tool_calls" (if tool_calls.isEmpty then none else some (.array tool_calls)) ++
        member "name" (msg.name.map .string))]

/-- The instructions are one message. -/
def encode_system (ir : UnifiedRequest) : List Value :=
  if ir.system.isEmpty then []
  else
    let content := if ir.system.all ContentPart.is_text then .string ir.system_text else content_json ir.system
    [.object [("role", .string "system"), ("content", content)]]

/-- One sequence to stop at is written as a text. -/
def stop_json (stop : List String) : Option Value :=
  match stop with
  | [] => none
  | [s] => some (.string s)
  | _ => some (.array (stop.map .string))

def tool_choice_json (choice : ToolChoice) : Option Value :=
  match choice with
  | .unspecified => none
  | .auto => some (.string "auto")
  | .required => some (.string "required")
  | .none => some (.string "none")
  | .tool name => some (.object [("type", .string "function"), ("function", .object [("name", .string name)])])

/-- A level is passed on as it is, and a number of tokens as the level it stands for. -/
def encode_effort (ir : UnifiedRequest) : Option Value :=
  ir.reasoning.bind fun r => (r.effort.or (r.effort_or_from_budget ir.max_output_tokens)).map .string

def encode_tools (ir : UnifiedRequest) : List Value :=
  let builtins := match ir.extension (EXT ++ "builtin_tools") with
    | some (.array builtins) => builtins
    | _ => []
  ir.tools.map tool_json ++ builtins

/-- What a request is written as, before the protocol's own fields. -/
def request_fields (serde : Serde) (ir : UnifiedRequest) : Map :=
  let s := ir.sampling
  [("model", .string ir.model),
    ("messages", .array (encode_system ir ++ ir.messages.flatMap (encode_message serde)))] ++
  member "temperature" (s.temperature.map F64.to_json) ++
  member "top_p" (s.top_p.map F64.to_json) ++
  member "frequency_penalty" (s.frequency_penalty.map F64.to_json) ++
  member "presence_penalty" (s.presence_penalty.map F64.to_json) ++
  member "seed" (s.seed.map fun seed => .number (.int seed)) ++
  member "n" (s.candidate_count.map Value.nat) ++
  member "stop" (stop_json s.stop) ++
  member "max_completion_tokens" (ir.max_output_tokens.map Value.nat) ++
  member "stream" (if ir.stream then some (.bool true) else none) ++
  member "stream_options"
    (if ir.stream ∧ ir.stream_include_usage then some (.object [("include_usage", .bool true)]) else none) ++
  member "reasoning_effort" (encode_effort ir) ++
  member "response_format" (ir.response_format.map response_format_json) ++
  member "tools" (if (encode_tools ir).isEmpty then none else some (.array (encode_tools ir))) ++
  member "tool_choice" (tool_choice_json ir.tool_choice) ++
  member "parallel_tool_calls" (ir.parallel_tool_calls.map .bool) ++
  member "user" (ir.user.map .string)

/-- Writes a request. -/
def encode_request (serde : Serde) (ir : UnifiedRequest) : Value :=
  .object (restore_extensions ir.extensions (request_fields serde ir))

/-- A thought that the message has no place for, with where it was. -/
def dropped_json (position : Nat) (part : ContentPart) : Option Value :=
  match part with
  | .thinking text signature =>
    some (.object ([("position", .nat position), ("text", .string text)] ++ member "signature" (signature.map .string)))
  | .redactedThinking data => some (.object [("position", .nat position), ("redacted", .string data)])
  | _ => none

/-- The thoughts of a response as one text. -/
def reasoning_text (content : List ContentPart) : String :=
  String.join (content.filterMap fun part =>
    match part with
    | .thinking text _ => some text
    | _ => none)

def response_message (serde : Serde) (content : List ContentPart) : Map :=
  let visible := content.filter is_visible
  let tool_calls := content.filterMap (tool_call_json serde)
  let refusal := refusal_text content
  [("role", .string "assistant"),
    ("content", if visible.isEmpty ∧ (¬tool_calls.isEmpty ∨ refusal.isSome) then .null else content_json visible)] ++
  member "reasoning_content" (if reasoning_text content = "" then none else some (.string (reasoning_text content))) ++
  member "refusal" (refusal.map .string) ++
  member "tool_calls" (if tool_calls.isEmpty then none else some (.array tool_calls))

/-- Writes a response. -/
def encode_response (serde : Serde) (ir : UnifiedResponse) : Value :=
  let choice := Value.object [("index", .nat 0), ("message", .object (response_message serde ir.content)),
    ("finish_reason", (ir.stop_reason.map fun reason => .string (stop_reason_to_finish reason)).getD .null)]
  let dropped := (ir.content.zipIdx.filterMap fun (part, position) => dropped_json position part)
  .object <| restore_extensions ir.extensions <|
    [("id", .string ir.id), ("object", .string "chat.completion"), ("created", .number (.int ir.created)),
      ("model", .string ir.model), ("choices", .array [choice]), ("usage", usage_json ir.usage)] ++
    member "dropped_thinking" (if dropped.isEmpty then none else some (.array dropped))

end refract.codec.chat
