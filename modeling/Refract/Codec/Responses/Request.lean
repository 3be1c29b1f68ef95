import Refract.Codec.Responses.Decoder
import Refract.Codec.Responses.Response
import Refract.Ir.Request
import Refract.Json.Object

open refract.core refract.json refract.ir

namespace refract.codec.responses

def EXT : String := "responses."

/-- The fields of a request that the representation names. -/
def KNOWN_REQUEST_FIELDS : List String :=
  ["model", "input", "instructions", "stream", "max_output_tokens", "tools", "tool_choice", "parallel_tool_calls",
    "text", "reasoning", "temperature", "top_p", "user", "metadata", "previous_response_id", "store", "include"]

def type_name : Value → String
  | .null => "null"
  | .bool _ => "boolean"
  | .number _ => "number"
  | .string _ => "string"
  | .array _ => "array"
  | .object _ => "object"

/-- Appends a part to the last message of its role, or as a new one. -/
def push_into (messages : List Message) (role : Role) (part : ContentPart) : List Message :=
  match messages.getLast? with
  | some last =>
    if last.role = role then messages.dropLast ++ [{ last with content := last.content ++ [part] }]
    else messages ++ [{ role := role, content := [part] }]
  | none => [{ role := role, content := [part] }]

def decode_message_content (content : Option Value) : List ContentPart :=
  match content with
  | some (.string s) => [.text s]
  | some (.array parts) => parts.filterMap decode_content_part
  | _ => []

/-- The result of a call is a text, a list of parts, or any document. -/
def decode_tool_output (serde : Serde) (output : Option Value) : List ContentPart :=
  match output with
  | some (.string s) => [.text s]
  | some (.array parts) => parts.filterMap decode_content_part
  | some .null | none => []
  | some other => [.text (serde.to_string other)]

/-- The role of a message. Any role that is not known is the user's. -/
def decode_role (role : Option String) : Role :=
  match role with
  | some "assistant" => .assistant
  | some "system" | some "developer" => .system
  | some "tool" => .tool
  | _ => .user

/-- Adds one item to a conversation. Calls, results and thoughts join the message
    before them. An item of unknown type is kept as it is. -/
def decode_input_item (serde : Serde) (messages : List Message) (item : Value) : Except GatewayError (List Message) :=
  match item with
  | .object obj =>
    let entries key := ((Map.get obj key).bind Value.as_array).getD []
    match (item.get_str "type").getD (if Map.contains_key obj "role" then "message" else "") with
    | "message" =>
      .ok (messages ++
        [{ role := decode_role (item.get_str "role"), content := decode_message_content (Map.get obj "content") }])
    | "function_call" =>
      .ok (push_into messages .assistant
        (.toolUse ((((Map.get obj "call_id").or (Map.get obj "id")).bind Value.as_str).getD "")
          ((item.get_str "name").getD "") (parse_arguments serde (Map.get obj "arguments")) none))
    | "function_call_output" =>
      .ok (push_into messages .tool
        (.toolResult ((item.get_str "call_id").getD "") none (decode_tool_output serde (Map.get obj "output")) false))
    | "reasoning" =>
      .ok (push_into messages .assistant
        (.thinking (reasoning_text (entries "content") (reasoning_text (entries "summary") ""))
          (item.get_str "encrypted_content")))
    | _ => .ok (push_into messages .assistant (.opaqueBlock "responses" item))
  | _ => .error (.invalid_request "each element of `input` must be an object")

/-- Reads items up to the first that cannot be read. -/
def decode_input_items (serde : Serde) (items : List Value) : Except GatewayError (List Message) :=
  items.foldlM (decode_input_item serde) []

/-- Reads the conversation: a text of the user, or items. Messages of the system
    are instructions. -/
def decode_input (serde : Serde) (input : Option Value) : Except GatewayError (List ContentPart × List Message) :=
  match input with
  | some (.string s) => .ok ([], [{ role := .user, content := [.text s] }])
  | some (.array items) => (decode_input_items serde items).map fun messages =>
    ((messages.filter (·.role = .system)).flatMap (·.content), messages.filter (·.role ≠ .system))
  | some other => .error (.invalid_request ("field `input` must be a string or an array, got " ++ type_name other))
  | none => .ok ([], [])

/-- A tool that is no function of the client. -/
def is_builtin (tool : Value) : Bool := tool.is_object && (tool.get_str "type").getD "function" ≠ "function"

def decode_tool (tool : Value) : Option ToolDef :=
  match tool with
  | .object obj =>
    if is_builtin tool then none
    else
      let src := Value.object (((Map.get obj "function").bind Value.as_object).getD obj)
      ((src.get_str "name").filter (· ≠ "")).map fun name =>
        { name := name
          description := src.get_str "description"
          parameters := ((src.get "parameters").filter (!·.is_null)).getD
            (.object [("type", .string "object"), ("properties", .object [])])
          strict := (src.get "strict").bind Value.as_bool }
  | _ => none

def decode_tool_choice (choice : Value) : ToolChoice :=
  match choice with
  | .string "none" => .none
  | .string "auto" => .auto
  | .string "required" => .required
  | .object _ => ((choice.get_str "name").map ToolChoice.tool).getD .required
  | _ => .unspecified

def decode_response_format (format : Value) : Option ResponseFormat :=
  match format.get_str "type" with
  | some "text" => some .text
  | some "json_object" => some .jsonObject
  | some "json_schema" =>
    some (.jsonSchema ((format.get_str "name").getD "response") ((format.get "schema").getD .null)
      (((format.get "strict").bind Value.as_bool).getD false))
  | _ => none

def decode_reasoning (reasoning : Value) : Option ReasoningConfig :=
  let effort := reasoning.get_str "effort"
  let include_thoughts : Option Bool := (reasoning.get_str "summary").map (· ≠ "none")
  if effort.isNone ∧ include_thoughts.isNone then none
  else some { effort := effort, include_thoughts := include_thoughts }

/-- What identifies the conversation, and what the representation does not name. -/
def request_extensions (obj : Map) (builtins : List Value) : Extensions :=
  let kept : Extensions := ["previous_response_id", "store", "include", "metadata"].foldl (fun ext key =>
    match (Map.get obj key).filter (!·.is_null) with
    | some value => ext.insert (EXT ++ key) value
    | none => ext) (if builtins.isEmpty then [] else [(EXT ++ "builtin_tools", .array builtins)])
  obj.foldl (fun ext (key, value) =>
    if KNOWN_REQUEST_FIELDS.contains key then ext else ext.insert (EXT ++ key) value) kept

/-- Reads a request. -/
def decode_request (serde : Serde) (raw : Value) : Except GatewayError UnifiedRequest :=
  match raw with
  | .object obj =>
    match (raw.get_str "model").filter (· ≠ "") with
    | none => .error (.invalid_request "missing required field `model`")
    | some model =>
      (decode_input serde (Map.get obj "input")).map fun (system, messages) =>
        let number key := (Map.get obj key).bind as_f64
        let flag key := (Map.get obj key).bind Value.as_bool
        let tools := ((Map.get obj "tools").bind Value.as_array).getD []
        { model := model
          system := ((raw.get_str "instructions").map ContentPart.text).toList ++ system
          messages := messages
          tools := tools.filterMap decode_tool
          tool_choice := ((Map.get obj "tool_choice").map decode_tool_choice).getD .unspecified
          parallel_tool_calls := flag "parallel_tool_calls"
          sampling := { temperature := number "temperature", top_p := number "top_p" }
          max_output_tokens := (Map.get obj "max_output_tokens").bind as_u32
          stream := (flag "stream").getD false
          stream_include_usage := (flag "stream").getD false
          reasoning := (Map.get obj "reasoning").bind decode_reasoning
          response_format := ((Map.get obj "text").bind (·.get "format")).bind decode_response_format
          user := raw.get_str "user"
          extensions := request_extensions obj (tools.filter is_builtin) }
  | _ => .error (.invalid_request "request body must be a JSON object")

/-- Arguments as a text, which truncated ones are already. -/
def stringify_arguments (serde : Serde) (input : Value) : String :=
  match input with
  | .string s => s
  | .null => "{}"
  | other => serde.to_string other

def flatten_text (parts : List ContentPart) : String := ContentPart.lines parts

/-- The result of a call as a text. A failed one says so. -/
def tool_output (content : List ContentPart) (is_error : Bool) : String :=
  let text := flatten_text content
  if is_error then (if text = "" then "Error: tool call failed" else "Error: " ++ text) else text

/-- Writes a part of a message. What the model said is output, all else is input. -/
def encode_content_part (part : ContentPart) (role : Role) : Option Value :=
  match part with
  | .text text =>
    some (.object (if role = .assistant then
      [("type", .string "output_text"), ("text", .string text), ("annotations", .array [])]
    else [("type", .string "input_text"), ("text", .string text)]))
  | .image source mime detail =>
    let image := match source with
      | .fileId id => ("file_id", Value.string id)
      | other => ("image_url", .string (other.to_data_uri mime))
    some (.object [("type", .string "input_image"), image, ("detail", .string (detail.getD "auto"))])
  | .file source mime name =>
    let file := match source with
      | .fileId id => ("file_id", Value.string id)
      | .url u => ("file_url", .string u)
      | .base64 _ | .text _ => ("file_data", .string (source.to_data_uri mime))
    some (.object ([("type", .string "input_file"), file] ++ member "filename" (name.map .string)))
  | .refusal text => some (.object [("type", .string "refusal"), ("refusal", .string text)])
  | _ => none

def role_str : Role → String
  | .system => "system"
  | .assistant => "assistant"
  | .user | .tool => "user"

/-- The summary of a thought, which has no empty entry. -/
def summary_json (text : String) : Value :=
  .array (if text = "" then [] else [.object [("type", .string "summary_text"), ("text", .string text)]])

/-- Writes a part that is an item of its own. -/
def encode_item (serde : Serde) (part : ContentPart) : List Value :=
  match part with
  | .toolUse id name input _ =>
    [.object [("type", .string "function_call"), ("call_id", .string id), ("name", .string name),
      ("arguments", .string (stringify_arguments serde input))]]
  | .toolResult id _ content is_error =>
    [.object [("type", .string "function_call_output"), ("call_id", .string id),
      ("output", .string (tool_output content is_error))]]
  | .thinking text signature =>
    [.object ([("type", .string "reasoning"), ("summary", summary_json text)] ++
      member "encrypted_content" (signature.map .string))]
  | .redactedThinking data =>
    [.object [("type", .string "reasoning"), ("summary", .array []), ("encrypted_content", .string data)]]
  | .opaqueBlock protocol value => if protocol = "responses" then [value] else []
  | _ => []

/-- Writes one message: its items, and what else it says. -/
def encode_message (serde : Serde) (msg : Message) : List Value :=
  let parts := msg.content.filterMap (encode_content_part · msg.role)
  msg.content.flatMap (encode_item serde) ++
    if parts.isEmpty then []
    else [.object [("type", .string "message"), ("role", .string (role_str msg.role)), ("content", .array parts)]]

def encode_input_items (serde : Serde) (messages : List Message) : List Value := messages.flatMap (encode_message serde)

def encode_tool (tool : ToolDef) : Value :=
  .object ([("type", .string "function"), ("name", .string tool.name)] ++
    member "description" (tool.description.map .string) ++ [("parameters", tool.parameters)] ++
    member "strict" (tool.strict.map .bool))

def encode_tool_choice (choice : ToolChoice) : Option Value :=
  match choice with
  | .unspecified => none
  | .auto => some (.string "auto")
  | .required => some (.string "required")
  | .none => some (.string "none")
  | .tool name => some (.object [("type", .string "function"), ("name", .string name)])

def encode_response_format (format : ResponseFormat) : Value :=
  match format with
  | .text => .object [("type", .string "text")]
  | .jsonObject => .object [("type", .string "json_object")]
  | .jsonSchema name schema strict =>
    .object [("type", .string "json_schema"), ("name", .string name), ("schema", schema), ("strict", .bool strict)]

/-- A number of tokens is written as the level it stands for. -/
def encode_reasoning (cfg : ReasoningConfig) (max_output : Option Nat) : Option Value :=
  let obj := member "effort" ((cfg.effort_or_from_budget max_output).map .string) ++
    member "summary" (cfg.include_thoughts.map fun shown => .string (if shown then "auto" else "none"))
  if obj.isEmpty then none else some (.object obj)

/-- The functions, and the tools of the upstream. -/
def encode_tools (ir : UnifiedRequest) : List Value :=
  let builtins := match ir.extension (EXT ++ "builtin_tools") with
    | some (.array builtins) => builtins
    | _ => []
  ir.tools.map encode_tool ++ builtins

/-- Writes the protocol's own fields, over what is written there. -/
def write_extensions (ext : Extensions) (out : Map) (skip : List String) : Map :=
  ext.foldl (fun out (key, value) =>
    match strip_start key EXT with
    | some field => if skip.contains field then out else out.insert field value
    | none => out) out

/-- What a request is written as, before the protocol's own fields. -/
def request_fields (serde : Serde) (ir : UnifiedRequest) : Map :=
  [("model", .string ir.model)] ++
  member "instructions" (if ir.system.isEmpty then none else some (.string ir.system_text)) ++
  [("input", .array (encode_input_items serde ir.messages))] ++
  member "stream" (if ir.stream then some (.bool true) else none) ++
  member "max_output_tokens" (ir.max_output_tokens.map Value.nat) ++
  member "temperature" (ir.sampling.temperature.map F64.to_json) ++
  member "top_p" (ir.sampling.top_p.map F64.to_json) ++
  member "parallel_tool_calls" (ir.parallel_tool_calls.map .bool) ++
  member "user" (ir.user.map .string) ++
  member "tools" (if (encode_tools ir).isEmpty then none else some (.array (encode_tools ir))) ++
  member "tool_choice" (encode_tool_choice ir.tool_choice) ++
  member "text" (ir.response_format.map fun format => .object [("format", encode_response_format format)]) ++
  member "reasoning" (ir.reasoning.bind (encode_reasoning · ir.max_output_tokens))

/-- Writes a request. -/
def encode_request (serde : Serde) (ir : UnifiedRequest) : Value :=
  .object (write_extensions ir.extensions (request_fields serde ir) ["builtin_tools"])

/-- Writes a part of an answer that is an item of its own. -/
def encode_output_item (serde : Serde) (id : String) (part : ContentPart) : List Value :=
  match part with
  | .toolUse call_id name input _ =>
    [.object [("type", .string "function_call"), ("id", .string ("fc_" ++ call_id)), ("call_id", .string call_id),
      ("name", .string name), ("arguments", .string (stringify_arguments serde input)), ("status", .string "completed")]]
  | .thinking text signature =>
    [.object ([("type", .string "reasoning"), ("id", .string ("rs_" ++ id)), ("summary", summary_json text)] ++
      member "encrypted_content" (signature.map .string))]
  | .redactedThinking data =>
    [.object [("type", .string "reasoning"), ("id", .string ("rs_" ++ id)), ("summary", .array []),
      ("encrypted_content", .string data)]]
  | .opaqueBlock protocol value => if protocol = "responses" then [value] else []
  | _ => []

def encode_output_part (part : ContentPart) : Option Value :=
  match part with
  | .text text => some (.object [("type", .string "output_text"), ("text", .string text), ("annotations", .array [])])
  | .refusal text => some (.object [("type", .string "refusal"), ("refusal", .string text)])
  | _ => none

/-- The output of an answer, what it says in one message at the end. -/
def encode_output_items (serde : Serde) (ir : UnifiedResponse) : List Value :=
  let message_parts := ir.content.filterMap encode_output_part
  ir.content.flatMap (encode_output_item serde ir.id) ++
    if message_parts.isEmpty then []
    else [.object [("type", .string "message"), ("id", .string ("msg_" ++ ir.id)), ("role", .string "assistant"),
      ("status", .string "completed"), ("content", .array message_parts)]]

/-- Writes a response. -/
def encode_response (serde : Serde) (ir : UnifiedResponse) : Value :=
  let reason := ir.stop_reason.getD .stop
  .object <| write_extensions ir.extensions
    ([("id", .string ir.id), ("object", .string "response"), ("created_at", .number (.int ir.created)),
      ("model", .string ir.model), ("status", .string (status_str reason)),
      ("output", .array (encode_output_items serde ir)), ("output_text", .string (String.join (ContentPart.texts ir.content))),
      ("parallel_tool_calls", .bool true), ("tool_choice", .string "auto"), ("tools", .array []),
      ("usage", encode_usage ir.usage), ("incomplete_details", (incomplete_details reason).getD .null),
      ("error", .null)] ++
    member "metadata" (ir.stop_sequence.map fun seq => .object [("stop_sequence", .string seq)])) []

end refract.codec.responses
