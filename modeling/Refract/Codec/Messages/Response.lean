import Refract.Codec.Counts
import Refract.Core.Error
import Refract.Ir.Content
import Refract.Json.Text

open refract.core refract.json refract.ir

namespace refract.codec.messages

def EXT : String := "messages."

/-- The fields of a response that the representation names. -/
def KNOWN_RESPONSE_FIELDS : List String :=
  ["id", "type", "role", "model", "content", "stop_reason", "stop_sequence", "usage"]

/-- Keeps the fields that are not known under the protocol's own keys. -/
def collect_unknown (obj : Map) (known : List String) (ext : Extensions) : Extensions :=
  obj.foldl (fun ext (key, value) => if known.contains key then ext else ext.insert (EXT ++ key) value) ext

/-- Writes the protocol's own fields back, where they are not written yet. -/
def restore_extensions (ext : Extensions) (out : Map) (skip : List String) : Map :=
  ext.foldl (fun out (key, value) =>
    match strip_start key EXT with
    | some field => if skip.contains field ∨ out.contains_key field then out else out.insert field value
    | none => out) out

/-- A member that has to be a string. -/
def required (value : Option String) (message : String) : Except GatewayError String :=
  match value with
  | some s => .ok s
  | none => .error (.invalid_request message)

/-- Reads the source of a medium, and its type. -/
def decode_source (raw : Option Value) : Except GatewayError (MediaSource × Option String) :=
  match raw with
  | some (.object obj) =>
    let source := Value.object obj
    let mime := source.get_str "media_type"
    match source.get_str "type" with
    | some "base64" => (required (source.get_str "data") "base64 source requires a `data` field").map (.base64 ·, mime)
    | some "url" => (required (source.get_str "url") "url source requires a `url` field").map (.url ·, mime)
    | some "file" => (required (source.get_str "file_id") "file source requires a `file_id` field").map (.fileId ·, mime)
    | some "text" => .ok (.text ((source.get_str "data").getD ""), mime)
    | some other => .error (.invalid_request ("unsupported source type `" ++ other ++ "`"))
    | none => .error (.invalid_request "media `source` requires a `type` field")
  | _ => .error (.invalid_request "media block requires a `source` object")

mutual

/-- Reads one block. A block of unknown type is kept as it is. -/
def decode_block (serde : Serde) (raw : Value) : Except GatewayError (List ContentPart) :=
  match raw with
  | .string s => .ok [.text s]
  | .object obj =>
    let str key := (Map.get obj key).bind Value.as_str
    match (str "type").getD "" with
    | "text" => .ok [.text ((str "text").getD "")]
    | "image" => (decode_source (Map.get obj "source")).map fun (source, mime) => [.image source mime none]
    | "document" => (decode_source (Map.get obj "source")).map fun (source, mime) => [.file source mime (str "title")]
    | "thinking" => .ok [.thinking ((str "thinking").getD "") (str "signature")]
    | "redacted_thinking" => .ok [.redactedThinking ((str "data").getD "")]
    | "tool_use" =>
      (required (str "id") "tool_use block requires `id`").bind fun id =>
        (required (str "name") "tool_use block requires `name`").map fun name =>
          [.toolUse id name ((Map.get obj "input").getD (.object [])) none]
    | "tool_result" =>
      (required (str "tool_use_id") "tool_result block requires `tool_use_id`").bind fun id =>
        (decode_tool_result_content serde (Map.get obj "content")).map fun content =>
          [.toolResult id none content (((Map.get obj "is_error").bind Value.as_bool).getD false)]
    | "" => .error (.invalid_request "content block requires a `type` field")
    | _ => .ok [.opaqueBlock "messages" (.object obj)]
  | _ => .error (.invalid_request "content block must be an object")
termination_by sizeOf raw
decreasing_by exact Map.sizeOf_get_lt obj "content"

/-- The result of a tool is a text or a list of blocks. -/
def decode_tool_result_content (serde : Serde) (raw : Option Value) : Except GatewayError (List ContentPart) :=
  match raw with
  | some (.string s) => .ok [.text s]
  | some (.array items) => decode_blocks serde items
  | some .null | none => .ok []
  | some other => .ok [.text (serde.to_string other)]
termination_by sizeOf raw

/-- Reads blocks up to the first that cannot be read. -/
def decode_blocks (serde : Serde) (items : List Value) : Except GatewayError (List ContentPart) :=
  match items with
  | [] => .ok []
  | item :: items => (decode_block serde item).bind fun parts => (decode_blocks serde items).map (parts ++ ·)
termination_by sizeOf items

end

def error_kind (kind : String) : ErrorKind :=
  match kind with
  | "invalid_request_error" => .invalidRequest
  | "authentication_error" => .unauthenticated
  | "permission_error" => .permissionDenied
  | "not_found_error" => .notFound
  | "request_too_large" => .payloadTooLarge
  | "rate_limit_error" => .rateLimited
  | "api_error" | "overloaded_error" => .upstreamError
  | "timeout_error" => .timeout
  | _ => .upstreamError

def error_from_anthropic_type (kind message : String) : GatewayError :=
  (GatewayError.new (error_kind kind) message).with_protocol .messages

/-- The error of an error body. -/
def decode_error_body (obj : Map) : GatewayError :=
  let err := Map.get obj "error"
  error_from_anthropic_type ((err.bind (·.get_str "type")).getD "")
    ((err.bind (·.get_str "message")).getD "upstream returned an error without a message")

/-- Reads a response. An error the upstream reports comes first. -/
def decode_response (serde : Serde) (now : Int) (raw : Value) : Except GatewayError UnifiedResponse :=
  match raw with
  | .object obj =>
    if raw.get_str "type" = some "error" then .error (decode_error_body obj)
    else
      (decode_blocks serde (((Map.get obj "content").bind Value.as_array).getD [])).map fun content =>
        { id := (raw.get_str "id").getD ""
          model := (raw.get_str "model").getD ""
          created := now
          content := content
          stop_reason := (raw.get_str "stop_reason").map decode_stop_reason
          stop_sequence := raw.get_str "stop_sequence"
          usage := ((Map.get obj "usage").map decode_usage).getD {}
          extensions := collect_unknown obj KNOWN_RESPONSE_FIELDS [] }
  | _ => .error (.invalid_request "response body must be a JSON object")

/-- Writes the source of a medium. A URL that is a data URI is taken apart. -/
def encode_source (source : MediaSource) (mime : Option String) : Value :=
  match source with
  | .base64 data => .object
      [("type", .string "base64"), ("media_type", .string (mime.getD "application/octet-stream")), ("data", .string data)]
  | .url url =>
    match MediaSource.parse_data_uri url with
    | (.base64 data, parsed_mime) => .object
        [("type", .string "base64"), ("media_type", .string ((parsed_mime.or mime).getD "application/octet-stream")),
          ("data", .string data)]
    | _ => .object [("type", .string "url"), ("url", .string url)]
  | .fileId id => .object [("type", .string "file"), ("file_id", .string id)]
  | .text text => .object
      [("type", .string "text"), ("media_type", .string (mime.getD "text/plain")), ("data", .string text)]

def optional_str (key : String) (value : Option String) : Map := (value.map fun s => (key, Value.string s)).toList

mutual

/-- Writes one part. Blocks of other protocols are left out. -/
def encode_block (part : ContentPart) : Option Value :=
  match part with
  | .text text => some (.object [("type", .string "text"), ("text", .string text)])
  | .image source mime _ => some (.object [("type", .string "image"), ("source", encode_source source mime)])
  | .file source mime name =>
    some (.object ([("type", .string "document"), ("source", encode_source source mime)] ++ optional_str "title" name))
  | .audio source format => some (.object [("type", .string "document"), ("source", encode_source source format)])
  | .thinking text signature =>
    some (.object ([("type", .string "thinking"), ("thinking", .string text)] ++ optional_str "signature" signature))
  | .redactedThinking data => some (.object [("type", .string "redacted_thinking"), ("data", .string data)])
  | .toolUse id name input _ =>
    some (.object [("type", .string "tool_use"), ("id", .string id), ("name", .string name), ("input", input)])
  | .toolResult id _ content is_error =>
    some (.object ([("type", .string "tool_result"), ("tool_use_id", .string id),
      ("content", encode_tool_result_content content)] ++ if is_error then [("is_error", .bool true)] else []))
  | .refusal text => some (.object [("type", .string "text"), ("text", .string text)])
  | .opaqueBlock protocol value => if protocol = "messages" then some value else none

/-- The result of a tool is one text where it consists of texts. -/
def encode_tool_result_content (content : List ContentPart) : Value :=
  match content with
  | [] => .string ""
  | content =>
    if content.all fun part => part.as_text.isSome then .string (String.join (content.filterMap ContentPart.as_text))
    else .array (encode_blocks content)

/-- Writes the parts that have a block. -/
def encode_blocks (content : List ContentPart) : List Value :=
  match content with
  | [] => []
  | part :: content => (encode_block part).toList ++ encode_blocks content

end

/-- Writes a response. -/
def encode_response (ir : UnifiedResponse) : Value :=
  .object <| restore_extensions ir.extensions
    [("id", .string ir.id), ("type", .string "message"), ("role", .string "assistant"), ("model", .string ir.model),
      ("content", .array (encode_blocks ir.content)),
      ("stop_reason", (ir.stop_reason.map fun reason => .string (encode_stop_reason reason)).getD .null),
      ("stop_sequence", (ir.stop_sequence.map .string).getD .null),
      ("usage", encode_usage ir.usage)] []

end refract.codec.messages
