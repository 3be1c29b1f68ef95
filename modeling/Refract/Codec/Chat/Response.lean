import Refract.Codec.Counts
import Refract.Core.Error
import Refract.Ir.Content
import Refract.Json.Text

open refract.core refract.json refract.ir

namespace refract.codec.chat

def EXT : String := "chat."

/-- The fields of a response that the representation names. -/
def KNOWN_RESPONSE_FIELDS : List String :=
  ["id", "object", "created", "model", "choices", "usage", "dropped_thinking"]

/-- Keeps the fields that are not known under the protocol's own keys. -/
def collect_unknown (obj : Map) (known : List String) (ext : Extensions) : Extensions :=
  obj.foldl (fun ext (key, value) => if known.contains key then ext else ext.insert (EXT ++ key) value) ext

/-- A string member of an object that may be missing. -/
def str (value : Option Value) (key : String) : Option String := value.bind (·.get_str key)

/-- Reads one part of a content. A part of unknown type counts by its text. -/
def parse_content_part (raw : Value) : Option ContentPart :=
  match raw with
  | .string s => some (.text s)
  | .object obj =>
    let member key := (Map.get obj key)
    match (str (some raw) "type").getD "" with
    | "text" | "input_text" | "output_text" => some (.text ((str (some raw) "text").getD ""))
    | "refusal" => some (.refusal ((str (some raw) "refusal").getD ""))
    | "image_url" =>
      let url := match member "image_url" with
        | some (.string s) => s
        | img => (str img "url").getD ""
      let (source, mime) := MediaSource.parse_data_uri url
      some (.image source mime (str (member "image_url") "detail"))
    | "input_audio" => (member "input_audio").map fun audio =>
      let source := match (MediaSource.parse_data_uri ((str (some audio) "data").getD "")).1 with
        | .url u => if u.startsWith "http" then .url u else .base64 u
        | other => other
      .audio source (str (some audio) "format")
    | "file" => (member "file").map fun file =>
      match str (some file) "file_id" with
      | some id => .file (.fileId id) none (str (some file) "filename")
      | none =>
        let (source, mime) := MediaSource.parse_data_uri ((str (some file) "file_data").getD "")
        .file source mime (str (some file) "filename")
    | _ => (str (some raw) "text").map .text
  | _ => none

/-- A content is a text, a list of parts, or missing. -/
def parse_content (value : Option Value) : List ContentPart :=
  match value with
  | some (.string s) => if s = "" then [] else [.text s]
  | some (.array items) => items.filterMap parse_content_part
  | _ => []

/-- Arguments that are no JSON stay the text they are. -/
def parse_arguments (serde : Serde) (arguments : Option Value) : Value :=
  match arguments with
  | some (.string s) => if trim s = "" then .object [] else (serde.from_str s).getD (.string s)
  | some other => other
  | none => .object []

def parse_tool_call (serde : Serde) (call : Value) : ContentPart :=
  let function := call.get "function"
  .toolUse ((str (some call) "id").getD "") ((str function "name").getD "")
    (parse_arguments serde (function.bind (·.get "arguments"))) none

def parse_tool_calls (serde : Serde) (calls : List Value) : List ContentPart := calls.map (parse_tool_call serde)

def dropped_part (item : Value) : ContentPart :=
  match str (some item) "redacted" with
  | some data => .redactedThinking data
  | none => .thinking ((str (some item) "text").getD "") (str (some item) "signature")

/-- Puts the thinking that the message has no place for back where it was. -/
def restore_dropped_parts (items : List Value) (out : List ContentPart) : List ContentPart :=
  items.foldl (fun out item =>
    let pos := min (((item.get "position").bind Value.as_u64).getD 0).val out.length
    out.insertIdx pos (dropped_part item)) out

def error_kind (kind code : String) : ErrorKind :=
  match kind, code with
  | "invalid_request_error", "context_length_exceeded" => .payloadTooLarge
  | "invalid_request_error", _ => .invalidRequest
  | "authentication_error", _ => .unauthenticated
  | "permission_error", _ | "insufficient_quota", _ => .permissionDenied
  | "not_found_error", _ => .notFound
  | "rate_limit_error", _ | _, "rate_limit_exceeded" => .rateLimited
  | _, "model_not_found" => .notFound
  | _, _ => .upstreamError

/-- The error of an error body, with the parameter it names. -/
def error_from_body (err : Value) : GatewayError :=
  let message := (err.get_str "message").getD "upstream returned an error"
  let message := match err.get_str "param" with
    | some param => message ++ " (param: " ++ param ++ ")"
    | none => message
  (GatewayError.new (error_kind ((err.get_str "type").getD "") ((err.get_str "code").getD "")) message).with_protocol .chat

/-- The parts of the first choice. -/
def choice_content (serde : Serde) (message : Option Value) (dropped : Option (List Value)) : List ContentPart :=
  let reasoning := match dropped with
    | some _ => []
    | none => (((str message "reasoning_content").filter (· ≠ "")).map
        (ContentPart.thinking · (str message "reasoning_signature"))).toList
  let refusal := (((str message "refusal").filter (· ≠ "")).map ContentPart.refusal).toList
  let calls := ((message.bind (·.get "tool_calls")).bind Value.as_array).getD []
  restore_dropped_parts (dropped.getD [])
    (reasoning ++ parse_content (message.bind (·.get "content")) ++ refusal ++ parse_tool_calls serde calls)

/-- Reads a response. An error the upstream reports comes first. -/
def decode_response (serde : Serde) (now : Int) (raw : Value) : Except GatewayError UnifiedResponse :=
  match (raw.get "error").filter (!·.is_null) with
  | some err => .error (error_from_body err)
  | none =>
    match raw with
    | .object obj =>
      let choice := (((Map.get obj "choices").bind Value.as_array).getD []).head?
      .ok
        { id := (str (some raw) "id").getD ""
          model := (str (some raw) "model").getD ""
          created := ((Map.get obj "created").bind Value.as_i64).getD now
          content := (choice.map fun choice =>
            choice_content serde (choice.get "message") ((Map.get obj "dropped_thinking").bind Value.as_array)).getD []
          stop_reason := (str choice "finish_reason").map finish_reason_to_ir
          usage := (((Map.get obj "usage").filter Value.is_object).map parse_usage).getD {}
          extensions := collect_unknown obj KNOWN_RESPONSE_FIELDS [] }
    | _ => .error (.invalid_request "response body must be a JSON object")

end refract.codec.chat
