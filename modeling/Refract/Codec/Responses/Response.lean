import Refract.Codec.Counts
import Refract.Core.Error
import Refract.Ir.Content
import Refract.Json.Text

open refract.core refract.json refract.ir

namespace refract.codec.responses

/-- Reads one part of a message. A part of unknown type is left out. -/
def decode_content_part (part : Value) : Option ContentPart :=
  match part with
  | .object obj =>
    match (part.get_str "type").getD "" with
    | "input_text" | "output_text" | "text" | "summary_text" => some (.text ((part.get_str "text").getD ""))
    | "input_image" | "image" =>
      let detail := (part.get_str "detail").filter (· ≠ "auto")
      match part.get_str "file_id" with
      | some id => some (.image (.fileId id) none detail)
      | none => (part.get_str "image_url").map fun url =>
        let (source, mime) := MediaSource.parse_data_uri url
        .image source mime detail
    | "input_file" | "file" =>
      let name := part.get_str "filename"
      match part.get_str "file_data", part.get_str "file_id" with
      | some data, _ =>
        let (source, mime) := MediaSource.parse_data_uri data
        some (.file source mime name)
      | none, some id => some (.file (.fileId id) none name)
      | none, none => (part.get_str "file_url").map fun url => .file (.url url) none name
    | "input_audio" | "audio" =>
      let inner := (Map.get obj "input_audio").getD part
      (inner.get_str "data").map fun data =>
        .audio (MediaSource.parse_data_uri data).1 (inner.get_str "format")
    | "refusal" => some (.refusal ((part.get_str "refusal").getD ""))
    | _ => none
  | _ => none

/-- What the content of a message consists of. -/
def is_content : ContentPart → Bool
  | .text _ | .image _ _ _ | .audio _ _ | .file _ _ _ | .refusal _ => true
  | _ => false

theorem is_content_of_decode {part : Value} {read : ContentPart} (h : decode_content_part part = some read) :
    is_content read = true := by
  unfold decode_content_part at h
  split at h
  · split at h
    iterate 4
      · obtain rfl := Option.some.inj h
        rfl
    iterate 2
      · dsimp only at h
        split at h
        · obtain rfl := Option.some.inj h
          rfl
        · obtain ⟨url, -, rfl⟩ := Option.map_eq_some_iff.mp h
          rfl
    iterate 2
      · dsimp only at h
        split at h
        · obtain rfl := Option.some.inj h
          rfl
        · obtain rfl := Option.some.inj h
          rfl
        · obtain ⟨url, -, rfl⟩ := Option.map_eq_some_iff.mp h
          rfl
    iterate 2
      · obtain ⟨data, -, rfl⟩ := Option.map_eq_some_iff.mp h
        rfl
    · obtain rfl := Option.some.inj h
      rfl
    · cases h
  · cases h

/-- Arguments that are no JSON stay the text they are. -/
def parse_arguments (serde : Serde) (value : Option Value) : Value :=
  match value with
  | some (.string s) => if trim s = "" then .object [] else (serde.from_str s).getD (.string s)
  | some .null | none => .object []
  | some other => other

/-- The texts of a reasoning item, one line each. -/
def reasoning_text (entries : List Value) (text : String) : String :=
  entries.foldl (fun text entry =>
    match entry.get_str "text" with
    | some s => (if text = "" then text else text ++ "\n") ++ s
    | none => text) text

/-- Reads one output item. An item of unknown type is kept as it is. -/
def decode_output_item (serde : Serde) (item : Value) : List ContentPart :=
  match item with
  | .object obj =>
    let entries key := (((Map.get obj key).bind Value.as_array).getD [])
    match (item.get_str "type").getD "" with
    | "message" => (entries "content").filterMap decode_content_part
    | "function_call" =>
      [.toolUse ((((Map.get obj "call_id").or (Map.get obj "id")).bind Value.as_str).getD "")
        ((item.get_str "name").getD "") (parse_arguments serde (Map.get obj "arguments")) none]
    | "reasoning" =>
      [.thinking (reasoning_text (entries "content") (reasoning_text (entries "summary") ""))
        (item.get_str "encrypted_content")]
    | _ => [.opaqueBlock "responses" item]
  | _ => []

def decode_output_items (serde : Serde) (items : List Value) : List ContentPart :=
  items.flatMap (decode_output_item serde)

def error_kind (kind : String) : ErrorKind :=
  match kind with
  | "invalid_request_error" | "invalid_prompt" => .invalidRequest
  | "authentication_error" => .unauthenticated
  | "not_found_error" | "model_not_found" => .notFound
  | "rate_limit_exceeded" | "rate_limit_error" => .rateLimited
  | _ => .upstreamError

/-- The error of an error body, which is kept with it. -/
def decode_error_body (serde : Serde) (err : Value) : GatewayError :=
  let kind := ((err.get_str "type").or (err.get_str "code")).getD ""
  { kind := error_kind kind
    message := (err.get_str "message").getD "upstream returned an error without a message"
    protocol := some .responses
    upstream_body := some (serde.to_string err) }

/-- The extensions of a response: what identifies its conversation. -/
def stateful_fields (obj : Map) : Extensions :=
  ["previous_response_id", "store", "conversation"].foldl (fun ext key =>
    match (Map.get obj key).filter (!·.is_null) with
    | some value => ext.insert ("responses." ++ key) value
    | none => ext) []

/-- Reads a response, which may be wrapped in another object. An error the
    upstream reports comes first. -/
def decode_response (serde : Serde) (now : Int) (raw : Value) : Except GatewayError UnifiedResponse :=
  match raw with
  | .object obj =>
    match (Map.get obj "error").filter (!·.is_null) with
    | some err => .error (decode_error_body serde err)
    | none =>
    match h : (Map.get obj "response").bind Value.as_object with
    | some inner => decode_response serde now (.object inner)
    | none =>
      let content := decode_output_items serde (((Map.get obj "output").bind Value.as_array).getD [])
      .ok
        { id := (raw.get_str "id").getD ""
          model := (raw.get_str "model").getD ""
          created := ((Map.get obj "created_at").bind Value.as_i64).getD now
          content := content
          stop_reason := some (map_status ((raw.get_str "status").getD "completed")
            ((Map.get obj "incomplete_details").bind (·.get_str "reason")) (content.any ContentPart.is_tool_use)
            (content.any ContentPart.is_refusal))
          usage := ((Map.get obj "usage").map decode_usage).getD {}
          extensions := stateful_fields obj }
  | _ => .error (.invalid_request "response body must be a JSON object")
termination_by sizeOf raw
decreasing_by exact Map.sizeOf_inner_lt obj "response" h

end refract.codec.responses
