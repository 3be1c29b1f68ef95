import Refract.Codec.Counts
import Refract.Core.Error
import Refract.Json.Text

open refract.core refract.json refract.ir

namespace refract.codec.gemini

/-- The identifier of a call, made up from its name and position if it has none. -/
def fallback_call_id (id : Option Value) (name : String) (index : Nat) : String :=
  (non_empty_str id).getD (name ++ "#" ++ toString index)

/-- An identifier of the made-up form, or the bare name. -/
def is_synthetic_call_id (id name : String) : Bool :=
  if id = name then true
  else if (name ++ "#").toList.isPrefixOf id.toList then
    let digits := id.toList.drop (name ++ "#").length
    !digits.isEmpty && digits.all Char.isDigit
  else false

/-- Sorts a medium by the prefix of its type. -/
def media_part (source : MediaSource) (mime : Option String) : ContentPart :=
  let kind := mime.getD ""
  if kind.startsWith "image/" then .image source mime none
  else if kind.startsWith "audio/" then .audio source (kind.splitOn "/")[1]?
  else .file source mime none

/-- Reads one part; a part that is not recognized is kept as it is. -/
def decode_part (serde : Serde) (part : Value) (tool_index : Nat) : Option ContentPart :=
  match part with
  | .object obj =>
    match (Map.get obj "text").bind Value.as_str with
    | some text =>
      if ((Map.get obj "thought").bind Value.as_bool).getD false then
        some (.thinking text (non_empty_str (field obj "thoughtSignature" "thought_signature")))
      else some (.text text)
    | none =>
    match (field obj "inlineData" "inline_data").bind Value.as_object with
    | some inline =>
      let mime := non_empty_str (field inline "mimeType" "mime_type")
      some (media_part (.base64 (((Map.get inline "data").bind Value.as_str).getD "")) mime)
    | none =>
    match (field obj "fileData" "file_data").bind Value.as_object with
    | some file =>
      let mime := non_empty_str (field file "mimeType" "mime_type")
      some (media_part (.fileId (((field file "fileUri" "file_uri").bind Value.as_str).getD "")) mime)
    | none =>
    match (field obj "functionCall" "function_call").bind Value.as_object with
    | some call =>
      let name := ((Map.get call "name").bind Value.as_str).getD ""
      some (.toolUse (fallback_call_id (Map.get call "id") name tool_index) name
        ((Map.get call "args").getD (.object [])) (non_empty_str (field obj "thoughtSignature" "thought_signature")))
    | none =>
    match (field obj "functionResponse" "function_response").bind Value.as_object with
    | some resp =>
      let name := ((Map.get resp "name").bind Value.as_str).getD ""
      let payload := (Map.get resp "response").getD (.object [])
      let text := (payload.as_str).getD (serde.to_string payload)
      let is_error := (payload.as_object).any (Map.contains_key · "error")
      some (.toolResult (fallback_call_id (Map.get resp "id") name tool_index)
        (if name = "" then none else some name) [.text text] is_error)
    | none => some (.opaqueBlock "gemini" part)
  | _ => none

def error_kind (status : String) (code : Option U64) : ErrorKind :=
  match status with
  | "INVALID_ARGUMENT" | "FAILED_PRECONDITION" | "OUT_OF_RANGE" => .invalidRequest
  | "UNAUTHENTICATED" => .unauthenticated
  | "PERMISSION_DENIED" => .permissionDenied
  | "NOT_FOUND" => .notFound
  | "RESOURCE_EXHAUSTED" => .rateLimited
  | "UNAVAILABLE" => .noAvailableChannel
  | "DEADLINE_EXCEEDED" => .timeout
  | _ =>
    match code.map Fin.val with
    | some 400 => .invalidRequest
    | some 401 => .unauthenticated
    | some 403 => .permissionDenied
    | some 404 => .notFound
    | some 429 => .rateLimited
    | some 503 => .noAvailableChannel
    | some 504 => .timeout
    | _ => .upstreamError

/-- Reads an error body; a document without an error object is none. -/
def parse_error_body (serde : Serde) (raw : Value) : Option GatewayError :=
  match (raw.get "error").bind Value.as_object with
  | none => none
  | some err =>
    let message := ((Map.get err "message").bind Value.as_str).getD "upstream returned an error without a message"
    let status := ((Map.get err "status").bind Value.as_str).getD ""
    let code := (Map.get err "code").bind Value.as_u64
    let error := (GatewayError.new (error_kind status code) message).with_protocol .gemini
    match code with
    | some code => some (error.with_upstream (if code.val < 65536 then code.val else 502) (serde.to_string raw))
    | none => some error

def first_candidate (obj : Map) : Option Map :=
  (((Map.get obj "candidates").bind Value.as_array).bind List.head?).bind Value.as_object

end refract.codec.gemini
