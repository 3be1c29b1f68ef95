import Refract.Codec.Reading
import Refract.Router.Request

open refract.core refract.json refract.ir refract.stream refract.upstream refract.codec

namespace refract.router

/-- The type of content that an answer declares. -/
def response_content_type (headers : HeaderMap) : String :=
  ((headers.lookup "content-type").bind to_str).getD "unknown"

def RESPONSE_PREVIEW_LIMIT : Nat := 160

def is_control (c : Char) : Bool := c.toNat < 32 || (127 ≤ c.toNat && c.toNat < 160)

/-- The beginning of a body, on one line. -/
def response_preview (texts : Texts) (body : Bytes) : String :=
  if body = [] then "<empty>"
  else
    let preview := (texts.from_utf8_lossy (body.take RESPONSE_PREVIEW_LIMIT)).toList.map fun c => if is_control c then ' ' else c
    String.ofList (if RESPONSE_PREVIEW_LIMIT < body.length then preview ++ ['…'] else preview)

/-- The error for an answer with status 200 that is none of the protocol. -/
def invalid_200_response (texts : Texts) (protocol : Protocol) (content_type : String) (body : Bytes) : GatewayError :=
  let preview := response_preview texts body
  ((GatewayError.new .invalidUpstreamResponse
    ("upstream returned HTTP 200 with a response that does not match the configured `" ++ protocol.as_str ++
      "` protocol (content-type: " ++ content_type ++ "; body preview: " ++ texts.debug preview ++ ")")).with_protocol
    protocol).with_upstream 200 preview

def invalid_parsed_200_response (serde : Serde) (texts : Texts) (protocol : Protocol) (response : UpstreamResponse) :
    GatewayError :=
  invalid_200_response texts protocol (response_content_type response.headers) (as_bytes (serde.to_string response.body))

def strict_200_parse_error (texts : Texts) (enabled : Bool) (protocol : Protocol) (error : GatewayError) : GatewayError :=
  if enabled ∧ error.upstream_status = some 200 then
    invalid_200_response texts protocol "unknown" (as_bytes (error.upstream_body.getD ""))
  else error

/-- Only what the model says counts as content. -/
def unified_response_is_empty (response : UnifiedResponse) : Bool :=
  response.content.all fun part =>
    match part with
    | .text s | .thinking s _ | .refusal s | .redactedThinking s => trim s = ""
    | _ => false

def should_retry_empty (policy : EmptyResponseRetryPolicy) (first_byte_to_end : Duration) (retries : Nat) : Bool :=
  policy.enabled && retries < policy.max_retries && first_byte_to_end ≤ Duration.from_secs policy.window_secs

/-- What is found out about an answer that is passed on as it is. -/
structure NativeResponseInspection where
  usage : Usage
  empty : Bool
  protocol_standard : Bool

/-- The answer says that it is an error. -/
def explicit_error (value : Value) : Bool :=
  ((value.get "error").any (!·.is_null)) || value.get_str "type" = some "error" ||
    value.get_str "type" = some "response.failed" || ((value.get "response").bind (·.get_str "status")) = some "failed"

/-- The answer has the field in which the protocol puts what the model says. -/
def recognizable_generation (protocol : Protocol) (value : Value) : Bool :=
  match protocol with
  | .chat => (value.get "choices").isSome
  | .responses => (value.get "output").isSome || ((value.get "response").bind (·.get "output")).isSome
  | .messages => (value.get "content").isSome
  | .gemini => (value.get "candidates").isSome

/-- What the surroundings contribute to the reading of an answer: the clock, a
    fresh identifier and how long the answer took. -/
structure Moment where
  uuid : String
  now : Int
  latency_ms : Nat

section Inspection

variable (serde : Serde) (texts : Texts) (moment : Moment) (protocol : Protocol)

/-- Looks at an answer before it is passed on as it is. A shape that nobody knows
    is let through. -/
def inspect_native_response (body : Bytes) (reject_nonstandard_200 : Bool) (status : Nat) (content_type : String) :
    Except GatewayError NativeResponseInspection :=
  if body = [] then .ok { usage := {}, empty := true, protocol_standard := false }
  else
    match from_slice serde body with
    | none =>
      .error (if reject_nonstandard_200 ∧ status = 200 then invalid_200_response texts protocol content_type body
        else .new .upstreamError ("upstream returned malformed JSON: " ++ texts.json_error body))
    | some value =>
      let decoded := decode_response serde moment.uuid moment.now protocol value
      if explicit_error value then
        match decoded with
        | .error error => .error error
        | .ok _ => .error (.new .upstreamError "upstream returned an error envelope with HTTP 2xx")
      else
        match decoded with
        | .ok response =>
          .ok
            { usage := response.usage
              empty := recognizable_generation protocol value && unified_response_is_empty response
              protocol_standard := recognizable_generation protocol value }
        | .error _ => .ok { usage := {}, empty := false, protocol_standard := false }

/-- What an attempt comes to. -/
inductive Verdict (α : Type) where
  /-- The answer is delivered. -/
  | accepted (payload : α)
  /-- The answer is empty, and the same call is made again. -/
  | retry_empty
  /-- The answer is refused, and nothing else is tried. -/
  | rejected (error : GatewayError)
  /-- The attempt failed. -/
  | failed (error : GatewayError)
  /-- The attempt brought nothing, which is held against nobody. -/
  | dropped (error : GatewayError)

/-- An answer, passed on as it is or read. -/
inductive RoutedResponse where
  | native (response : UpstreamRawResponse) (usage : Usage)
  | transcoded (response : UnifiedResponse)

/-- What becomes of an answer that has to be read. -/
def judge_transcoded (policy : EmptyResponseRetryPolicy) (empty_retries : Nat) (reply : Except GatewayError UpstreamRawResponse) :
    Verdict RoutedResponse :=
  match send serde texts reply with
  | .ok response =>
    if response.body.is_null ∧ should_retry_empty policy response.first_byte_to_end empty_retries then .retry_empty
    else if response.status = 200 ∧ response.body.is_null ∧ policy.reject_nonstandard_200 then
      .rejected (invalid_parsed_200_response serde texts protocol response)
    else
      match decode_response serde moment.uuid moment.now protocol response.body with
      | .ok payload =>
        if unified_response_is_empty payload ∧ should_retry_empty policy response.first_byte_to_end empty_retries then
          .retry_empty
        else .accepted (.transcoded payload)
      | .error error =>
        .failed (if response.status = 200 ∧ policy.reject_nonstandard_200 then
          invalid_parsed_200_response serde texts protocol response else error)
  | .error error => .failed (strict_200_parse_error texts policy.reject_nonstandard_200 protocol error)

/-- What becomes of an answer that is passed on as it is. -/
def judge_native (policy : EmptyResponseRetryPolicy) (empty_retries : Nat) (reply : Except GatewayError UpstreamRawResponse) :
    Verdict RoutedResponse :=
  match reply with
  | .ok response =>
    match inspect_native_response serde texts moment protocol response.body policy.reject_nonstandard_200 response.status
        (response_content_type response.headers) with
    | .error error => .failed error
    | .ok inspection =>
      if inspection.empty ∧ should_retry_empty policy response.first_byte_to_end empty_retries then .retry_empty
      else if policy.reject_nonstandard_200 ∧ response.status = 200 ∧ ¬ inspection.protocol_standard then
        .rejected (invalid_200_response texts protocol (response_content_type response.headers) response.body)
      else .accepted (.native response inspection.usage)
  | .error error => .failed error

end Inspection

end refract.router
