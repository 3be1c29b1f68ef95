import Refract.Core.Channel
import Refract.Stream.Utf8

open refract.core refract.json refract.stream

namespace refract.upstream

/-- A span of time, in nanoseconds. -/
abbrev Duration := Nat

def Duration.from_secs (secs : Nat) : Duration := 1000000000 * secs

/-- A call to an upstream, with everything decided. -/
structure UpstreamRequest where
  protocol : Protocol
  address : UpstreamAddress
  credential : Credential
  model : String
  action : Action
  body : Option Value := none
  /-- A body that is sent as it is. -/
  raw_body : Option Bytes := none
  raw_content_type : Option String := none
  extra_headers : List (String × String) := []
  proxy : Option String := none
  timeout : Option Duration := none

namespace UpstreamRequest

variable (protocol : Protocol) (address : UpstreamAddress) (credential : Credential) (model : String) (action : Action)

def post (body : Value) : UpstreamRequest where
  protocol := protocol
  address := address
  credential := credential
  model := model
  action := action
  body := some body

def post_raw (body : Bytes) : UpstreamRequest where
  protocol := protocol
  address := address
  credential := credential
  model := model
  action := action
  raw_body := some body

end UpstreamRequest

/-- The headers of an answer, by lower-case name. -/
abbrev HeaderMap := List (String × Bytes)

/-- The value of a header, when it is visible text. -/
def to_str (value : Bytes) : Option String :=
  if value.all fun b => b == 9 || (32 ≤ b && b < 127) then some (String.ofList (value.map fun b => Char.ofNat b.toNat))
  else none

/-- An answer of an upstream with its body as it came. -/
structure UpstreamRawResponse where
  status : Nat
  body : Bytes
  headers : HeaderMap
  first_byte_to_end : Duration

def UpstreamRawResponse.is_success (self : UpstreamRawResponse) : Prop := 200 ≤ self.status ∧ self.status < 300

/-- An answer of an upstream with its body read as JSON. -/
structure UpstreamResponse where
  status : Nat
  body : Value
  headers : HeaderMap
  first_byte_to_end : Duration

/-- Texts that library functions make, of which only the shape of messages
    depends. -/
structure Texts where
  /-- The reason why bytes are no JSON document. -/
  json_error : Bytes → String
  /-- Replaces what is not UTF-8. -/
  from_utf8_lossy : Bytes → String
  /-- A text in quotes. -/
  debug : String → String

/-- Reads a JSON document from bytes. -/
def from_slice (serde : Serde) (bytes : Bytes) : Option Value :=
  match from_utf8 bytes with
  | .ok text => serde.from_str text
  | .error _ => none

/-- The beginning of a body. -/
def snippet (texts : Texts) (body : Bytes) : String :=
  String.ofList ((trim (texts.from_utf8_lossy body)).toList.take 2048)

/-- Reads the body of an answer. An empty one counts as `null`. -/
def read_body (serde : Serde) (texts : Texts) (raw : UpstreamRawResponse) : Except GatewayError Value :=
  if raw.body = [] then .ok .null
  else
    match from_slice serde raw.body with
    | some value => .ok value
    | none =>
      .error ((GatewayError.new .upstreamError ("upstream returned malformed JSON: " ++ texts.json_error raw.body)).with_upstream
        raw.status (snippet texts raw.body))

/-- What a call that reads the answer comes to, from the answer itself. -/
def send (serde : Serde) (texts : Texts) (reply : Except GatewayError UpstreamRawResponse) :
    Except GatewayError UpstreamResponse := do
  let raw ← reply
  let body ← read_body serde texts raw
  return { status := raw.status, body, headers := raw.headers, first_byte_to_end := raw.first_byte_to_end }

end refract.upstream
