namespace refract.core

/-- The wire protocols of the gateway. -/
inductive Protocol where
  | chat
  | responses
  | messages
  | gemini
  deriving DecidableEq, Repr

def Protocol.as_str : Protocol → String
  | .chat => "chat"
  | .responses => "responses"
  | .messages => "messages"
  | .gemini => "gemini"

inductive ErrorKind where
  | invalidRequest
  | unauthenticated
  | permissionDenied
  | notFound
  | payloadTooLarge
  | rateLimited
  | upstreamError
  | invalidUpstreamResponse
  | noAvailableChannel
  | timeout
  | transcodeNotPermitted
  | transcodeFailed
  | configuration
  | internal
  deriving DecidableEq, Repr

namespace ErrorKind

/-- The error type in the manner of OpenAI. -/
def openai_type : ErrorKind → String
  | .invalidRequest | .transcodeNotPermitted | .payloadTooLarge | .notFound => "invalid_request_error"
  | .unauthenticated => "authentication_error"
  | .permissionDenied => "permission_error"
  | .rateLimited => "rate_limit_error"
  | .upstreamError | .noAvailableChannel => "api_error"
  | .timeout => "timeout_error"
  | .transcodeFailed | .configuration | .internal | .invalidUpstreamResponse => "internal_server_error"

/-- The HTTP status code. -/
def status : ErrorKind → Nat
  | .invalidRequest | .transcodeNotPermitted => 400
  | .unauthenticated => 401
  | .permissionDenied => 403
  | .notFound => 404
  | .payloadTooLarge => 413
  | .rateLimited => 429
  | .internal | .transcodeFailed | .configuration | .invalidUpstreamResponse => 500
  | .upstreamError => 502
  | .noAvailableChannel => 503
  | .timeout => 504

/-- Another channel may do better: the fault is not in the request. -/
def is_retryable : ErrorKind → Bool
  | .rateLimited | .upstreamError | .timeout | .unauthenticated | .permissionDenied => true
  | _ => false

/-- The fault is in one key of the channel. -/
def is_key_failure : ErrorKind → Bool
  | .unauthenticated | .permissionDenied | .rateLimited => true
  | _ => false

theorem is_retryable_of_is_key_failure {kind : ErrorKind} (h : kind.is_key_failure = true) : kind.is_retryable = true := by
  cases kind <;> first | rfl | cases h

/-- No error is answered with success. -/
theorem le_status (kind : ErrorKind) : 400 ≤ kind.status := by
  cases kind <;> decide

/-- The name of the variant. -/
def debug : ErrorKind → String
  | .invalidRequest => "InvalidRequest"
  | .unauthenticated => "Unauthenticated"
  | .permissionDenied => "PermissionDenied"
  | .notFound => "NotFound"
  | .payloadTooLarge => "PayloadTooLarge"
  | .rateLimited => "RateLimited"
  | .upstreamError => "UpstreamError"
  | .invalidUpstreamResponse => "InvalidUpstreamResponse"
  | .noAvailableChannel => "NoAvailableChannel"
  | .timeout => "Timeout"
  | .transcodeNotPermitted => "TranscodeNotPermitted"
  | .transcodeFailed => "TranscodeFailed"
  | .configuration => "Configuration"
  | .internal => "Internal"

end ErrorKind

/-- A gateway error, with what an upstream answer contributes to it. -/
structure GatewayError where
  kind : ErrorKind
  message : String
  protocol : Option Protocol := none
  channel_id : Option Int := none
  channel_name : Option String := none
  /-- The attempts made so far. -/
  attempts : Nat := 0
  upstream_model : Option String := none
  upstream_body : Option String := none
  upstream_status : Option Nat := none
  /-- Seconds that the upstream asked to wait. -/
  retry_after : Option Nat := none
  /-- The masked key of the last attempt. -/
  credential_hint : Option String := none
  deriving DecidableEq, Repr

namespace GatewayError

def new (kind : ErrorKind) (message : String) : GatewayError := { kind, message }

/-- The error as it is shown. -/
def to_string (self : GatewayError) : String := self.kind.debug ++ ": " ++ self.message

def invalid_request (message : String) : GatewayError := new .invalidRequest message

def budget_exhausted : GatewayError := new .noAvailableChannel "upstream call budget exhausted"

def is_retryable (self : GatewayError) : Bool := self.kind.is_retryable

def with_protocol (self : GatewayError) (protocol : Protocol) : GatewayError :=
  { self with protocol := some protocol }

def with_channel (self : GatewayError) (id : Int) : GatewayError := { self with channel_id := some id }

def with_upstream (self : GatewayError) (status : Nat) (body : String) : GatewayError :=
  { self with upstream_status := some status, upstream_body := some body }

end GatewayError

end refract.core
