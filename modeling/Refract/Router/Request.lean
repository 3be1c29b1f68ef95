import Refract.Router.Plan
import Refract.Upstream.Client

open refract.core refract.json refract.stream refract.upstream

namespace refract.router

/-- How the requests of the protocols are read and written. -/
structure RequestCodec (Request : Type) where
  decode_request : Protocol → Value → Except GatewayError Request
  encode_request : Protocol → Request → Except GatewayError Value
  /-- Puts the model and the way of answering into a request. -/
  address : Request → String → Bool → Request

/-- What is to be executed: a request that is already read, or the body of a
    client with the headers that may be passed on. -/
inductive InboundPayload (Request : Type) where
  | normalized (ir : Request)
  | raw (protocol : Protocol) (body : Bytes) (model : String) (stream : Bool) (headers : List (String × String))

/-- Puts the upstream's model name into a body. Gemini has it in the address. -/
def rewrite_model (body : Value) (protocol : Protocol) (upstream_model : String) : Value :=
  if protocol = .gemini then body
  else
    match body with
    | .object map => .object (Map.insert map "model" (.string upstream_model))
    | _ => body

/-- Merges fields into a body. A `null` removes the field. -/
def merge_fields (map fields : Map) : Map :=
  fields.foldl (fun map field => if field.2.is_null then map.swap_remove field.1 else map.insert field.1 field.2) map

/-- Applies the overrides of a channel. Those of the protocol win. -/
def apply_param_override (body : Value) (param_override : Option ParamOverride) (protocol : Protocol) : Value :=
  match param_override, body with
  | some overrides, .object map =>
    let map := merge_fields map overrides.common
    match overrides.protocols protocol with
    | some group => .object (merge_fields map group)
    | none => .object map
  | _, _ => body

def param_override_touches (param_override : Option ParamOverride) (protocol : Protocol) : Bool :=
  param_override.any fun overrides =>
    !overrides.common.isEmpty || (overrides.protocols protocol).any (!·.isEmpty)

def malformed_request (texts : Texts) (raw_body : Bytes) : GatewayError :=
  .invalid_request ("malformed request body: " ++ texts.json_error raw_body)

inductive PreparedBody where
  | raw (body : Bytes)
  | json (body : Value)

/-- The body for an upstream of the client's own protocol: the bytes as they
    are, unless the model or an override changes them. -/
def prepare_native_body (serde : Serde) (texts : Texts) (candidate : Candidate) (route : Route) (raw_body : Bytes) :
    Except GatewayError PreparedBody :=
  let rewrites_model := candidate.protocol ≠ .gemini ∧ candidate.upstream_model ≠ route.model
  if ¬ rewrites_model ∧ ¬ param_override_touches candidate.channel.param_override candidate.protocol then
    .ok (.raw raw_body)
  else
    match from_slice serde raw_body with
    | none => .error (malformed_request texts raw_body)
    | some body =>
      let body := if rewrites_model then rewrite_model body candidate.protocol candidate.upstream_model else body
      .ok (.json (apply_param_override body candidate.channel.param_override candidate.protocol))

def PreparedBody.to_request (self : PreparedBody) (candidate : Candidate) (credential : Credential) (action : Action) :
    UpstreamRequest :=
  match self with
  | .raw body => .post_raw candidate.protocol candidate.address credential candidate.upstream_model action body
  | .json body => .post candidate.protocol candidate.address credential candidate.upstream_model action body

/-- The headers of a call. Those of the channel come last and win. -/
def merged_headers (forwarded : List (String × String)) (candidate : Candidate) : List (String × String) :=
  forwarded ++ candidate.channel.extra_headers

/-- The time limit of a channel, if it has one. -/
def timeout_for (candidate : Candidate) : Option Duration :=
  match candidate.channel.timeout_secs with
  | 0 => none
  | secs => some (Duration.from_secs secs)

section Codec

variable {Request : Type} (codec : RequestCodec Request)

/-- The body of a request for a candidate. -/
def encode_for (candidate : Candidate) (ir : Request) : Except GatewayError Value := do
  let body ← codec.encode_request candidate.protocol ir
  return apply_param_override (rewrite_model body candidate.protocol candidate.upstream_model)
    candidate.channel.param_override candidate.protocol

def decode_raw_request (serde : Serde) (texts : Texts) (protocol : Protocol) (raw_body : Bytes) (model : String)
    (stream : Bool) : Except GatewayError Request :=
  match from_slice serde raw_body with
  | none => .error (malformed_request texts raw_body)
  | some value => do
    let ir ← codec.decode_request protocol value
    return codec.address ir model stream

end Codec

end refract.router
