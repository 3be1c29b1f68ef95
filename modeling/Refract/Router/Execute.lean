import Refract.Json.RoundTrip
import Refract.Router.Executor

open refract.core refract.json refract.ir refract.stream refract.upstream

namespace refract.router

/-- What an executor is made of. -/
structure RouteExecutor (Request : Type) where
  serde : Serde
  texts : Texts
  codec : RequestCodec Request
  config : RouterConfig

/-- An event of a stream, as the client of the upstreams reads it. -/
structure SseEvent where
  event : String
  data : String
  deriving DecidableEq, Repr

/-- What was read of a stream before it is handed on. -/
inductive Buffered where
  | events (items : List SseEvent)
  | chunks (items : List Bytes)

def Buffered.is_empty : Buffered → Bool
  | .events items => items.isEmpty
  | .chunks items => items.isEmpty

/-- A stream whose beginning was inspected. -/
structure OpenedStream where
  status : Nat
  headers : HeaderMap
  buffered : Buffered
  /-- How long the stream took, when it ended without any output. -/
  empty_duration : Option Duration

inductive RoutedStream where
  | native (stream : OpenedStream)
  | transcoded (stream : OpenedStream)

namespace RouteExecutor

variable {Request : Type} (self : RouteExecutor Request) (route : Route) (first_index : route.Place → Nat)

/-- The policy for empty answers that applies to a candidate. -/
def empty_response_retry_for (candidate : Candidate) : EmptyResponseRetryPolicy :=
  candidate.channel.empty_response_retry.resolve self.config.empty_response_retry

section Unary

/-- The answers to calls that are not streamed. -/
abbrev Reply := Except GatewayError UpstreamRawResponse

/-- Executes a request that is already read. -/
def execute_normalized (ir : Request) : Loop route Reply RoutedResponse where
  first_index := first_index
  counts_first := false
  prepare idx _ :=
    let candidate := route.candidate idx
    match encode_for self.codec candidate ir with
    | .error error => .skipped error
    | .ok body =>
      .ready fun credential =>
        { UpstreamRequest.post candidate.protocol candidate.address credential candidate.upstream_model .generate body with
          extra_headers := merged_headers [] candidate
          proxy := candidate.proxy
          timeout := timeout_for candidate }
  judge idx moment empty_retries reply :=
    let candidate := route.candidate idx
    judge_transcoded self.serde self.texts moment candidate.protocol (self.empty_response_retry_for candidate) empty_retries reply
  records_success := true

/-- Executes the body of a client: read and written again for an upstream of
    another protocol, and nearly as it is for one of the same. -/
def execute_raw (protocol : Protocol) (raw_body : Bytes) (model : String) (stream : Bool) (headers : List (String × String)) :
    Loop route Reply RoutedResponse where
  first_index := first_index
  counts_first := true
  prepare idx attempts :=
    let candidate := route.candidate idx
    if candidate.needs_transcode route.inbound then
      match decode_raw_request self.codec self.serde self.texts protocol raw_body model stream with
      | .error error => .skipped error
      | .ok ir =>
        match encode_for self.codec candidate ir with
        | .error error => .skipped (annotate_candidate_error error candidate attempts)
        | .ok body =>
          .ready fun credential =>
            { UpstreamRequest.post candidate.protocol candidate.address credential candidate.upstream_model .generate body with
              proxy := candidate.proxy
              timeout := timeout_for candidate }
    else
      match prepare_native_body self.serde self.texts candidate route raw_body with
      | .error error => .aborted error
      | .ok prepared =>
        .ready fun credential =>
          { prepared.to_request candidate credential .generate with
            extra_headers := merged_headers headers candidate
            proxy := candidate.proxy
            timeout := timeout_for candidate }
  judge idx moment empty_retries reply :=
    let candidate := route.candidate idx
    let policy := self.empty_response_retry_for candidate
    if candidate.needs_transcode route.inbound then
      judge_transcoded self.serde self.texts moment candidate.protocol policy empty_retries reply
    else judge_native self.serde self.texts moment candidate.protocol policy empty_retries reply
  records_success := true

def execute : InboundPayload Request → Loop route Reply RoutedResponse
  | .normalized ir => self.execute_normalized route first_index ir
  | .raw protocol body model stream headers => self.execute_raw route first_index protocol body model stream headers

end Unary

section Stream

/-- The answers to calls that are streamed: a stream whose beginning was
    inspected, or what is wrong with it. -/
abbrev StreamReply := Except GatewayError OpenedStream

/-- What becomes of an inspected stream. -/
def judge_stream (policy : EmptyResponseRetryPolicy) (empty_retries : Nat) (deliver : OpenedStream → Verdict RoutedStream) :
    StreamReply → Verdict RoutedStream
  | .error error => .failed error
  | .ok opened =>
    if opened.empty_duration.any (should_retry_empty policy · empty_retries) then .retry_empty else deliver opened

def execute_stream_normalized (ir : Request) : Loop route StreamReply RoutedStream where
  first_index := first_index
  counts_first := false
  prepare idx _ :=
    let candidate := route.candidate idx
    match encode_for self.codec candidate ir with
    | .error error => .skipped error
    | .ok body =>
      .ready fun credential =>
        { UpstreamRequest.post candidate.protocol candidate.address credential candidate.upstream_model .stream body with
          extra_headers := merged_headers [] candidate
          proxy := candidate.proxy }
  judge idx _ empty_retries reply :=
    judge_stream (self.empty_response_retry_for (route.candidate idx)) empty_retries
      (fun opened =>
        if opened.buffered.is_empty then .dropped (.new .upstreamError "upstream stream preflight returned no events")
        else .accepted (.transcoded opened))
      reply
  -- The end of the stream is what counts.
  records_success := false

def execute_stream_raw (protocol : Protocol) (raw_body : Bytes) (model : String) (stream : Bool)
    (headers : List (String × String)) : Loop route StreamReply RoutedStream where
  first_index := first_index
  counts_first := true
  prepare idx attempts :=
    let candidate := route.candidate idx
    if candidate.needs_transcode route.inbound then
      match decode_raw_request self.codec self.serde self.texts protocol raw_body model stream with
      | .error error => .skipped error
      | .ok ir =>
        match encode_for self.codec candidate ir with
        | .error error => .skipped (annotate_candidate_error error candidate attempts)
        | .ok body =>
          .ready fun credential =>
            { UpstreamRequest.post candidate.protocol candidate.address credential candidate.upstream_model .stream body with
              proxy := candidate.proxy }
    else
      match prepare_native_body self.serde self.texts candidate route raw_body with
      | .error error => .aborted error
      | .ok prepared =>
        .ready fun credential =>
          { prepared.to_request candidate credential .stream with
            extra_headers := merged_headers headers candidate
            proxy := candidate.proxy }
  judge idx _ empty_retries reply :=
    let candidate := route.candidate idx
    judge_stream (self.empty_response_retry_for candidate) empty_retries
      (fun opened =>
        if candidate.needs_transcode route.inbound then .accepted (.transcoded opened) else .accepted (.native opened))
      reply
  records_success := false

def execute_stream : InboundPayload Request → Loop route StreamReply RoutedStream
  | .normalized ir => self.execute_stream_normalized route first_index ir
  | .raw protocol body model stream headers => self.execute_stream_raw route first_index protocol body model stream headers

end Stream

/-- An executor whose requests are documents. -/
def plain : RouteExecutor Value where
  serde := .compact
  texts := ⟨fun _ => "", fun _ => "", fun s => s⟩
  codec := ⟨fun _ => .ok, fun _ => .ok, fun ir _ _ => ir⟩
  config := {}

end RouteExecutor

end refract.router

open refract.core refract.json refract.stream refract.upstream

namespace refract.router

/-- Where some bytes stand first in a body. -/
def position (needle : Bytes) : Bytes → Option Nat
  | [] => none
  | b :: rest => if needle.isPrefixOf (b :: rest) then some 0 else (position needle rest).map (· + 1)

/-- Puts the upstream's model name into a form, if the form names a model. The
    value stands between an empty line and the end of its line. -/
def rewrite_multipart_model (raw : Bytes) (upstream_model : String) : Option Bytes := do
  let marker_at ← position (as_bytes "name=\"model\"") raw
  let value_start_rel ← position (as_bytes "\r\n\r\n") (raw.drop marker_at)
  let value_start := marker_at + (value_start_rel + 4)
  let value_len ← position (as_bytes "\r\n") (raw.drop value_start)
  return raw.take value_start ++ as_bytes upstream_model ++ raw.drop (value_start + value_len)

/-- The form for an upstream: the bytes as they are, unless the model changes. -/
def prepare_multipart_body (candidate : Candidate) (route : Route) (raw_body : Bytes) : PreparedBody :=
  if candidate.upstream_model = route.model then .raw raw_body
  else .raw ((rewrite_multipart_model raw_body candidate.upstream_model).getD raw_body)

namespace RouteExecutor

variable {Request : Type} (self : RouteExecutor Request) (route : Route) (first_index : route.Place → Nat)

/-- Executes a call that is not read at all. Only candidates that speak the
    client's protocol are looked at. -/
def execute_passthrough (action : Action) (raw_body : Bytes) (headers : List (String × String)) (content_type : Option String) :
    Loop route Reply UpstreamRawResponse where
  first_index := first_index
  counts_first := true
  prepare idx _ :=
    let candidate := route.candidate idx
    let prepared :=
      if content_type.any (·.startsWith "multipart/") then .ok (prepare_multipart_body candidate route raw_body)
      else prepare_native_body self.serde self.texts candidate route raw_body
    match prepared with
    | .error error => .aborted error
    | .ok prepared =>
      .ready fun credential =>
        { prepared.to_request candidate credential action with
          raw_content_type := content_type
          extra_headers := merged_headers headers candidate
          proxy := candidate.proxy
          timeout := timeout_for candidate }
  judge _ _ _ reply :=
    match reply with
    | .ok response => .accepted response
    | .error error => .failed error
  records_success := true

end RouteExecutor

/-- The candidate speaks the client's protocol. -/
def Route.is_native (route : Route) (idx : route.Place) : Bool := (route.candidate idx).protocol = route.inbound

end refract.router
