import Refract.Router.Keys
import Refract.Router.Response

open refract.core refract.json refract.ir refract.stream refract.upstream

namespace refract.router

/-- Completes an error with the candidate at which it happened. -/
def annotate_candidate_error (error : GatewayError) (candidate : Candidate) (attempts : Nat) : GatewayError :=
  { error with
    channel_id := error.channel_id.or (some candidate.channel_id)
    protocol := error.protocol.or (some candidate.protocol)
    channel_name := error.channel_name.or (some candidate.channel.name)
    upstream_model := error.upstream_model.or (some candidate.upstream_model)
    attempts := attempts }

/-- The errors that count against an endpoint. -/
def affects_endpoint_health : ErrorKind → Bool
  | .unauthenticated | .permissionDenied | .rateLimited | .upstreamError | .invalidUpstreamResponse | .timeout
  | .configuration | .notFound => true
  | _ => false

theorem affects_endpoint_health_of_is_retryable {kind : ErrorKind} (h : kind.is_retryable = true) :
    affects_endpoint_health kind = true := by
  cases kind <;> first | rfl | cases h

/-- What an execution has come to so far. -/
structure Progress where
  last_error : GatewayError
  attempts : Nat := 0
  upstream_calls : Nat := 0

/-- Counts an attempt. -/
def Progress.attempt (self : Progress) : Progress := { self with attempts := min (self.attempts + 1) 255 }

/-- The attempt for whose answer an execution waits. -/
structure Attempt (route : Route) where
  idx : route.Place
  /-- The call, with a key still to be put in. -/
  request : Credential → UpstreamRequest
  rotator : KeyRotator
  empty_retries : Nat := 0

/-- What a candidate makes of a request. -/
inductive Preparation where
  | ready (request : Credential → UpstreamRequest)
  /-- The candidate cannot serve the request. -/
  | skipped (error : GatewayError)
  /-- No candidate can. -/
  | aborted (error : GatewayError)

/-- The outcome of an execution. -/
structure RouteOutcome (α : Type) where
  channel_id : Int
  channel_name : String
  upstream_protocol : Protocol
  upstream_model : String
  transcoded : Bool
  attempts : Nat
  latency_ms : Nat
  credential_hint : Option String
  payload : α

def outcome {α : Type} (candidate : Candidate) (route : Route) (attempts latency_ms : Nat) (credential_hint : Option String)
    (payload : α) : RouteOutcome α where
  channel_id := candidate.channel_id
  channel_name := candidate.channel.name
  upstream_protocol := candidate.protocol
  upstream_model := candidate.upstream_model
  transcoded := candidate.needs_transcode route.inbound
  attempts := attempts
  latency_ms := latency_ms
  credential_hint := credential_hint
  payload := payload

/-- What an execution does to its surroundings. -/
inductive Effect (route : Route) where
  | sent (idx : route.Place) (request : UpstreamRequest)
  | success (idx : route.Place)
  | failure (idx : route.Place) (error : GatewayError)
  | commit (idx : route.Place) (index : Nat)

/-- An execution between two answers. -/
inductive State (route : Route) (α : Type) where
  | awaiting (progress : Progress) (attempt : Attempt route) (rest : List route.Place)
  | finished (result : Except GatewayError (RouteOutcome α))

/-- A state and what was done to reach it. -/
structure Turn (route : Route) (α : Type) where
  state : State route α
  effects : List (Effect route) := []

/-- Puts earlier effects in front. -/
def Turn.after {route : Route} {α : Type} (effects : List (Effect route)) (turn : Turn route α) : Turn route α :=
  { turn with effects := effects ++ turn.effects }

/-- A loop over the candidates of a route, each of which may be called several
    times. -/
structure Loop (route : Route) (ρ α : Type) where
  /-- The place of the first key of a candidate. -/
  first_index : route.Place → Nat
  /-- An attempt counts as soon as its candidate is looked at. -/
  counts_first : Bool
  prepare : route.Place → Nat → Preparation
  judge : route.Place → Moment → Nat → ρ → Verdict α
  /-- A delivered answer counts in favor of the endpoint at once. -/
  records_success : Bool

namespace Loop

variable {route : Route} {ρ α : Type} (loop : Loop route ρ α)

/-- Makes the call of an attempt. -/
def call (progress : Progress) (attempt : Attempt route) (rest : List route.Place) : Turn route α :=
  match check_budget route progress.upstream_calls with
  | .error error => { state := .finished (.error error) }
  | .ok calls =>
    { state := .awaiting { progress with upstream_calls := calls } attempt rest
      effects := [.sent attempt.idx (attempt.request attempt.rotator.current)] }

/-- Goes to the next candidate that can serve the request. -/
def visit (progress : Progress) : List route.Place → Turn route α
  | [] => { state := .finished (.error progress.last_error) }
  | idx :: rest =>
    let looked := if loop.counts_first then progress.attempt else progress
    match loop.prepare idx looked.attempts with
    | .skipped error => visit { looked with last_error := error } rest
    | .aborted error => { state := .finished (.error error) }
    | .ready request =>
      let candidate := route.candidate idx
      let rotator : KeyRotator := { pool := candidate.channel.key_pool candidate.endpoint, index := loop.first_index idx }
      call (if loop.counts_first then looked else looked.attempt) { idx, request, rotator } rest

/-- What a failure at a candidate records. -/
def record_failure (idx : route.Place) (error : GatewayError) : List (Effect route) :=
  if affects_endpoint_health error.kind then [.failure idx error] else []

/-- Deals with a failed attempt: another key, another candidate, or none. -/
def on_failure (progress : Progress) (attempt : Attempt route) (rest : List route.Place) (error : GatewayError) :
    Turn route α :=
  match attempt.rotator.rotate error.kind with
  | (true, rotator) => call progress.attempt { attempt with rotator } rest
  | (false, rotator) =>
    let annotated := annotate_candidate_error (rotator.exhausted_error error) (route.candidate attempt.idx) progress.attempts
    let hinted := { annotated with credential_hint := some rotator.hint }
    let recorded := record_failure attempt.idx annotated
    if annotated.is_retryable then (loop.visit { progress with last_error := hinted } rest).after recorded
    else { state := .finished (.error hinted), effects := recorded }

/-- Takes an answer in. -/
def step (state : State route α) (moment : Moment) (reply : ρ) : Turn route α :=
  match state with
  | .finished result => { state := .finished result }
  | .awaiting progress attempt rest =>
    let candidate := route.candidate attempt.idx
    match loop.judge attempt.idx moment attempt.empty_retries reply with
    | .accepted payload =>
      { state := .finished (.ok (outcome candidate route progress.attempts moment.latency_ms
          (some attempt.rotator.hint) payload))
        effects := (if loop.records_success then [.success attempt.idx] else []) ++
          (if attempt.rotator.pool.strategy = .sticky ∧ route.identity.isSome then [.commit attempt.idx attempt.rotator.index] else []) }
    | .retry_empty => call progress.attempt { attempt with empty_retries := attempt.empty_retries + 1 } rest
    | .rejected error =>
      let annotated := annotate_candidate_error error candidate progress.attempts
      { state := .finished (.error annotated), effects := record_failure attempt.idx annotated }
    | .failed error => loop.on_failure progress attempt rest error
    | .dropped error => loop.visit { progress with last_error := error } rest

/-- The first turn of an execution. -/
def start (order : List route.Place) : Turn route α := loop.visit { last_error := no_candidates route } order

/-- An execution up to some answers. -/
def run (order : List route.Place) (replies : List (Moment × ρ)) : Turn route α :=
  replies.foldl (fun turn reply => (loop.step turn.state reply.1 reply.2).after turn.effects) (loop.start order)

end Loop

end refract.router
