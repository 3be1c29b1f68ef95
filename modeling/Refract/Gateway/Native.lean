import Refract.Core.Error
import Refract.Gateway.Relay
import Refract.Router.Affinity
import Refract.Stream.Sse

open refract.core refract.machine refract.router refract.stream

namespace refract.gateway

/-- What the health statistics of an endpoint learn from a stream. -/
inductive EndpointHealth where
  | success
  | failure (error : String) (retry_after : Option Nat)
  | unchanged
  deriving DecidableEq, Repr

/-- What a stream leaves behind: its log entry, the health of its endpoint, and
    the affinity that it unbinds from the endpoint's channel. -/
structure StreamOutcome where
  status : Nat
  error_kind : Option String
  error_message : Option String
  health : EndpointHealth
  forgets : Option String
  deriving DecidableEq, Repr

/-- The kinds of error that count against an endpoint. -/
def counts_against_endpoint : ErrorKind → Bool
  | .unauthenticated | .permissionDenied | .rateLimited | .upstreamError | .timeout | .configuration | .notFound => true
  | _ => false

/-- A client that left says nothing about the endpoint. -/
def record_stream_endpoint_health (error : Option GatewayError) (client_closed : Bool) : EndpointHealth :=
  if client_closed then .unchanged
  else
    match error with
    | some error => if counts_against_endpoint error.kind then .failure error.to_string error.retry_after else .unchanged
    | none => .success

/-- An upstream that failed on the way loses the requests that were bound to it,
    unless their rule keeps them. -/
def unbinds (affinity : Option AffinityDecision) (error : Option GatewayError) : Option String :=
  if error.isSome then (affinity.filter (!·.skip_retry_on_failure)).map (·.cache_key) else none

/-- The end of a stream, whatever its kind. -/
def stream_outcome (affinity : Option AffinityDecision) (error : Option GatewayError) (client_closed : Bool) :
    StreamOutcome where
  status :=
    match error with
    | some error => error.kind.status
    | none => if client_closed then 499 else 200
  error_kind :=
    match error with
    | some error => some error.kind.debug
    | none => if client_closed then some "client_closed_request" else none
  error_message :=
    match error with
    | some error => some error.message
    | none => if client_closed then some "client disconnected before the stream completed" else none
  health := record_stream_endpoint_health error client_closed
  forgets := unbinds affinity error

/-- The stream is logged as a success, speaks for its endpoint and keeps its
    affinity. -/
def StreamOutcome.Succeeds (outcome : StreamOutcome) : Prop :=
  outcome.status = 200 ∧ outcome.error_kind = none ∧ outcome.error_message = none ∧
    outcome.health = .success ∧ outcome.forgets = none

/-- The stream is logged as a failure and speaks against its endpoint. -/
def StreamOutcome.Fails (outcome : StreamOutcome) : Prop :=
  400 ≤ outcome.status ∧ outcome.error_kind.isSome ∧ outcome.error_message.isSome ∧
    ∃ error retry_after, outcome.health = .failure error retry_after

/-- A stream succeeds exactly when it has no error. -/
theorem stream_outcome_succeeds (affinity : Option AffinityDecision) (error : Option GatewayError) :
    (stream_outcome affinity error false).Succeeds ↔ error = none := by
  cases error with
  | none => exact iff_of_true ⟨rfl, rfl, rfl, rfl, rfl⟩ rfl
  | some error =>
    have hstatus : (stream_outcome affinity (some error) false).status ≠ 200 := by
      have hle := error.kind.le_status
      simp only [stream_outcome]
      omega
    simp [StreamOutcome.Succeeds, hstatus]

theorem stream_outcome_fails (affinity : Option AffinityDecision) {error : GatewayError}
    (herror : counts_against_endpoint error.kind) : (stream_outcome affinity (some error) false).Fails := by
  refine ⟨error.kind.le_status, rfl, rfl, error.to_string, error.retry_after, ?_⟩
  simp only [stream_outcome, record_stream_endpoint_health, herror, if_true]
  rfl

/-- What looks into a stream on its way: the reader of its frames, their decoder,
    and whether the end was seen. -/
structure Inspector (σ : Type) where
  parser : SseParser
  decoder : σ
  saw_done : Bool

/-- The task that relays a stream without change. -/
inductive NativeRelay (σ : Type) where
  | relaying (inspector : Inspector σ) (upstream : List (Except GatewayError Bytes))
  | finished (stream_error : Option GatewayError) (client_closed : Bool)

section Native

variable {σ : Type} (decoder_of : Decoder σ) (upstream_protocol : Protocol)

/-- The events of a frame up to the first error. -/
def inspect_events (saw_done : Bool) : List StreamEvent → Bool × Except GatewayError Unit
  | [] => (saw_done, .ok ())
  | event :: events =>
    match event with
    | .error message _ => (saw_done, .error (.new .upstreamError message))
    | event => inspect_events (saw_done || event.is_done) events

def inspect_native_frames (self : Inspector σ) : List SseFrame → Inspector σ × Except GatewayError Unit
  | [] => (self, .ok ())
  | frame :: frames =>
    match decoder_of.step self.decoder frame with
    | (decoder, .error error) =>
      ({ self with decoder }, .error (.new .upstreamError ("failed to decode upstream stream: " ++ error.message)))
    | (decoder, .ok events) =>
      match inspect_events self.saw_done events with
      | (saw_done, .error error) => ({ self with decoder, saw_done }, .error error)
      | (saw_done, .ok ()) => inspect_native_frames { self with decoder, saw_done } frames

def inspect (self : Inspector σ) (parser : SseParser) (fed : Except GatewayError (List SseFrame)) :
    Inspector σ × Except GatewayError Unit :=
  match fed with
  | .error error => ({ self with parser }, .error error)
  | .ok frames => inspect_native_frames decoder_of { self with parser } frames

/-- Looks into a chunk. -/
def inspect_chunk (self : Inspector σ) (bytes : Bytes) : Inspector σ × Except GatewayError Unit :=
  let (parser, fed) := parse_sse.step self.parser bytes
  inspect decoder_of self parser fed

/-- The upstream has ended: the last frame, the completion, the closing events. -/
def end_of_native (self : Inspector σ) : Option GatewayError :=
  let (parser, fed) := parse_sse.finish self.parser
  match inspect decoder_of self parser fed with
  | (_, .error error) => some error
  | (self, .ok ()) =>
    if upstream_protocol ≠ .gemini ∧ self.saw_done = false then
      some (.new .upstreamError "upstream stream ended without its protocol completion event")
    else
      match (decoder_of.finish self.decoder).2 with
      | .ok _ => none
      | .error error => some error

/-- A chunk is passed on before what it holds is judged. -/
def NativeRelay.next : NativeRelay σ → Next (NativeRelay σ) Bytes
  | .relaying inspector (.ok bytes :: upstream) =>
    .send bytes
      (match inspect_chunk decoder_of inspector bytes with
        | (inspector, .ok ()) => .relaying inspector upstream
        | (_, .error error) => .finished (some error) false)
      (.finished none true)
  | .relaying _ (.error error :: _) => .run (.finished (some error) false)
  | .relaying inspector [] => .run (.finished (end_of_native decoder_of upstream_protocol inspector) false)
  | .finished _ _ => .halt

/-- The only task of a native stream. -/
def relay_native_stream : Tasks (NativeRelay σ) Unit Bytes where
  left := NativeRelay.next decoder_of upstream_protocol
  right _ := .halt

/-- What a native stream comes to for a client that stays. -/
structure Relayed where
  chunks : List Bytes
  stream_error : Option GatewayError
  deriving DecidableEq

/-- The chunks of an upstream, up to the first that is not in order. -/
def relayed (self : Inspector σ) : List (Except GatewayError Bytes) → Relayed
  | [] => ⟨[], end_of_native decoder_of upstream_protocol self⟩
  | .error error :: _ => ⟨[], some error⟩
  | .ok bytes :: upstream =>
    match inspect_chunk decoder_of self bytes with
    | (self, .ok ()) =>
      let rest := relayed self upstream
      { rest with chunks := bytes :: rest.chunks }
    | (_, .error error) => ⟨[bytes], some error⟩

/-- What a relay has yet to pass on, and how it will end. -/
def NativeRelay.rest : NativeRelay σ → Relayed
  | .relaying inspector upstream => relayed decoder_of upstream_protocol inspector upstream
  | .finished error _ => ⟨[], error⟩

def NativeRelay.weight : NativeRelay σ → Nat
  | .relaying _ upstream => upstream.length + 1
  | .finished _ _ => 0

variable {decoder_of upstream_protocol}

/-- A step of the relay passes on the next of the chunks that are left, or none,
    and its end stays what it was to be. -/
theorem native_next_rest (r s : NativeRelay σ) (hleads : (r.next decoder_of upstream_protocol).Leads s) :
    (r.rest decoder_of upstream_protocol).chunks =
        (r.next decoder_of upstream_protocol).writes ++ (s.rest decoder_of upstream_protocol).chunks ∧
      (s.rest decoder_of upstream_protocol).stream_error = (r.rest decoder_of upstream_protocol).stream_error := by
  cases r with
  | relaying inspector upstream =>
    cases upstream with
    | nil =>
      obtain rfl := Next.leads_run.mp hleads
      exact ⟨rfl, rfl⟩
    | cons item upstream =>
      cases item with
      | error error =>
        obtain rfl := Next.leads_run.mp hleads
        exact ⟨rfl, rfl⟩
      | ok bytes =>
        obtain rfl := Next.leads_send.mp hleads
        simp only [NativeRelay.rest, relayed, NativeRelay.next, Next.writes]
        obtain ⟨inspector, error | ok⟩ := inspect_chunk decoder_of inspector bytes <;> exact ⟨rfl, rfl⟩
  | finished stream_error client_closed => exact hleads.elim

/-- Every step of the relay brings it nearer to its end. -/
theorem native_next_weight (r s : NativeRelay σ) (hleads : (r.next decoder_of upstream_protocol).Leads s) :
    s.weight < r.weight := by
  cases r with
  | relaying inspector upstream =>
    cases upstream with
    | nil =>
      obtain rfl := Next.leads_run.mp hleads
      exact Nat.succ_pos _
    | cons item upstream =>
      cases item with
      | error error =>
        obtain rfl := Next.leads_run.mp hleads
        exact Nat.succ_pos _
      | ok bytes =>
        obtain rfl := Next.leads_send.mp hleads
        obtain ⟨inspector, error | ok⟩ := inspect_chunk decoder_of inspector bytes
        · exact Nat.succ_pos _
        · exact Nat.lt_succ_self _
  | finished stream_error client_closed => exact hleads.elim

/-- The client is sent nothing but the upstream's own chunks, from the first on. -/
theorem relayed_prefix (self : Inspector σ) (upstream : List (Except GatewayError Bytes)) :
    (relayed decoder_of upstream_protocol self upstream).chunks.map Except.ok <+: upstream := by
  induction upstream generalizing self with
  | nil => exact List.prefix_rfl
  | cons item upstream ih =>
    cases item with
    | error error => exact List.nil_prefix
    | ok bytes =>
      simp only [relayed]
      obtain ⟨inspector, error | ok⟩ := inspect_chunk decoder_of self bytes
      · exact List.prefix_append [Except.ok bytes] upstream
      · exact List.cons_prefix_cons.mpr ⟨rfl, ih inspector⟩

end Native

section Infallible

variable {σ : Type} (D : Transducer σ SseFrame StreamEvent) (upstream_protocol : Protocol)

theorem inspect_events_quiet (saw_done : Bool) {events : List StreamEvent} (hevents : ∀ e ∈ events, e.is_error = false) :
    inspect_events saw_done events = (saw_done || events.any StreamEvent.is_done, .ok ()) := by
  induction events generalizing saw_done with
  | nil => simp [inspect_events]
  | cons event events ih =>
    obtain ⟨hevent, hrest⟩ := List.forall_mem_cons.mp hevents
    rw [List.any_cons, ← Bool.or_assoc, ← ih (saw_done || event.is_done) hrest]
    cases event with
    | error message kind => cases hevent
    | _ => rfl

theorem inspect_events_error (saw_done : Bool) {events : List StreamEvent} (hevents : ∃ e ∈ events, e.is_error = true) :
    ∃ saw_done' message, inspect_events saw_done events = (saw_done', .error (.new .upstreamError message)) := by
  induction events generalizing saw_done with
  | nil => simp at hevents
  | cons event events ih =>
    cases event with
    | error message kind => exact ⟨saw_done, message, rfl⟩
    | _ => exact ih _ (by simpa [StreamEvent.is_error] using hevents)

/-- Frames without an error leave the inspector behind the last of them. -/
theorem inspect_native_frames_quiet (self : Inspector σ) {frames : List SseFrame}
    (hevents : ∀ e ∈ D.emit self.decoder frames, e.is_error = false) :
    inspect_native_frames D.fallible self frames =
      ({ self with
        decoder := D.advance self.decoder frames
        saw_done := self.saw_done || (D.emit self.decoder frames).any StreamEvent.is_done }, .ok ()) := by
  induction frames generalizing self with
  | nil => simp [inspect_native_frames]
  | cons frame frames ih =>
    rw [Transducer.emit_cons, List.forall_mem_append] at hevents
    obtain ⟨hframe, hrest⟩ := hevents
    simp only [inspect_native_frames, Transducer.fallible_step, inspect_events_quiet _ hframe]
    rw [ih _ hrest]
    simp only [Transducer.emit_cons, Transducer.advance_cons, List.any_append, Bool.or_assoc]

theorem inspect_native_frames_error (self : Inspector σ) {frames : List SseFrame}
    (hevents : ∃ e ∈ D.emit self.decoder frames, e.is_error = true) :
    ∃ self' message, inspect_native_frames D.fallible self frames = (self', .error (.new .upstreamError message)) := by
  induction frames generalizing self with
  | nil => simp at hevents
  | cons frame frames ih =>
    by_cases hframe : ∃ e ∈ (D.step self.decoder frame).2, e.is_error = true
    · obtain ⟨saw_done, message, hinspect⟩ := inspect_events_error self.saw_done hframe
      refine ⟨{ self with decoder := (D.step self.decoder frame).1, saw_done }, message, ?_⟩
      simp only [inspect_native_frames, Transducer.fallible_step, hinspect]
    · have hquiet : ∀ e ∈ (D.step self.decoder frame).2, e.is_error = false := by simpa using hframe
      simp only [Transducer.emit_cons, List.mem_append, or_and_right, exists_or, hframe, false_or] at hevents
      simp only [inspect_native_frames, Transducer.fallible_step, inspect_events_quiet _ hquiet]
      exact ih _ hevents

/-- What a stream that is read to its end without an error comes to. -/
def completion_error (saw_done : Bool) : Option GatewayError :=
  if upstream_protocol ≠ .gemini ∧ saw_done = false then
    some (.new .upstreamError "upstream stream ended without its protocol completion event")
  else none

/-- Some part of a stream is no text, or one of its frames is an error. -/
def Disturbed (self : Inspector σ) (chunks : List Bytes) : Prop :=
  (∃ error, parse_sse.closing self.parser chunks = .error error) ∨
    ∃ e ∈ D.emit self.decoder (parse_sse.outputs self.parser chunks), e.is_error = true

theorem end_of_native_quiet (self : Inspector σ) (h : ¬ Disturbed D self []) :
    end_of_native D.fallible upstream_protocol self =
      completion_error upstream_protocol
        (self.saw_done || (D.emit self.decoder (parse_sse.outputs self.parser [])).any StreamEvent.is_done) := by
  unfold Disturbed at h
  rw [Fallible.closing_nil, Fallible.outputs_nil] at h
  rw [Fallible.outputs_nil]
  unfold end_of_native
  rcases hfinish : parse_sse.finish self.parser with ⟨parser, error | frames⟩
  · rw [hfinish] at h
    exact absurd (.inl ⟨error, rfl⟩) h
  · rw [hfinish] at h
    have hquiet : ∀ e ∈ D.emit self.decoder frames, e.is_error = false := by
      intro e he
      by_contra hnot
      exact h (.inr ⟨e, he, by simpa using hnot⟩)
    simp only [inspect, inspect_native_frames_quiet D { self with parser } hquiet, Transducer.fallible_finish,
      Except.toOption, Option.getD_some]
    rfl

theorem end_of_native_disturbed (self : Inspector σ) (h : Disturbed D self []) :
    ∃ error, end_of_native D.fallible upstream_protocol self = some error ∧ error.kind = .upstreamError := by
  unfold Disturbed at h
  rw [Fallible.closing_nil, Fallible.outputs_nil] at h
  unfold end_of_native
  rcases hfinish : parse_sse.finish self.parser with ⟨parser, error | frames⟩
  · exact ⟨error, rfl, sse_parser_finish_kind self.parser (by rw [hfinish])⟩
  · rw [hfinish] at h
    obtain ⟨error, herror⟩ | hevents := h
    · cases herror
    · have hframes : ∃ e ∈ D.emit self.decoder frames, e.is_error = true := hevents
      obtain ⟨self', message, hinspect⟩ := inspect_native_frames_error D { self with parser } hframes
      refine ⟨.new .upstreamError message, ?_, rfl⟩
      simp only [inspect, hinspect]

/-- A chunk without an error leaves the inspector behind its frames. -/
theorem inspect_chunk_quiet (self : Inspector σ) {bytes : Bytes} {parser : SseParser} {frames : List SseFrame}
    (hfed : parse_sse.step self.parser bytes = (parser, .ok frames))
    (hevents : ∀ e ∈ D.emit self.decoder frames, e.is_error = false) :
    inspect_chunk D.fallible self bytes =
      (⟨parser, D.advance self.decoder frames, self.saw_done || (D.emit self.decoder frames).any StreamEvent.is_done⟩,
        .ok ()) := by
  simp only [inspect_chunk, hfed, inspect]
  rw [inspect_native_frames_quiet D { self with parser } hevents]

/-- A stream that is not disturbed is passed on whole, and only its completion
    may be missing. -/
theorem relayed_quiet (self : Inspector σ) {chunks : List Bytes} (h : ¬ Disturbed D self chunks) :
    relayed D.fallible upstream_protocol self (chunks.map .ok) =
      ⟨chunks, completion_error upstream_protocol
        (self.saw_done || (D.emit self.decoder (parse_sse.outputs self.parser chunks)).any StreamEvent.is_done)⟩ := by
  induction chunks generalizing self with
  | nil =>
    rw [List.map_nil, relayed, end_of_native_quiet D upstream_protocol self h]
  | cons bytes chunks ih =>
    rcases hfed : parse_sse.step self.parser bytes with ⟨parser, error | frames⟩
    · obtain ⟨-, -, hclosing, -⟩ := Fallible.run_cons_error chunks hfed
      exact absurd (.inl ⟨error, hclosing⟩) h
    · obtain ⟨-, -, hclosing, houtputs⟩ := Fallible.run_cons_ok chunks hfed
      unfold Disturbed at h
      rw [hclosing, houtputs, Transducer.emit_append] at h
      have hquiet : ∀ e ∈ D.emit self.decoder frames, e.is_error = false := by
        intro e he
        by_contra hnot
        exact h (.inr ⟨e, List.mem_append_left _ he, by simpa using hnot⟩)
      simp only [List.map_cons, relayed, inspect_chunk_quiet D self hfed hquiet]
      rw [ih]
      · simp only [houtputs, Transducer.emit_append, List.any_append, Bool.or_assoc]
      · rintro (hend | ⟨e, he, herror⟩)
        · exact h (.inl hend)
        · exact h (.inr ⟨e, List.mem_append_right _ he, herror⟩)

theorem relayed_disturbed (self : Inspector σ) {chunks : List Bytes} (h : Disturbed D self chunks) :
    ∃ error, (relayed D.fallible upstream_protocol self (chunks.map .ok)).stream_error = some error ∧
      error.kind = .upstreamError := by
  induction chunks generalizing self with
  | nil => exact end_of_native_disturbed D upstream_protocol self h
  | cons bytes chunks ih =>
    rcases hfed : parse_sse.step self.parser bytes with ⟨parser, error | frames⟩
    · refine ⟨error, ?_, sse_parser_step_kind self.parser bytes (by rw [hfed])⟩
      simp only [List.map_cons, relayed, inspect_chunk, hfed, inspect]
    · obtain ⟨-, -, hclosing, houtputs⟩ := Fallible.run_cons_ok chunks hfed
      unfold Disturbed at h
      rw [hclosing, houtputs, Transducer.emit_append] at h
      by_cases hframes : ∃ e ∈ D.emit self.decoder frames, e.is_error = true
      · obtain ⟨self', message, hinspect⟩ := inspect_native_frames_error D { self with parser } hframes
        refine ⟨.new .upstreamError message, ?_, rfl⟩
        simp only [List.map_cons, relayed, inspect_chunk, hfed, inspect, hinspect]
      · have hquiet : ∀ e ∈ D.emit self.decoder frames, e.is_error = false := by simpa using hframes
        simp only [List.map_cons, relayed, inspect_chunk_quiet D self hfed hquiet]
        apply ih
        obtain hend | ⟨e, he, herror⟩ := h
        · exact .inl hend
        · rcases List.mem_append.mp he with he | he
          · exact absurd ⟨e, he, herror⟩ hframes
          · exact .inr ⟨e, he, herror⟩

/-- A stream that ends without an error was read to its end. -/
theorem relayed_complete (self : Inspector σ) {upstream : List (Except GatewayError Bytes)}
    (h : (relayed D.fallible upstream_protocol self upstream).stream_error = none) :
    ∃ chunks : List Bytes, upstream = chunks.map .ok := by
  induction upstream generalizing self with
  | nil => exact ⟨[], rfl⟩
  | cons item upstream ih =>
    cases item with
    | error error => cases h
    | ok bytes =>
      simp only [relayed] at h
      rcases hinspect : inspect_chunk D.fallible self bytes with ⟨self', error | _⟩
      · rw [hinspect] at h
        cases h
      · rw [hinspect] at h
        obtain ⟨chunks, rfl⟩ := ih self' h
        exact ⟨bytes :: chunks, rfl⟩

end Infallible

end refract.gateway
