import Refract.Gateway.Relay

open refract.core refract.machine refract.stream

namespace refract.gateway

/-- What a transcoded stream comes to for a client that stays. -/
structure Transcoded where
  frames : List SseFrame
  stream_error : Option GatewayError
  deriving DecidableEq

namespace Transcoded

def prepend (frames : List SseFrame) (rest : Transcoded) : Transcoded := { rest with frames := frames ++ rest.frames }

@[simp] theorem prepend_nil (rest : Transcoded) : rest.prepend [] = rest := rfl

theorem prepend_append (frames more : List SseFrame) (rest : Transcoded) :
    rest.prepend (frames ++ more) = (rest.prepend more).prepend frames := by
  simp only [prepend, List.append_assoc]

@[simp] theorem prepend_frames (frames : List SseFrame) (rest : Transcoded) :
    (rest.prepend frames).frames = frames ++ rest.frames := rfl

@[simp] theorem prepend_stream_error (frames : List SseFrame) (rest : Transcoded) :
    (rest.prepend frames).stream_error = rest.stream_error := rfl

end Transcoded

section Transcode

variable {σ τ : Type} (decoder_of : Decoder σ) (encoder_of : Encoder τ) (upstream_protocol : Protocol)

/-- The stream ends in an error, which the client is told of if the encoder can. -/
def reported (encoder : τ) (error : GatewayError) : Transcoded :=
  match (encoder_of.step encoder (error_event error)).2 with
  | .ok frames => ⟨frames, some error⟩
  | .error _ => ⟨[], some error⟩

def closed (encoder : τ) : Transcoded :=
  match encoder_of.finish encoder with
  | (_, .ok frames) => ⟨frames, none⟩
  | (encoder, .error error) => reported encoder_of encoder error

/-- The events that close the stream. -/
def drained (encoder : τ) : List StreamEvent → Transcoded
  | [] => closed encoder_of encoder
  | event :: events =>
    match encoder_of.step encoder event with
    | (encoder, .ok frames) => (drained encoder events).prepend frames
    | (encoder, .error error) => reported encoder_of encoder error

def ended (decoder : σ) (encoder : τ) (saw_done : Bool) : Transcoded :=
  if upstream_protocol ≠ .gemini ∧ saw_done = false then
    reported encoder_of encoder
      (.new .upstreamError "upstream stream ended without its protocol completion event")
  else
    match (decoder_of.finish decoder).2 with
    | .ok events => drained encoder_of encoder events
    | .error error => reported encoder_of encoder error

/-- The events of a frame, and what comes after them. -/
def passed (next : τ → Bool → Transcoded) (encoder : τ) (saw_done : Bool) : List StreamEvent → Transcoded
  | [] => next encoder saw_done
  | event :: events =>
    match event with
    | .error message _ => reported encoder_of encoder (.new .upstreamError message)
    | event =>
      match encoder_of.step encoder event with
      | (encoder, .ok frames) => (passed next encoder (saw_done || event.is_done) events).prepend frames
      | (encoder, .error error) => reported encoder_of encoder error

/-- The frames of an upstream, and what comes after them. -/
def transcoded (decoder : σ) (encoder : τ) (saw_done : Bool) : List (Except GatewayError Sse) → Transcoded
  | [] => ended decoder_of encoder_of upstream_protocol decoder encoder saw_done
  | .error error :: _ => reported encoder_of encoder error
  | .ok sse :: upstream =>
    match decoder_of.step decoder sse.frame with
    | (decoder, .ok events) =>
      passed encoder_of (fun encoder saw_done => transcoded decoder encoder saw_done upstream) encoder saw_done events
    | (_, .error error) => reported encoder_of encoder error

/-- What a codec task has yet to send, and how it will end. -/
def Relay.rest : Relay σ τ → Transcoded
  | .reading decoder encoder saw_done upstream events frames =>
    (passed encoder_of
      (fun encoder saw_done => transcoded decoder_of encoder_of upstream_protocol decoder encoder saw_done upstream)
      encoder saw_done events).prepend frames
  | .draining encoder events frames => (drained encoder_of encoder events).prepend frames
  | .closing frames => ⟨frames, none⟩
  | .reporting error frames => ⟨frames, some error⟩
  | .finished error _ => ⟨[], error⟩

variable {decoder_of encoder_of upstream_protocol}

theorem report_rest (encoder : τ) (error : GatewayError) :
    (report (σ := σ) encoder_of encoder error).rest decoder_of encoder_of upstream_protocol =
      reported encoder_of encoder error := by
  unfold report reported
  cases (encoder_of.step encoder (error_event error)).2 <;> rfl

theorem end_of_upstream_rest (decoder : σ) (encoder : τ) (saw_done : Bool) :
    (end_of_upstream decoder_of encoder_of upstream_protocol decoder encoder saw_done).rest decoder_of encoder_of
      upstream_protocol = ended decoder_of encoder_of upstream_protocol decoder encoder saw_done := by
  unfold end_of_upstream ended
  split
  · exact report_rest encoder _
  · cases (decoder_of.finish decoder).2 with
    | ok events => rfl
    | error error => exact report_rest encoder error

theorem read_rest (decoder : σ) (encoder : τ) (saw_done : Bool) (item : Except GatewayError Sse)
    (upstream : List (Except GatewayError Sse)) :
    (read decoder_of encoder_of decoder encoder saw_done upstream item).rest decoder_of encoder_of upstream_protocol =
      transcoded decoder_of encoder_of upstream_protocol decoder encoder saw_done (item :: upstream) := by
  cases item with
  | error error => exact report_rest encoder error
  | ok sse =>
    simp only [read, transcoded]
    obtain ⟨decoder, error | events⟩ := decoder_of.step decoder sse.frame
    · exact report_rest encoder error
    · rfl

/-- An event that is no error is encoded. -/
theorem pass_of_not_error (decoder : σ) (encoder : τ) (saw_done : Bool) (upstream : List (Except GatewayError Sse))
    {event : StreamEvent} (hevent : ∀ message kind, event ≠ .error message kind) (events : List StreamEvent) :
    pass encoder_of decoder encoder saw_done upstream event events =
      match encoder_of.step encoder event with
      | (encoder, .ok frames) => .reading decoder encoder (saw_done || event.is_done) upstream events frames
      | (encoder, .error error) => report encoder_of encoder error := by
  cases event with
  | error message kind => exact absurd rfl (hevent message kind)
  | _ => rfl

theorem passed_of_not_error (next : τ → Bool → Transcoded) (encoder : τ) (saw_done : Bool) {event : StreamEvent}
    (hevent : ∀ message kind, event ≠ .error message kind) (events : List StreamEvent) :
    passed encoder_of next encoder saw_done (event :: events) =
      match encoder_of.step encoder event with
      | (encoder, .ok frames) => (passed encoder_of next encoder (saw_done || event.is_done) events).prepend frames
      | (encoder, .error error) => reported encoder_of encoder error := by
  cases event with
  | error message kind => exact absurd rfl (hevent message kind)
  | _ => rfl

theorem pass_rest (decoder : σ) (encoder : τ) (saw_done : Bool) (upstream : List (Except GatewayError Sse))
    (event : StreamEvent) (events : List StreamEvent) :
    (pass encoder_of decoder encoder saw_done upstream event events).rest decoder_of encoder_of upstream_protocol =
      passed encoder_of
        (fun encoder saw_done => transcoded decoder_of encoder_of upstream_protocol decoder encoder saw_done upstream)
        encoder saw_done (event :: events) := by
  by_cases hevent : ∃ message kind, event = .error message kind
  · obtain ⟨message, kind, rfl⟩ := hevent
    exact report_rest encoder _
  · push Not at hevent
    rw [pass_of_not_error decoder encoder saw_done upstream hevent, passed_of_not_error _ encoder saw_done hevent]
    obtain ⟨encoder, error | frames⟩ := encoder_of.step encoder event
    · exact report_rest encoder error
    · rfl

theorem drain_rest (encoder : τ) (event : StreamEvent) (events : List StreamEvent) :
    (drain (σ := σ) encoder_of encoder event events).rest decoder_of encoder_of upstream_protocol =
      drained encoder_of encoder (event :: events) := by
  simp only [drain, drained]
  obtain ⟨encoder, error | frames⟩ := encoder_of.step encoder event
  · exact report_rest encoder error
  · rfl

theorem close_rest (encoder : τ) :
    (close (σ := σ) encoder_of encoder).rest decoder_of encoder_of upstream_protocol = closed encoder_of encoder := by
  unfold close closed
  obtain ⟨encoder, error | frames⟩ := encoder_of.finish encoder
  · exact report_rest encoder error
  · rfl

/-- A step of the codec task sends the next of the frames that are left, or
    none, and its end stays what it was to be. -/
theorem next_rest (r s : Relay σ τ) (hleads : (r.next decoder_of encoder_of upstream_protocol).Leads s) :
    (r.rest decoder_of encoder_of upstream_protocol).frames.map Chunk.frame =
        (r.next decoder_of encoder_of upstream_protocol).writes ++
          (s.rest decoder_of encoder_of upstream_protocol).frames.map Chunk.frame ∧
      (s.rest decoder_of encoder_of upstream_protocol).stream_error =
        (r.rest decoder_of encoder_of upstream_protocol).stream_error := by
  cases Relay.moves_of_leads hleads with
  | pass decoder encoder saw_done upstream event events =>
    rw [pass_rest]
    exact ⟨rfl, rfl⟩
  | read decoder encoder saw_done item upstream =>
    rw [read_rest]
    exact ⟨rfl, rfl⟩
  | end_of_upstream decoder encoder saw_done =>
    rw [end_of_upstream_rest]
    exact ⟨rfl, rfl⟩
  | drain encoder event events =>
    rw [drain_rest]
    exact ⟨rfl, rfl⟩
  | close encoder =>
    rw [close_rest]
    exact ⟨rfl, rfl⟩
  | _ => exact ⟨rfl, rfl⟩

end Transcode

section Infallible

variable {σ τ : Type} (D : Transducer σ SseFrame StreamEvent) (E : Transducer τ StreamEvent SseFrame)
  (upstream_protocol : Protocol)

/-- An encoder that never fails tells the client of every error. -/
theorem reported_fallible (encoder : τ) (error : GatewayError) :
    reported E.fallible encoder error = ⟨(E.step encoder (error_event error)).2, some error⟩ := rfl

theorem drained_fallible (encoder : τ) (events : List StreamEvent) :
    drained E.fallible encoder events =
      ⟨E.emit encoder events ++ (E.finish (E.advance encoder events)).2, none⟩ := by
  induction events generalizing encoder with
  | nil => rfl
  | cons event events ih =>
    simp only [drained, Transducer.fallible_step, ih, Transcoded.prepend, Transducer.emit_cons, Transducer.advance_cons,
      List.append_assoc]

/-- Events without an error are encoded one after the other. -/
theorem passed_quiet (next : τ → Bool → Transcoded) (encoder : τ) (saw_done : Bool) {events : List StreamEvent}
    (hevents : ∀ e ∈ events, e.is_error = false) :
    passed E.fallible next encoder saw_done events =
      (next (E.advance encoder events) (saw_done || events.any StreamEvent.is_done)).prepend (E.emit encoder events) := by
  induction events generalizing encoder saw_done with
  | nil => simp [passed]
  | cons event events ih =>
    obtain ⟨hevent, hrest⟩ := List.forall_mem_cons.mp hevents
    have hnot : ∀ message kind, event ≠ .error message kind := by
      rintro message kind rfl
      cases hevent
    rw [passed_of_not_error next encoder saw_done hnot]
    simp only [Transducer.fallible_step, ih _ _ hrest, Transducer.emit_cons, Transducer.advance_cons,
      Transcoded.prepend_append, List.any_cons, Bool.or_assoc]

/-- The first error of the upstream ends the stream. -/
theorem passed_error (next : τ → Bool → Transcoded) (encoder : τ) (saw_done : Bool) {events : List StreamEvent}
    (hevents : ∀ e ∈ events, e.is_error = false) (message kind : String) (later : List StreamEvent) :
    passed E.fallible next encoder saw_done (events ++ .error message kind :: later) =
      (reported E.fallible (E.advance encoder events) (.new .upstreamError message)).prepend (E.emit encoder events) := by
  induction events generalizing encoder saw_done with
  | nil => rfl
  | cons event events ih =>
    obtain ⟨hevent, hrest⟩ := List.forall_mem_cons.mp hevents
    have hnot : ∀ message kind, event ≠ .error message kind := by
      rintro message kind rfl
      cases hevent
    rw [List.cons_append, passed_of_not_error next encoder saw_done hnot]
    simp only [Transducer.fallible_step, ih _ _ hrest, Transducer.emit_cons, Transducer.advance_cons,
      Transcoded.prepend_append]

/-- Frames without an error are transcoded one after the other. -/
theorem transcoded_quiet (decoder : σ) (encoder : τ) (saw_done : Bool) {sses : List Sse}
    (hevents : ∀ e ∈ D.emit decoder (sses.map Sse.frame), e.is_error = false) (upstream : List (Except GatewayError Sse)) :
    transcoded D.fallible E.fallible upstream_protocol decoder encoder saw_done (sses.map .ok ++ upstream) =
      (transcoded D.fallible E.fallible upstream_protocol (D.advance decoder (sses.map Sse.frame))
        (E.advance encoder (D.emit decoder (sses.map Sse.frame)))
        (saw_done || (D.emit decoder (sses.map Sse.frame)).any StreamEvent.is_done) upstream).prepend
          (E.emit encoder (D.emit decoder (sses.map Sse.frame))) := by
  induction sses generalizing decoder encoder saw_done with
  | nil => simp
  | cons sse sses ih =>
    simp only [List.map_cons, Transducer.emit_cons, List.forall_mem_append] at hevents
    obtain ⟨hframe, hrest⟩ := hevents
    simp only [List.map_cons, List.cons_append, transcoded, Transducer.fallible_step,
      passed_quiet E _ encoder saw_done hframe, ih _ _ _ hrest, Transducer.emit_cons, Transducer.advance_cons,
      Transducer.emit_append, Transducer.advance_append, Transcoded.prepend_append, List.any_append, Bool.or_assoc]

/-- A stream with an error in a frame ends there, with what was written before. -/
theorem transcoded_error (decoder : σ) (encoder : τ) (saw_done : Bool) {sses : List Sse} {before later : List StreamEvent}
    {message kind : String} (hsplit : D.emit decoder (sses.map Sse.frame) = before ++ .error message kind :: later)
    (hbefore : ∀ e ∈ before, e.is_error = false) (upstream : List (Except GatewayError Sse)) :
    transcoded D.fallible E.fallible upstream_protocol decoder encoder saw_done (sses.map .ok ++ upstream) =
      (reported E.fallible (E.advance encoder before) (.new .upstreamError message)).prepend (E.emit encoder before) := by
  induction sses generalizing decoder encoder saw_done before with
  | nil => simp at hsplit
  | cons sse sses ih =>
    simp only [List.map_cons, List.cons_append, transcoded, Transducer.fallible_step]
    rw [List.map_cons, Transducer.emit_cons] at hsplit
    obtain ⟨mid, rfl, hmid⟩ | ⟨mid, hframe, hmid⟩ := List.append_eq_append_iff.mp hsplit
    · obtain ⟨hframe, hrest⟩ := List.forall_mem_append.mp hbefore
      simp only [passed_quiet E _ encoder saw_done hframe, ih _ _ _ hmid hrest, Transducer.emit_append,
        Transducer.advance_append, Transcoded.prepend_append]
    · cases mid with
      | nil =>
        rw [List.append_nil] at hframe
        have hempty : D.emit (D.step decoder sse.frame).1 (sses.map Sse.frame) = [] ++ .error message kind :: later := hmid.symm
        rw [hframe, passed_quiet E _ encoder saw_done hbefore, ih _ _ _ hempty (by simp)]
        simp only [Transducer.emit_nil, Transducer.advance_nil, Transcoded.prepend_nil]
      | cons event mid =>
        obtain ⟨rfl, -⟩ := List.cons.inj hmid
        rw [hframe, passed_error E _ encoder saw_done hbefore]

end Infallible

end refract.gateway
