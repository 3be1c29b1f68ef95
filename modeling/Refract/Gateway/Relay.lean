import Mathlib.Data.Prod.Lex
import Refract.Core.Error
import Refract.Machine.Channel
import Refract.Machine.Transducer
import Refract.Stream.Event

open refract.core refract.machine refract.stream

namespace refract.gateway

/-- An event of the upstream body as its reader reports it. -/
structure Sse where
  event : String
  data : String
  deriving DecidableEq, Repr

def Sse.frame (sse : Sse) : SseFrame := ⟨if sse.event.isEmpty then none else some sse.event, sse.data⟩

abbrev Decoder (σ : Type) := Fallible GatewayError σ SseFrame StreamEvent

abbrev Encoder (τ : Type) := Fallible GatewayError τ StreamEvent SseFrame

/-- What a transcoded stream writes to its channel, by its writer. -/
inductive Chunk where
  | frame (frame : SseFrame)
  | keep_alive
  deriving DecidableEq, Repr

/-- The codec task between two of its steps. The lists hold what is still to be
    read, decoded and sent. -/
inductive Relay (σ τ : Type) where
  | reading (decoder : σ) (encoder : τ) (saw_done : Bool) (upstream : List (Except GatewayError Sse))
    (events : List StreamEvent) (frames : List SseFrame)
  | draining (encoder : τ) (events : List StreamEvent) (frames : List SseFrame)
  | closing (frames : List SseFrame)
  | reporting (stream_error : GatewayError) (frames : List SseFrame)
  | finished (stream_error : Option GatewayError) (client_closed : Bool)

section Relay

variable {σ τ : Type} (decoder_of : Decoder σ) (encoder_of : Encoder τ) (upstream_protocol : Protocol)

/-- The event that tells the client of an error. -/
def error_event (error : GatewayError) : StreamEvent := .error error.message error.kind.debug.toLower

/-- One last event, where the encoder still takes it. -/
def report (encoder : τ) (error : GatewayError) : Relay σ τ :=
  match (encoder_of.step encoder (error_event error)).2 with
  | .ok frames => .reporting error frames
  | .error _ => .finished (some error) false

/-- The upstream has ended. Only Gemini may end without a completion event. -/
def end_of_upstream (decoder : σ) (encoder : τ) (saw_done : Bool) : Relay σ τ :=
  if upstream_protocol ≠ .gemini ∧ saw_done = false then
    report encoder_of encoder
      (.new .upstreamError "upstream stream ended without its protocol completion event")
  else
    match (decoder_of.finish decoder).2 with
    | .ok events => .draining encoder events []
    | .error error => report encoder_of encoder error

/-- What the upstream sent next. -/
def read (decoder : σ) (encoder : τ) (saw_done : Bool) (upstream : List (Except GatewayError Sse)) :
    Except GatewayError Sse → Relay σ τ
  | .error error => report encoder_of encoder error
  | .ok sse =>
    match decoder_of.step decoder sse.frame with
    | (decoder, .ok events) => .reading decoder encoder saw_done upstream events []
    | (_, .error error) => report encoder_of encoder error

/-- An event of the upstream. An error ends the loop before it is encoded. -/
def pass (decoder : σ) (encoder : τ) (saw_done : Bool) (upstream : List (Except GatewayError Sse))
    (event : StreamEvent) (events : List StreamEvent) : Relay σ τ :=
  match event with
  | .error message _ => report encoder_of encoder (.new .upstreamError message)
  | event =>
    match encoder_of.step encoder event with
    | (encoder, .ok frames) => .reading decoder encoder (saw_done || event.is_done) upstream events frames
    | (encoder, .error error) => report encoder_of encoder error

/-- An event that the decoder gave when it was finished. -/
def drain (encoder : τ) (event : StreamEvent) (events : List StreamEvent) : Relay σ τ :=
  match encoder_of.step encoder event with
  | (encoder, .ok frames) => .draining encoder events frames
  | (encoder, .error error) => report encoder_of encoder error

def close (encoder : τ) : Relay σ τ :=
  match encoder_of.finish encoder with
  | (_, .ok frames) => .closing frames
  | (encoder, .error error) => report encoder_of encoder error

/-- The codec task. A frame that the client does not take any more ends it. -/
def Relay.next : Relay σ τ → Next (Relay σ τ) Chunk
  | .reading decoder encoder saw_done upstream events (frame :: frames) =>
    .send (.frame frame) (.reading decoder encoder saw_done upstream events frames) (.finished none true)
  | .reading decoder encoder saw_done upstream (event :: events) [] =>
    .run (pass encoder_of decoder encoder saw_done upstream event events)
  | .reading decoder encoder saw_done (item :: upstream) [] [] =>
    .run (read decoder_of encoder_of decoder encoder saw_done upstream item)
  | .reading decoder encoder saw_done [] [] [] =>
    .run (end_of_upstream decoder_of encoder_of upstream_protocol decoder encoder saw_done)
  | .draining encoder events (frame :: frames) =>
    .send (.frame frame) (.draining encoder events frames) (.finished none true)
  | .draining encoder (event :: events) [] => .run (drain encoder_of encoder event events)
  | .draining encoder [] [] => .run (close encoder_of encoder)
  | .closing (frame :: frames) => .send (.frame frame) (.closing frames) (.finished none true)
  | .closing [] => .run (.finished none false)
  | .reporting error (frame :: frames) =>
    .send (.frame frame) (.reporting error frames) (.finished (some error) true)
  | .reporting error [] => .run (.finished (some error) false)
  | .finished _ _ => .halt

/-- The phases of the task in order, and what each has left to do. -/
def Relay.weight : Relay σ τ → Nat ×ₗ Nat ×ₗ Nat ×ₗ Nat
  | .reading _ _ _ upstream events frames => toLex (4, toLex (upstream.length, toLex (events.length, frames.length)))
  | .draining _ events frames => toLex (3, toLex (0, toLex (events.length, frames.length)))
  | .closing frames => toLex (2, toLex (0, toLex (0, frames.length)))
  | .reporting _ frames => toLex (1, toLex (0, toLex (0, frames.length)))
  | .finished _ _ => toLex (0, toLex (0, toLex (0, 0)))

variable {decoder_of encoder_of upstream_protocol}

theorem report_weight (encoder : τ) (error : GatewayError) {n : Nat} (hn : 1 < n) (rest : Nat ×ₗ Nat ×ₗ Nat) :
    (report (σ := σ) encoder_of encoder error).weight < toLex (n, rest) := by
  unfold report
  split
  · exact Prod.Lex.toLex_lt_toLex.mpr (.inl hn)
  · exact Prod.Lex.toLex_lt_toLex.mpr (.inl (Nat.zero_lt_of_lt hn))

theorem end_of_upstream_weight (decoder : σ) (encoder : τ) (saw_done : Bool) (rest : Nat ×ₗ Nat ×ₗ Nat) :
    (end_of_upstream decoder_of encoder_of upstream_protocol decoder encoder saw_done).weight < toLex (4, rest) := by
  unfold end_of_upstream
  split
  · exact report_weight encoder _ (by decide) rest
  · split
    · exact Prod.Lex.toLex_lt_toLex.mpr (.inl (Nat.lt_succ_self _))
    · exact report_weight encoder _ (by decide) rest

theorem read_weight (decoder : σ) (encoder : τ) (saw_done : Bool) (upstream : List (Except GatewayError Sse))
    (item : Except GatewayError Sse) :
    (read decoder_of encoder_of decoder encoder saw_done upstream item).weight <
      (Relay.reading decoder encoder saw_done (item :: upstream) [] []).weight := by
  unfold read
  split
  · exact report_weight encoder _ (by decide) _
  · split
    · simp [Relay.weight, Prod.Lex.toLex_lt_toLex]
    · exact report_weight encoder _ (by decide) _

theorem pass_weight (decoder : σ) (encoder : τ) (saw_done : Bool) (upstream : List (Except GatewayError Sse))
    (event : StreamEvent) (events : List StreamEvent) :
    (pass encoder_of decoder encoder saw_done upstream event events).weight <
      (Relay.reading decoder encoder saw_done upstream (event :: events) []).weight := by
  unfold pass
  split
  · exact report_weight encoder _ (by decide) _
  · split
    · simp [Relay.weight, Prod.Lex.toLex_lt_toLex]
    · exact report_weight _ _ (by decide) _

theorem drain_weight (encoder : τ) (event : StreamEvent) (events : List StreamEvent) :
    (drain (σ := σ) encoder_of encoder event events).weight <
      (Relay.draining (σ := σ) encoder (event :: events) []).weight := by
  unfold drain
  split
  · simp [Relay.weight, Prod.Lex.toLex_lt_toLex]
  · exact report_weight _ _ (by decide) _

theorem close_weight (encoder : τ) (rest : Nat ×ₗ Nat ×ₗ Nat) :
    (close (σ := σ) encoder_of encoder).weight < toLex (3, rest) := by
  unfold close
  split
  · exact Prod.Lex.toLex_lt_toLex.mpr (.inl (Nat.lt_succ_self _))
  · exact report_weight _ _ (by decide) _

variable (decoder_of encoder_of upstream_protocol)

/-- All that a codec task can do while its client stays. -/
inductive Relay.Moves : Relay σ τ → Relay σ τ → Prop where
  | send (decoder : σ) (encoder : τ) (saw_done : Bool) (upstream : List (Except GatewayError Sse))
      (events : List StreamEvent) (frame : SseFrame) (frames : List SseFrame) :
    Moves (.reading decoder encoder saw_done upstream events (frame :: frames))
      (.reading decoder encoder saw_done upstream events frames)
  | pass (decoder : σ) (encoder : τ) (saw_done : Bool) (upstream : List (Except GatewayError Sse))
      (event : StreamEvent) (events : List StreamEvent) :
    Moves (.reading decoder encoder saw_done upstream (event :: events) [])
      (pass encoder_of decoder encoder saw_done upstream event events)
  | read (decoder : σ) (encoder : τ) (saw_done : Bool) (item : Except GatewayError Sse)
      (upstream : List (Except GatewayError Sse)) :
    Moves (.reading decoder encoder saw_done (item :: upstream) [] [])
      (read decoder_of encoder_of decoder encoder saw_done upstream item)
  | end_of_upstream (decoder : σ) (encoder : τ) (saw_done : Bool) :
    Moves (.reading decoder encoder saw_done [] [] [])
      (end_of_upstream decoder_of encoder_of upstream_protocol decoder encoder saw_done)
  | send_drained (encoder : τ) (events : List StreamEvent) (frame : SseFrame) (frames : List SseFrame) :
    Moves (.draining encoder events (frame :: frames)) (.draining encoder events frames)
  | drain (encoder : τ) (event : StreamEvent) (events : List StreamEvent) :
    Moves (.draining encoder (event :: events) []) (drain encoder_of encoder event events)
  | close (encoder : τ) : Moves (.draining encoder [] []) (close encoder_of encoder)
  | send_closing (frame : SseFrame) (frames : List SseFrame) : Moves (.closing (frame :: frames)) (.closing frames)
  | closed : Moves (.closing []) (.finished none false)
  | send_report (error : GatewayError) (frame : SseFrame) (frames : List SseFrame) :
    Moves (.reporting error (frame :: frames)) (.reporting error frames)
  | reported (error : GatewayError) : Moves (.reporting error []) (.finished (some error) false)

variable {decoder_of encoder_of upstream_protocol}

theorem Relay.moves_of_leads {r s : Relay σ τ} (hleads : (r.next decoder_of encoder_of upstream_protocol).Leads s) :
    r.Moves decoder_of encoder_of upstream_protocol s := by
  cases r with
  | reading decoder encoder saw_done upstream events frames =>
    cases frames with
    | cons frame frames =>
      obtain rfl := Next.leads_send.mp hleads
      exact .send decoder encoder saw_done upstream events frame frames
    | nil =>
      cases events with
      | cons event events =>
        obtain rfl := Next.leads_run.mp hleads
        exact .pass decoder encoder saw_done upstream event events
      | nil =>
        cases upstream with
        | cons item upstream =>
          obtain rfl := Next.leads_run.mp hleads
          exact .read decoder encoder saw_done item upstream
        | nil =>
          obtain rfl := Next.leads_run.mp hleads
          exact .end_of_upstream decoder encoder saw_done
  | draining encoder events frames =>
    cases frames with
    | cons frame frames =>
      obtain rfl := Next.leads_send.mp hleads
      exact .send_drained encoder events frame frames
    | nil =>
      cases events with
      | cons event events =>
        obtain rfl := Next.leads_run.mp hleads
        exact .drain encoder event events
      | nil =>
        obtain rfl := Next.leads_run.mp hleads
        exact .close encoder
  | closing frames =>
    cases frames with
    | cons frame frames =>
      obtain rfl := Next.leads_send.mp hleads
      exact .send_closing frame frames
    | nil =>
      obtain rfl := Next.leads_run.mp hleads
      exact .closed
  | reporting error frames =>
    cases frames with
    | cons frame frames =>
      obtain rfl := Next.leads_send.mp hleads
      exact .send_report error frame frames
    | nil =>
      obtain rfl := Next.leads_run.mp hleads
      exact .reported error
  | finished stream_error client_closed => exact hleads.elim

/-- Every step of the codec task brings it nearer to its end. -/
theorem next_weight (r s : Relay σ τ) (hleads : (r.next decoder_of encoder_of upstream_protocol).Leads s) :
    s.weight < r.weight := by
  cases Relay.moves_of_leads hleads with
  | send decoder encoder saw_done upstream events frame frames => simp [Relay.weight, Prod.Lex.toLex_lt_toLex]
  | pass decoder encoder saw_done upstream event events => exact pass_weight decoder encoder saw_done upstream event events
  | read decoder encoder saw_done item upstream => exact read_weight decoder encoder saw_done upstream item
  | end_of_upstream decoder encoder saw_done => exact end_of_upstream_weight decoder encoder saw_done _
  | send_drained encoder events frame frames => simp [Relay.weight, Prod.Lex.toLex_lt_toLex]
  | drain encoder event events => exact drain_weight encoder event events
  | close encoder => exact close_weight encoder _
  | send_closing frame frames => simp [Relay.weight, Prod.Lex.toLex_lt_toLex]
  | closed => exact Prod.Lex.toLex_lt_toLex.mpr (.inl (by decide))
  | send_report error frame frames => simp [Relay.weight, Prod.Lex.toLex_lt_toLex]
  | reported error => exact Prod.Lex.toLex_lt_toLex.mpr (.inl Nat.one_pos)

end Relay

end refract.gateway
