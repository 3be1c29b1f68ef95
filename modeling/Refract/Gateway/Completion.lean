import Refract.Codec.Wire
import Refract.Gateway.Delivery

open refract.codec refract.core refract.json refract.machine refract.router refract.stream

namespace refract.gateway

/-- What a codec task that has finished leaves behind. -/
def Relay.outcome {σ τ : Type} (affinity : Option AffinityDecision) : Relay σ τ → Option StreamOutcome
  | .finished stream_error client_closed => some (stream_outcome affinity stream_error client_closed)
  | _ => none

def NativeRelay.outcome {σ : Type} (affinity : Option AffinityDecision) : NativeRelay σ → Option StreamOutcome
  | .finished stream_error client_closed => some (stream_outcome affinity stream_error client_closed)
  | .relaying _ _ => none

/-- Some frame of an upstream was decoded into its end, and none into an error. -/
def CompletedBy {σ : Type} (D : Transducer σ SseFrame StreamEvent) (frames : List SseFrame) : Prop :=
  (∀ e ∈ D.emit D.init frames, e.is_error = false) ∧ (D.emit D.init frames).any StreamEvent.is_done = true

/-- A transport that does not fail and frames that are no errors. -/
def Undisturbed {σ : Type} (D : Transducer σ SseFrame StreamEvent) (decoder : σ) (upstream : List (Except GatewayError Sse)) :
    Prop :=
  ∃ sses : List Sse, upstream = sses.map .ok ∧ ∀ e ∈ D.emit decoder (sses.map Sse.frame), e.is_error = false

/-- A transport that does not fail, bytes that are text and frames that are no errors. -/
def NativeUndisturbed {σ : Type} (D : Transducer σ SseFrame StreamEvent) (self : Inspector σ)
    (upstream : List (Except GatewayError Bytes)) : Prop :=
  ∃ chunks : List Bytes, upstream = chunks.map .ok ∧ ¬ Disturbed D self chunks

section Streams

variable {σ τ : Type} (D : Transducer σ SseFrame StreamEvent) (E : Transducer τ StreamEvent SseFrame)
  (upstream_protocol : Protocol)

/-- A transcoded stream ends without an error when nothing disturbs it and it
    is complete. It is then encoded event by event. -/
theorem transcoded_undisturbed (decoder : σ) (encoder : τ) (saw_done : Bool) {sses : List Sse}
    (hevents : ∀ e ∈ D.emit decoder (sses.map Sse.frame), e.is_error = false)
    (hdone : upstream_protocol = .gemini ∨ (saw_done || (D.emit decoder (sses.map Sse.frame)).any StreamEvent.is_done) = true) :
    transcoded D.fallible E.fallible upstream_protocol decoder encoder saw_done (sses.map .ok) =
      ⟨E.emit encoder (D.emit decoder (sses.map Sse.frame) ++ (D.finish (D.advance decoder (sses.map Sse.frame))).2) ++
        (E.finish (E.advance encoder (D.emit decoder (sses.map Sse.frame) ++
          (D.finish (D.advance decoder (sses.map Sse.frame))).2))).2, none⟩ := by
  have hrun := transcoded_quiet D E upstream_protocol decoder encoder saw_done hevents []
  rw [List.append_nil] at hrun
  have hcomplete : ¬ (upstream_protocol ≠ .gemini ∧
      (saw_done || (D.emit decoder (sses.map Sse.frame)).any StreamEvent.is_done) = false) := by
    rintro ⟨hprotocol, hmissing⟩
    rcases hdone with hgemini | hdone
    · exact hprotocol hgemini
    · rw [hmissing] at hdone
      cases hdone
  rw [hrun, transcoded, ended, if_neg hcomplete, Transducer.fallible_finish]
  simp only [drained_fallible, Transcoded.prepend, Transducer.emit_append, Transducer.advance_append, List.append_assoc]

/-- A stream with a failed transport or an error in a frame ends in an error. -/
theorem transcoded_disturbed (decoder : σ) (encoder : τ) (saw_done : Bool) {upstream : List (Except GatewayError Sse)}
    (h : ¬ Undisturbed D decoder upstream) :
    (transcoded D.fallible E.fallible upstream_protocol decoder encoder saw_done upstream).stream_error ≠ none := by
  induction upstream generalizing decoder encoder saw_done with
  | nil => exact absurd ⟨[], rfl, by simp⟩ h
  | cons item upstream ih =>
    cases item with
    | error error => simp [transcoded, reported_fallible]
    | ok sse =>
      by_cases hframe : ∀ e ∈ (D.step decoder sse.frame).2, e.is_error = false
      · simp only [transcoded, Transducer.fallible_step, passed_quiet E _ encoder saw_done hframe,
          Transcoded.prepend_stream_error]
        apply ih
        rintro ⟨sses, rfl, hrest⟩
        apply h
        refine ⟨sse :: sses, rfl, ?_⟩
        rw [List.map_cons, Transducer.emit_cons, List.forall_mem_append]
        exact ⟨hframe, hrest⟩
      · obtain ⟨_, hnone, _⟩ | ⟨event, hsplit, hevent, _⟩ := split_first (p := StreamEvent.is_error) (D.step decoder sse.frame).2
        · rw [List.find?_eq_none] at hnone
          exact absurd (fun e he => by simpa using hnone e he) hframe
        · cases event with
          | error message kind =>
            simp only [transcoded, Transducer.fallible_step]
            rw [hsplit, passed_error E _ encoder saw_done fun e he => of_mem_before he]
            simp [reported_fallible]
          | _ => cases hevent

theorem undisturbed_append {sses : List Sse} (hevents : ∀ e ∈ D.emit D.init (sses.map Sse.frame), e.is_error = false)
    (rest : List (Except GatewayError Sse)) :
    Undisturbed D D.init (sses.map .ok ++ rest) ↔ Undisturbed D (D.advance D.init (sses.map Sse.frame)) rest := by
  constructor
  · rintro ⟨all, hall, hquiet⟩
    obtain ⟨front, back, rfl, hfront, hback⟩ := List.map_eq_append_iff.mp hall.symm
    obtain rfl : front = sses := by
      apply List.map_injective_iff.mpr (fun _ _ h => Except.ok.inj h) hfront
    refine ⟨back, hback.symm, ?_⟩
    rw [List.map_append, Transducer.emit_append, List.forall_mem_append] at hquiet
    exact hquiet.2
  · rintro ⟨back, rfl, hquiet⟩
    refine ⟨sses ++ back, by rw [List.map_append], ?_⟩
    rw [List.map_append, Transducer.emit_append, List.forall_mem_append]
    exact ⟨hevents, hquiet⟩

theorem disturbed_append (self : Inspector σ) {chunks more : List Bytes} (hok : parse_sse.failure self.parser chunks = none)
    (hevents : ∀ e ∈ D.emit self.decoder (parse_sse.emit self.parser chunks), e.is_error = false) (saw_done : Bool) :
    Disturbed D self (chunks ++ more) ↔
      Disturbed D ⟨parse_sse.advance self.parser chunks, D.advance self.decoder (parse_sse.emit self.parser chunks), saw_done⟩
        more := by
  obtain ⟨-, hclosing, houtputs⟩ := Fallible.run_append hok more
  unfold Disturbed
  rw [hclosing, houtputs, Transducer.emit_append]
  apply or_congr_right
  constructor
  · rintro ⟨e, he, herror⟩
    rcases List.mem_append.mp he with he | he
    · rw [hevents e he] at herror
      cases herror
    · exact ⟨e, he, herror⟩
  · rintro ⟨e, he, herror⟩
    exact ⟨e, List.mem_append_right _ he, herror⟩

end Streams

section Completion

variable (serde : Serde) (uuid : String) (ids : Nat → String) (now : Int) (upstream_protocol inbound : Protocol)
  (affinity : Option AffinityDecision)

/-- A transcoded stream is a success for the log, the endpoint and the affinity,
    and the client is told of no error, in every run in which it stays. -/
def TranscodedSucceeds (upstream : List (Except GatewayError Sse)) : Prop :=
  ∀ s, (transcoded_stream_response upstream_protocol (stream_decoder serde uuid upstream_protocol).2.fallible
      (stream_encoder serde ids now inbound).2.fallible).Run
      (respond (stream_decoder serde uuid upstream_protocol).2.fallible (stream_encoder serde ids now inbound).2.fallible
        upstream) s →
    Completed upstream_protocol (stream_decoder serde uuid upstream_protocol).2.fallible
      (stream_encoder serde ids now inbound).2.fallible s →
    (∃ outcome, s.left.outcome affinity = some outcome ∧ outcome.Succeeds) ∧
      ∀ f, .frame f ∈ Tasks.accepted s → reports_error serde inbound f = false

/-- A native stream is a success in the same sense. The client is sent nothing
    but the upstream's own bytes. -/
def NativeSucceeds (upstream : List (Except GatewayError Bytes)) : Prop :=
  ∀ s, (relay_native_stream (stream_decoder serde uuid upstream_protocol).2.fallible upstream_protocol).Run
      (native_stream_response (stream_decoder serde uuid upstream_protocol).2.fallible upstream) s →
    s.channel.connected →
    (s.left.next (stream_decoder serde uuid upstream_protocol).2.fallible upstream_protocol).halts →
    (∃ outcome, s.left.outcome affinity = some outcome ∧ outcome.Succeeds) ∧
      (Tasks.accepted s).map .ok <+: upstream

variable {serde} (hserde : serde.Lawful)

/-- Frames that are written for events without an error report none. -/
theorem emit_quiet {E : (τ : Type) × Transducer τ StreamEvent SseFrame} (hE : ReportsErrors serde inbound E.2) (encoder : E.1)
    {events : List StreamEvent} (hevents : ∀ e ∈ events, e.is_error = false) :
    ∀ f ∈ E.2.emit encoder events ++ (E.2.finish (E.2.advance encoder events)).2, reports_error serde inbound f = false := by
  have hemit := (Transducer.emit_forall (T := E.2) (P := fun _ => True)
    (fun s e _ he => ⟨trivial, hE.quiet_step s e he⟩) trivial (s := encoder) events hevents).2
  intro f hf
  rcases List.mem_append.mp hf with hf | hf
  · exact hemit f hf
  · exact hE.quiet_finish _ f hf

/-- A stream that is a success has ended without an error, and the other way
    round where its frames report none. -/
theorem transcodedSucceeds_iff (upstream : List (Except GatewayError Sse)) :
    TranscodedSucceeds serde uuid ids now upstream_protocol inbound affinity upstream ↔
      let D := (stream_decoder serde uuid upstream_protocol).2
      let E := (stream_encoder serde ids now inbound).2
      let result := transcoded D.fallible E.fallible upstream_protocol D.init E.init false upstream
      result.stream_error = none ∧ ∀ f ∈ result.frames, reports_error serde inbound f = false := by
  have hframes {frames : List SseFrame}
      {s : Shared (Relay (stream_decoder serde uuid upstream_protocol).1 (stream_encoder serde ids now inbound).1) KeepAlive
        Chunk CHANNEL_CAPACITY}
      (h : (Tasks.accepted s).filter Chunk.is_frame = frames.map .frame) (f : SseFrame) : .frame f ∈ Tasks.accepted s ↔ f ∈ frames := by
    have hmem : Chunk.frame f ∈ (Tasks.accepted s).filter Chunk.is_frame ↔ .frame f ∈ Tasks.accepted s := by
      simp [Chunk.is_frame]
    rw [← hmem, h]
    simp
  dsimp only
  constructor
  · intro hsucceeds
    obtain ⟨s, hrun, hdone⟩ := exists_completed upstream_protocol
      (stream_decoder serde uuid upstream_protocol).2.fallible (stream_encoder serde ids now inbound).2.fallible upstream
    obtain ⟨hleft, haccepted⟩ := completed_transcoded hrun hdone
    obtain ⟨⟨outcome, houtcome, hsuccess⟩, hquiet⟩ := hsucceeds s hrun hdone
    rw [hleft] at houtcome
    obtain rfl := Option.some.inj houtcome
    exact ⟨(stream_outcome_succeeds affinity _).mp hsuccess, fun f hf => hquiet f ((hframes haccepted f).mpr hf)⟩
  · rintro ⟨hnone, hquiet⟩ s hrun hdone
    obtain ⟨hleft, haccepted⟩ := completed_transcoded hrun hdone
    refine ⟨⟨_, by rw [hleft]; rfl, (stream_outcome_succeeds affinity _).mpr hnone⟩, ?_⟩
    intro f hf
    exact hquiet f ((hframes haccepted f).mp hf)

omit hserde in
theorem nativeSucceeds_iff (upstream : List (Except GatewayError Bytes)) :
    NativeSucceeds serde uuid upstream_protocol affinity upstream ↔
      let D := (stream_decoder serde uuid upstream_protocol).2
      (relayed D.fallible upstream_protocol ⟨{}, D.init, false⟩ upstream).stream_error = none := by
  dsimp only
  constructor
  · intro hsucceeds
    obtain ⟨s, hrun, hconnected, hhalts⟩ := Tasks.exists_left_halts
      (T := relay_native_stream (stream_decoder serde uuid upstream_protocol).2.fallible upstream_protocol)
      (s := native_stream_response (stream_decoder serde uuid upstream_protocol).2.fallible upstream)
      (by decide) native_next_weight rfl
    obtain ⟨hleft, -⟩ := completed_native hrun hconnected hhalts
    obtain ⟨⟨outcome, houtcome, hsuccess⟩, -⟩ := hsucceeds s hrun hconnected hhalts
    rw [hleft] at houtcome
    obtain rfl := Option.some.inj houtcome
    exact (stream_outcome_succeeds affinity _).mp hsuccess
  · intro hnone s hrun hconnected hhalts
    obtain ⟨hleft, haccepted⟩ := completed_native hrun hconnected hhalts
    refine ⟨⟨_, by rw [hleft]; rfl, (stream_outcome_succeeds affinity _).mpr hnone⟩, ?_⟩
    rw [haccepted]
    exact relayed_prefix _ upstream

include hserde

/-- After its completion a transcoded stream remains a success exactly when
    nothing that follows disturbs it. -/
theorem transcoded_completion {sses : List Sse}
    (hcompleted : CompletedBy (stream_decoder serde uuid upstream_protocol).2 (sses.map Sse.frame))
    (rest : List (Except GatewayError Sse)) :
    TranscodedSucceeds serde uuid ids now upstream_protocol inbound affinity (sses.map .ok ++ rest) ↔
      let D := (stream_decoder serde uuid upstream_protocol).2
      Undisturbed D (D.advance D.init (sses.map Sse.frame)) rest := by
  obtain ⟨hevents, hdone⟩ := hcompleted
  rw [transcodedSucceeds_iff]
  dsimp only
  rw [← undisturbed_append _ hevents]
  constructor
  · rintro ⟨hnone, -⟩
    by_contra hdisturbed
    exact transcoded_disturbed _ _ upstream_protocol _ _ false hdisturbed hnone
  · rintro ⟨all, hall, hquiet⟩
    rw [hall]
    obtain ⟨front, back, rfl, hfront, -⟩ := List.map_eq_append_iff.mp hall.symm
    obtain rfl : front = sses := List.map_injective_iff.mpr (fun _ _ h => Except.ok.inj h) hfront
    have hsaw : ((stream_decoder serde uuid upstream_protocol).2.emit (stream_decoder serde uuid upstream_protocol).2.init
        ((front ++ back).map Sse.frame)).any StreamEvent.is_done = true := by
      rw [List.map_append, Transducer.emit_append, List.any_append, hdone, Bool.true_or]
    rw [transcoded_undisturbed _ _ upstream_protocol _ _ false hquiet (.inr hsaw)]
    refine ⟨rfl, emit_quiet inbound (stream_encoder_reportsErrors hserde ids now inbound) _ ?_⟩
    exact List.forall_mem_append.mpr ⟨hquiet, finish_quiet serde uuid upstream_protocol _⟩

omit hserde in
theorem native_completion {chunks : List Bytes} (hok : parse_sse.failure {} chunks = none)
    (hcompleted : CompletedBy (stream_decoder serde uuid upstream_protocol).2 (parse_sse.emit {} chunks))
    (rest : List (Except GatewayError Bytes)) :
    NativeSucceeds serde uuid upstream_protocol affinity (chunks.map .ok ++ rest) ↔
      let D := (stream_decoder serde uuid upstream_protocol).2
      NativeUndisturbed D ⟨parse_sse.advance {} chunks, D.advance D.init (parse_sse.emit {} chunks), true⟩ rest := by
  obtain ⟨hevents, hdone⟩ := hcompleted
  rw [nativeSucceeds_iff]
  dsimp only
  constructor
  · intro hnone
    obtain ⟨all, hall⟩ := relayed_complete _ upstream_protocol _ hnone
    obtain ⟨front, back, rfl, hfront, hback⟩ := List.map_eq_append_iff.mp hall.symm
    obtain rfl : front = chunks := List.map_injective_iff.mpr (fun _ _ h => Except.ok.inj h) hfront
    refine ⟨back, hback.symm, ?_⟩
    rw [← disturbed_append _ ⟨{}, (stream_decoder serde uuid upstream_protocol).2.init, false⟩ hok hevents true]
    intro hdisturbed
    obtain ⟨error, herror, -⟩ := relayed_disturbed _ upstream_protocol _ hdisturbed
    rw [hall, herror] at hnone
    cases hnone
  · rintro ⟨back, rfl, hquiet⟩
    rw [← disturbed_append _ ⟨{}, (stream_decoder serde uuid upstream_protocol).2.init, false⟩ hok hevents true]
      at hquiet
    rw [← List.map_append, relayed_quiet _ upstream_protocol _ hquiet]
    have hsaw : ((stream_decoder serde uuid upstream_protocol).2.emit (stream_decoder serde uuid upstream_protocol).2.init
        (parse_sse.outputs {} (chunks ++ back))).any StreamEvent.is_done = true := by
      rw [(Fallible.run_append hok back).2.2, Transducer.emit_append, List.any_append, hdone, Bool.true_or]
    simp [completion_error, hsaw]

/-- Once an upstream has ended its answer, both paths keep the stream a success
    exactly when nothing that still arrives disturbs it. -/
theorem completion_final_iff {sses : List Sse}
    (hsses : CompletedBy (stream_decoder serde uuid upstream_protocol).2 (sses.map Sse.frame))
    {chunks : List Bytes} (hok : parse_sse.failure {} chunks = none)
    (hchunks : CompletedBy (stream_decoder serde uuid upstream_protocol).2 (parse_sse.emit {} chunks))
    (rest : List (Except GatewayError Sse)) (native_rest : List (Except GatewayError Bytes)) :
    let D := (stream_decoder serde uuid upstream_protocol).2
    (TranscodedSucceeds serde uuid ids now upstream_protocol inbound affinity (sses.map .ok ++ rest) ↔
        Undisturbed D (D.advance D.init (sses.map Sse.frame)) rest) ∧
      (NativeSucceeds serde uuid upstream_protocol affinity (chunks.map .ok ++ native_rest) ↔
        NativeUndisturbed D ⟨parse_sse.advance {} chunks, D.advance D.init (parse_sse.emit {} chunks), true⟩ native_rest) :=
  ⟨transcoded_completion uuid ids now upstream_protocol inbound affinity hserde hsses rest,
    native_completion uuid upstream_protocol affinity hok hchunks native_rest⟩

end Completion

theorem completedBy_sentinel (event : Option String) :
    CompletedBy (stream_decoder Serde.compact "" .chat).2 [⟨event, "[DONE]"⟩] := by
  have htrim : trim "[DONE]" = "[DONE]" := by decide
  have hevents : (codec.chat.stream_decoder Serde.compact).emit {} [⟨event, "[DONE]"⟩] = [.done] := by
    rw [Transducer.emit_cons, codec.chat.stream_decoder_step]
    simp [codec.chat.ChatStreamDecoder.decode, htrim, codec.chat.DONE_SENTINEL, codec.chat.ChatStreamDecoder.decode_done,
      codec.chat.ChatStreamDecoder.flush_undeclared_tools]
  have hcompleted : CompletedBy (codec.chat.stream_decoder Serde.compact) [⟨event, "[DONE]"⟩] := by
    rw [CompletedBy, codec.chat.stream_decoder_init, hevents]
    decide
  exact hcompleted

/-- A Chat stream that has ended, over both paths. -/
theorem ended_chat_succeeds :
    TranscodedSucceeds Serde.compact "" (fun _ => "0") 0 .chat .messages none
        ([⟨"message", "[DONE]"⟩].map .ok ++ []) ∧
      NativeSucceeds Serde.compact "" .chat none ([as_bytes "data: [DONE]\n\n"].map .ok ++ []) := by
  have hframes : parse_sse.emit {} [as_bytes "data: [DONE]\n\n"] = [⟨none, "[DONE]"⟩] := by decide +kernel
  have hlast : parse_sse.outputs (parse_sse.advance {} [as_bytes "data: [DONE]\n\n"]) [] = [] := by decide +kernel
  have hclosing : parse_sse.closing (parse_sse.advance {} [as_bytes "data: [DONE]\n\n"]) [] = .ok [] := by
    decide +kernel
  have hok : parse_sse.failure {} [as_bytes "data: [DONE]\n\n"] = none := by decide +kernel
  have hsse : CompletedBy (stream_decoder Serde.compact "" .chat).2 ([⟨"message", "[DONE]"⟩].map Sse.frame) :=
    completedBy_sentinel (some "message")
  obtain ⟨htranscoded, hnative⟩ := completion_final_iff "" (fun _ => "0") 0 .chat .messages none Serde.compact_lawful
    hsse hok (hframes ▸ completedBy_sentinel none) [] []
  refine ⟨htranscoded.mpr ⟨[], rfl, by simp⟩, hnative.mpr ⟨[], rfl, ?_⟩⟩
  rintro (⟨error, herror⟩ | ⟨e, he, -⟩)
  · rw [hclosing] at herror
    cases herror
  · rw [hlast] at he
    cases he

/-- A connection that breaks off after the end of the answer. -/
theorem broken_after_done_fails :
    CompletedBy (stream_decoder Serde.compact "" .chat).2 ([⟨"message", "[DONE]"⟩].map Sse.frame) ∧
      ¬ TranscodedSucceeds Serde.compact "" (fun _ => "0") 0 .chat .messages none
        ([⟨"message", "[DONE]"⟩].map .ok ++ [.error (.new .upstreamError "connection reset")]) := by
  have hdone : CompletedBy (stream_decoder Serde.compact "" .chat).2 ([⟨"message", "[DONE]"⟩].map Sse.frame) :=
    completedBy_sentinel (some "message")
  refine ⟨hdone, ?_⟩
  rw [transcoded_completion "" (fun _ => "0") 0 .chat .messages none Serde.compact_lawful hdone]
  rintro ⟨sses, hsses, -⟩
  cases sses with
  | nil => cases hsses
  | cons sse sses => cases (List.cons.inj hsses).1

end refract.gateway
