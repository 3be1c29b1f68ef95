import Refract.Gateway.Completion

open refract.codec refract.core refract.json refract.machine refract.router refract.stream

namespace refract.gateway

section Streams

variable {σ τ : Type} (D : Transducer σ SseFrame StreamEvent) (E : Transducer τ StreamEvent SseFrame)
  {upstream_protocol : Protocol} (hprotocol : upstream_protocol ≠ .gemini)

include hprotocol

/-- A stream without its end is cut off with an error: after the first error of
    the upstream, or where it ends. -/
theorem transcoded_truncated {sses : List Sse} (hopen : ∀ e ∈ D.emit D.init (sses.map Sse.frame), e.is_done = false) :
    ∃ events error, (∀ e ∈ events, e.is_terminal = false) ∧ events ⊆ D.emit D.init (sses.map Sse.frame) ∧
      error.kind = .upstreamError ∧
      transcoded D.fallible E.fallible upstream_protocol D.init E.init false (sses.map .ok) =
        ⟨E.emit E.init events ++ (E.step (E.advance E.init events) (error_event error)).2, some error⟩ := by
  have hterminal {e : StreamEvent} (hdone : e.is_done = false) (herror : e.is_error = false) : e.is_terminal = false := by
    cases e with
    | done => cases hdone
    | error message kind => cases herror
    | _ => rfl
  obtain ⟨-, hnone, -⟩ | ⟨event, hsplit, hevent, -⟩ := split_first (p := StreamEvent.is_error) (D.emit D.init (sses.map Sse.frame))
  · have hquiet : ∀ e ∈ D.emit D.init (sses.map Sse.frame), e.is_error = false := by
      rw [List.find?_eq_none] at hnone
      exact fun e he => by simpa using hnone e he
    have hincomplete : (false || (D.emit D.init (sses.map Sse.frame)).any StreamEvent.is_done) = false := by
      simpa using hopen
    have hrun := transcoded_quiet D E upstream_protocol D.init E.init false hquiet []
    rw [List.append_nil, transcoded, ended, hincomplete, if_pos ⟨hprotocol, rfl⟩] at hrun
    exact ⟨D.emit D.init (sses.map Sse.frame), _, fun e he => hterminal (hopen e he) (hquiet e he), fun e he => he, rfl, hrun⟩
  · cases event with
    | error message kind =>
      have hrun := transcoded_error D E upstream_protocol D.init E.init false hsplit (fun e he => of_mem_before he) []
      rw [List.append_nil] at hrun
      have hsubset : before StreamEvent.is_error (D.emit D.init (sses.map Sse.frame)) ⊆ D.emit D.init (sses.map Sse.frame) :=
        fun e he => hsplit ▸ List.mem_append_left _ he
      exact ⟨_, _, fun e he => hterminal (hopen e (hsubset he)) (of_mem_before he), hsubset, rfl, hrun⟩
    | _ => cases hevent

theorem relayed_truncated {chunks : List Bytes}
    (hopen : ∀ e ∈ D.emit D.init (parse_sse.outputs {} chunks), e.is_done = false) :
    ∃ error, (relayed D.fallible upstream_protocol ⟨{}, D.init, false⟩ (chunks.map .ok)).stream_error = some error ∧
      error.kind = .upstreamError := by
  by_cases hdisturbed : Disturbed D ⟨{}, D.init, false⟩ chunks
  · exact relayed_disturbed D upstream_protocol _ hdisturbed
  · have hincomplete : (false || (D.emit D.init (parse_sse.outputs {} chunks)).any StreamEvent.is_done) = false := by
      simpa using hopen
    rw [relayed_quiet D upstream_protocol _ hdisturbed]
    dsimp only
    rw [hincomplete, completion_error, if_pos ⟨hprotocol, rfl⟩]
    exact ⟨_, rfl, rfl⟩

end Streams

section Truncation

variable (serde : Serde) (uuid : String) (ids : Nat → String) (now : Int) (upstream_protocol inbound : Protocol)
  (affinity : Option AffinityDecision)

/-- In every run in which its client stays, a transcoded stream is logged as a
    failure of the upstream that speaks against the endpoint. The client is told
    of the error. Before that it sees the end of an answer only where the
    upstream gave a stop reason and the client's protocol passes it on at once;
    with the report it sees none but the sentinel of a Chat stream. -/
def TranscodedFails (upstream : List (Except GatewayError Sse)) : Prop :=
  let D := (stream_decoder serde uuid upstream_protocol).2
  let E := (stream_encoder serde ids now inbound).2
  ∀ s, (transcoded_stream_response upstream_protocol D.fallible E.fallible).Run (respond D.fallible E.fallible upstream) s →
    Completed upstream_protocol D.fallible E.fallible s →
    (∃ outcome, s.left.outcome affinity = some outcome ∧ outcome.Fails ∧ outcome.status = 502) ∧
      ∃ written report : List SseFrame, (Tasks.accepted s).filter Chunk.is_frame = (written ++ report).map .frame ∧
        (∃ f ∈ report, reports_error serde inbound f = true) ∧
        (∀ f ∈ written, ends_answer serde inbound f = true →
          (inbound = .chat ∨ inbound = .gemini) ∧
            ∃ e ∈ D.emit D.init ((upstream.filterMap Except.toOption).map Sse.frame), e.is_stop = true) ∧
        ∀ f ∈ report, ends_answer serde inbound f = true → inbound = .chat ∧ f = chat.ChatStreamEncoder.done_frame

/-- In every run in which its client stays, a native stream is logged as a
    failure of the upstream that speaks against the endpoint. -/
def NativeFails (upstream : List (Except GatewayError Bytes)) : Prop :=
  let D := (stream_decoder serde uuid upstream_protocol).2
  ∀ s, (relay_native_stream D.fallible upstream_protocol).Run (native_stream_response D.fallible upstream) s →
    s.channel.connected → (s.left.next D.fallible upstream_protocol).halts →
    ∃ outcome, s.left.outcome affinity = some outcome ∧ outcome.Fails ∧ outcome.status = 502

variable {serde} (hserde : serde.Lawful)

theorem outcome_of_upstream_error {error : GatewayError} (hkind : error.kind = .upstreamError) :
    (stream_outcome affinity (some error) false).Fails ∧ (stream_outcome affinity (some error) false).status = 502 := by
  refine ⟨stream_outcome_fails affinity (by rw [hkind]; rfl), ?_⟩
  simp only [stream_outcome, hkind]
  rfl

include hserde

/-- An upstream of the other protocols that ends without its completion. -/
theorem transcoded_truncated_fails (hprotocol : upstream_protocol ≠ .gemini) {sses : List Sse}
    (hsses : ∀ sse ∈ sses, completes serde upstream_protocol sse.frame = false) :
    TranscodedFails serde uuid ids now upstream_protocol inbound affinity (sses.map .ok) := by
  have hframes : ∀ f ∈ sses.map Sse.frame, completes serde upstream_protocol f = false := by simpa using hsses
  have hopen := decode_incomplete serde uuid upstream_protocol hframes
  obtain ⟨events, error, hevents, hsubset, hkind, hresult⟩ := transcoded_truncated
    (stream_decoder serde uuid upstream_protocol).2 (stream_encoder serde ids now inbound).2 hprotocol hopen
  have hE := stream_encoder_reportsErrors hserde ids now inbound
  have hread : ((sses.map Except.ok : List (Except GatewayError Sse)).filterMap Except.toOption) = sses := by
    rw [List.filterMap_map]
    exact List.filterMap_some
  intro s hrun hdone
  obtain ⟨hleft, haccepted⟩ := completed_transcoded hrun hdone
  rw [Transducer.fallible_init, Transducer.fallible_init, hresult] at hleft haccepted
  refine ⟨⟨_, by rw [hleft]; rfl, outcome_of_upstream_error affinity hkind⟩, ?_⟩
  refine ⟨_, _, haccepted, hE.report events hevents _ _, ?_, hE.report_open events hevents _ _⟩
  intro f hf hends
  obtain ⟨hpasses, e, he, hstop⟩ := hE.emit_open events hevents f hf hends
  rw [hread]
  exact ⟨hpasses, e, hsubset he, hstop⟩

omit hserde in
theorem native_truncated_fails (hprotocol : upstream_protocol ≠ .gemini) {chunks : List Bytes}
    (hchunks : ∀ f ∈ parse_sse.outputs {} chunks, completes serde upstream_protocol f = false) :
    NativeFails serde uuid upstream_protocol affinity (chunks.map .ok) := by
  have hopen := decode_incomplete serde uuid upstream_protocol hchunks
  obtain ⟨error, herror, hkind⟩ := relayed_truncated (stream_decoder serde uuid upstream_protocol).2 hprotocol hopen
  intro s hrun hconnected hhalts
  obtain ⟨hleft, -⟩ := completed_native hrun hconnected hhalts
  rw [Transducer.fallible_init, herror] at hleft
  exact ⟨_, by rw [hleft]; rfl, outcome_of_upstream_error affinity hkind⟩

/-- An undisturbed Gemini stream is complete, wherever it ends. -/
theorem gemini_end_completes {sses : List Sse}
    (hevents : ∀ e ∈ (stream_decoder serde uuid .gemini).2.emit (stream_decoder serde uuid .gemini).2.init (sses.map Sse.frame),
      e.is_error = false) :
    TranscodedSucceeds serde uuid ids now .gemini inbound affinity (sses.map .ok) := by
  rw [transcodedSucceeds_iff]
  dsimp only
  have hresult := transcoded_undisturbed (stream_decoder serde uuid .gemini).2 (stream_encoder serde ids now inbound).2
    .gemini (stream_decoder serde uuid .gemini).2.init (stream_encoder serde ids now inbound).2.init false hevents (.inl rfl)
  rw [hresult]
  refine ⟨rfl, emit_quiet inbound (stream_encoder_reportsErrors hserde ids now inbound) _ ?_⟩
  exact List.forall_mem_append.mpr ⟨hevents, finish_quiet serde uuid .gemini _⟩

omit hserde in
theorem gemini_native_end_completes {chunks : List Bytes}
    (hquiet : ¬ Disturbed (stream_decoder serde uuid .gemini).2 ⟨{}, (stream_decoder serde uuid .gemini).2.init, false⟩ chunks) :
    NativeSucceeds serde uuid .gemini affinity (chunks.map .ok) := by
  rw [nativeSucceeds_iff]
  dsimp only
  rw [relayed_quiet _ .gemini _ hquiet]
  rfl

include hserde

end Truncation

/-- The first part of an answer, as a Chat chunk. -/
def chat_part : Value := .object [("choices", .array [.object [("delta", .object [("content", .string "hel")])]])]

/-- The same as a Gemini chunk. -/
def gemini_part : Value :=
  .object [("candidates", .array [.object [("content", .object
    [("parts", .array [.object [("text", .string "hel")]])])]])]

/-- The decoder's events of the Gemini chunk. -/
theorem decode_gemini_part (event : Option String) :
    (codec.gemini.stream_decoder Serde.compact "").emit {} [⟨event, Serde.compact.to_string gemini_part⟩] =
      [.start "gemini-" "" none, .contentStart 0 .text, .textDelta 0 "hel"] := by
  have hwf : gemini_part.WellFormed := by simp [gemini_part]
  have hempty := Serde.compact_lawful.to_string_ne_empty hwf
  have hdone := Serde.compact_lawful.to_string_ne_done hwf
  rw [Transducer.emit_cons, codec.gemini.stream_decoder_step]
  simp only [codec.gemini.GeminiStreamDecoder.decode, Serde.compact_lawful.trim_to_string _ hwf, hempty, hdone, or_self,
    if_false, Serde.compact_lawful.from_str_to_string _ hwf]
  rfl

end refract.gateway
