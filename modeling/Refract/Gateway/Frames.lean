import Refract.Codec.Wire
import Refract.Json.RoundTrip
import Refract.Stream.Render

open refract.core refract.json refract.ir refract.machine refract.stream refract.codec

namespace refract.gateway

/-- A protocol frame as text of the body sent to the client. -/
def sse_bytes (frame : SseFrame) : Bytes :=
  as_bytes ((frame.event.map fun name => "event: " ++ name ++ "\n").getD "" ++ "data: " ++ frame.data ++ "\n\n")

/-- Data of one line has a single line after the field's name. -/
theorem sse_bytes_eq_render {frame : SseFrame} (hdata : '\n' ∉ frame.data.toList) :
    sse_bytes frame = as_bytes frame.render := by
  have hlines : frame.data_lines = [frame.data] := by
    rw [SseFrame.data_lines, List.splitOn_eq_singleton hdata, List.map_singleton, String.ofList_toList]
  have hjoin (line : String) : String.join ["data: " ++ line ++ "\n"] = "data: " ++ line ++ "\n" := by simp
  have hend : ("\n\n" : String) = "\n" ++ "\n" := rfl
  rw [sse_bytes, SseFrame.render, hlines, List.map_singleton, hjoin, hend]
  simp only [String.append_assoc]

section Written

variable (serde : Serde)

/-- The frame holds one document, or the sentinel. -/
def Written (frame : SseFrame) : Prop := frame.data = chat.DONE_SENTINEL ∨ ∃ v, frame.data = serde.to_string v

theorem Written.one_line {frame : SseFrame} (hserde : serde.OneLine) (hframe : Written serde frame) :
    '\n' ∉ frame.data.toList := by
  rcases hframe with hdone | ⟨v, hv⟩
  · rw [hdone]
    decide
  · rw [hv]
    exact hserde v

theorem written_value (event : Option String) (v : Value) : Written serde ⟨event, serde.to_string v⟩ := .inr ⟨v, rfl⟩

section Chat

open chat chat.ChatStreamEncoder

variable (self : ChatStreamEncoder)

theorem chat_openStream_written : ∀ f ∈ (self.openStream serde).2, Written serde f := by
  unfold openStream
  split
  · simp
  · exact List.forall_mem_singleton.mpr (written_value serde _ _)

theorem chat_write_delta_written (delta : Map) : ∀ f ∈ (self.write_delta serde delta).2, Written serde f :=
  List.forall_mem_append.mpr
    ⟨chat_openStream_written serde self, List.forall_mem_singleton.mpr (written_value serde _ _)⟩

theorem chat_write_tool_call_written (index : Nat) (call : Map) :
    ∀ f ∈ (self.write_tool_call serde index call).2, Written serde f :=
  List.forall_mem_append.mpr
    ⟨chat_openStream_written serde self, List.forall_mem_singleton.mpr (written_value serde _ _)⟩

theorem chat_wrap_up_written : ∀ f ∈ (self.wrap_up serde).2, Written serde f := by
  unfold ChatStreamEncoder.wrap_up
  split
  · simp
  · refine List.forall_mem_append.mpr ⟨List.forall_mem_append.mpr ⟨?_, ?_⟩, List.forall_mem_singleton.mpr (.inl rfl)⟩
    · split
      · exact List.forall_mem_singleton.mpr (written_value serde _ _)
      · simp
    · split
      · exact List.forall_mem_singleton.mpr (written_value serde _ _)
      · simp

theorem chat_encode_written (e : StreamEvent) : ∀ f ∈ (self.encode serde e).2, Written serde f := by
  cases e with
  | start id model usage => exact chat_openStream_written serde _
  | textDelta index text | thinkingDelta index text | thinkingSignature index text | refusalDelta index text =>
    exact chat_write_delta_written serde self _
  | toolCallStart index id name signature => exact chat_write_tool_call_written serde self index _
  | toolCallArgsDelta index fragment => exact chat_write_tool_call_written serde self index _
  | stop reason stop_sequence =>
    exact List.forall_mem_append.mpr
      ⟨chat_openStream_written serde self, List.forall_mem_singleton.mpr (written_value serde _ _)⟩
  | done => exact chat_wrap_up_written serde self
  | error message kind =>
    refine List.forall_mem_cons.mpr ⟨written_value serde _ _, ?_⟩
    split
    · simp
    · exact List.forall_mem_singleton.mpr (.inl rfl)
  | usage usage | contentStart index kind | contentStop index | ping => simp [ChatStreamEncoder.encode]

end Chat

section Messages

open messages messages.MessagesStreamEncoder

variable (uuid : Nat → String) (self : MessagesStreamEncoder)

theorem messages_ensure_started_written : ∀ f ∈ (self.ensure_started serde uuid).2, Written serde f := by
  unfold MessagesStreamEncoder.ensure_started
  split
  · simp
  · split <;> exact List.forall_mem_singleton.mpr (written_value serde _ _)

theorem messages_close_open_written : ∀ f ∈ (self.close_open serde).2, Written serde f := by
  unfold close_open
  split
  · exact List.forall_mem_singleton.mpr (written_value serde _ _)
  · simp

theorem messages_open_block_written (index : Nat) (kind : PartKind) :
    ∀ f ∈ (self.open_block serde uuid index kind).2.2, Written serde f := by
  unfold open_block
  dsimp only
  split
  · exact messages_ensure_started_written serde uuid self
  · exact List.forall_mem_append.mpr
      ⟨List.forall_mem_append.mpr ⟨messages_ensure_started_written serde uuid self, messages_close_open_written serde _⟩,
        List.forall_mem_singleton.mpr (written_value serde _ _)⟩

theorem messages_open_tool_block_written (index : Nat) (id name : String) :
    ∀ f ∈ (self.open_tool_block serde uuid index id name).2.2, Written serde f :=
  List.forall_mem_append.mpr
    ⟨List.forall_mem_append.mpr ⟨messages_ensure_started_written serde uuid self, messages_close_open_written serde _⟩,
      List.forall_mem_singleton.mpr (written_value serde _ _)⟩

theorem messages_write_delta_written (index : Nat) (kind : PartKind) (delta : Map) :
    ∀ f ∈ (self.write_delta serde uuid index kind delta).2, Written serde f :=
  List.forall_mem_append.mpr
    ⟨messages_open_block_written serde uuid self index kind, List.forall_mem_singleton.mpr (written_value serde _ _)⟩

theorem messages_write_fragment_written (index : Nat) (fragment : String) :
    ∀ f ∈ (self.write_fragment serde uuid index fragment).2, Written serde f := by
  unfold MessagesStreamEncoder.write_fragment
  dsimp only
  split
  · exact List.forall_mem_singleton.mpr (written_value serde _ _)
  · exact List.forall_mem_append.mpr
      ⟨messages_open_tool_block_written serde uuid _ index "" "",
        List.forall_mem_singleton.mpr (written_value serde _ _)⟩

theorem messages_wrap_up_written : ∀ f ∈ (self.wrap_up serde uuid).2, Written serde f := by
  unfold MessagesStreamEncoder.wrap_up
  split
  · simp
  · refine List.forall_mem_append.mpr ⟨List.forall_mem_append.mpr ⟨messages_ensure_started_written serde uuid _,
      messages_close_open_written serde _⟩, List.forall_mem_cons.mpr ⟨written_value serde _ _, ?_⟩⟩
    exact List.forall_mem_singleton.mpr (written_value serde _ _)

theorem messages_encode_written (e : StreamEvent) : ∀ f ∈ (self.encode serde uuid e).2, Written serde f := by
  unfold MessagesStreamEncoder.encode
  split
  · simp
  · cases e with
    | start id model usage => exact messages_ensure_started_written serde uuid _
    | contentStart index kind =>
      dsimp only
      split
      · simp
      · exact messages_open_block_written serde uuid self index kind
    | textDelta index text | thinkingDelta index text | thinkingSignature index text | refusalDelta index text =>
      exact messages_write_delta_written serde uuid self index _ _
    | toolCallStart index id name signature => exact messages_open_tool_block_written serde uuid self index id name
    | toolCallArgsDelta index fragment => exact messages_write_fragment_written serde uuid self index fragment
    | contentStop index =>
      dsimp only [stop_block]
      split
      · exact messages_close_open_written serde _
      · simp
    | done => exact messages_wrap_up_written serde uuid self
    | ping | error message kind => exact List.forall_mem_singleton.mpr (written_value serde _ _)
    | usage usage | stop reason stop_sequence => simp

end Messages

section Responses

open responses responses.ResponsesStreamEncoder

variable (uuid : String) (now : Int) (self : ResponsesStreamEncoder)

/-- Every notice becomes one document. -/
theorem responses_emit_written (notices : List Notice) : ∀ f ∈ (self.emit serde notices).2, Written serde f :=
  List.forall_mem_map.mpr fun _ _ => written_value serde _ _

theorem responses_encode_written (e : StreamEvent) : ∀ f ∈ (self.encode serde uuid now e).2, Written serde f := by
  unfold ResponsesStreamEncoder.encode
  split
  · simp
  · exact responses_emit_written serde _ _

theorem responses_finish_written : ∀ f ∈ (self.finish serde uuid now).2, Written serde f := by
  unfold ResponsesStreamEncoder.finish
  split
  · exact responses_emit_written serde _ _
  · simp

end Responses

section Gemini

open gemini gemini.GeminiStreamEncoder

variable (self : GeminiStreamEncoder)

theorem gemini_flush_written (index : Nat) : ∀ f ∈ (self.flush_tool_call serde index).2, Written serde f := by
  intro f hf
  simp only [flush_tool_call, Option.mem_toList, Option.map_eq_some_iff] at hf
  obtain ⟨buf, -, rfl⟩ := hf
  exact written_value serde _ _

theorem gemini_encode_written (e : StreamEvent) : ∀ f ∈ (self.encode serde e).2, Written serde f := by
  cases e with
  | contentStop index => exact gemini_flush_written serde self index
  | textDelta index text | thinkingDelta index text | thinkingSignature index text | refusalDelta index text =>
    exact List.forall_mem_singleton.mpr (written_value serde _ _)
  | stop reason stop_sequence => exact List.forall_mem_singleton.mpr (written_value serde _ _)
  | error message kind => exact List.forall_mem_singleton.mpr (written_value serde _ _)
  | _ => simp [GeminiStreamEncoder.encode]

theorem gemini_finish_written : ∀ f ∈ (self.finish serde).2, Written serde f := by
  have hcalls := (Transducer.emit_forall (T := flushes serde) (P := fun _ => True) (Q := fun _ => True)
    (R := Written serde) (fun s i _ _ => ⟨trivial, gemini_flush_written serde s i⟩) trivial (s := self)
    (List.range (self.tool_calls.length % 4294967296)) (by simp)).2
  unfold GeminiStreamEncoder.finish
  dsimp only
  split
  · exact List.forall_mem_append.mpr ⟨hcalls, List.forall_mem_singleton.mpr (written_value serde _ _)⟩
  · refine List.forall_mem_append.mpr ⟨hcalls, ?_⟩
    intro f hf
    simp only [Option.mem_toList, Option.map_eq_some_iff] at hf
    obtain ⟨usage, -, rfl⟩ := hf
    exact written_value serde _ _

end Gemini

/-- A machine whose every answer is written writes nothing else. -/
theorem outputs_written {τ : Type} {T : Transducer τ StreamEvent SseFrame}
    (hstep : ∀ s e, ∀ f ∈ (T.step s e).2, Written serde f) (hfinish : ∀ s, ∀ f ∈ (T.finish s).2, Written serde f)
    (es : List StreamEvent) : ∀ f ∈ T.outputs es, Written serde f := by
  have hrun := (Transducer.emit_forall (P := fun _ => True) (Q := fun _ => True)
    (fun s e _ _ => ⟨trivial, hstep s e⟩) trivial (s := T.init) es (by simp)).2
  exact List.forall_mem_append.mpr ⟨hrun, hfinish _⟩

/-- Every encoder writes documents and sentinels only. -/
theorem stream_encoder_written (uuid : Nat → String) (now : Int) (protocol : Protocol) (es : List StreamEvent) :
    ∀ f ∈ (stream_encoder serde uuid now protocol).2.outputs es, Written serde f := by
  cases protocol with
  | chat => exact outputs_written serde (chat_encode_written serde) (chat_wrap_up_written serde) es
  | responses =>
    exact outputs_written serde (responses_encode_written serde _ now) (responses_finish_written serde _ now) es
  | messages => exact outputs_written serde (messages_encode_written serde uuid) (messages_wrap_up_written serde uuid) es
  | gemini =>
    have hstep := gemini.stream_encoder_step serde ▸ gemini_encode_written serde
    have hfinish := gemini.stream_encoder_finish serde ▸ gemini_finish_written serde
    exact outputs_written serde hstep hfinish es

/-- Reading undoes rendering, however the body's bytes are cut and its lines are
    ended, and the gateway writes the bytes of the rendering. -/
theorem rendered_frames_read_back (hserde : serde.OneLine) :
    (∀ (e : LineEnd) (frames : List SseFrame) (chunks : List Bytes), (∀ f ∈ frames, f.Renderable) →
      chunks.flatten = e.replace (frames.flatMap fun f => as_bytes f.render) →
      parse_sse.outputs parse_sse.init chunks = frames ∧ parse_sse.closing parse_sse.init chunks = .ok []) ∧
    ∀ (uuid : Nat → String) (now : Int) (protocol : Protocol) (events : List StreamEvent),
      ∀ frame ∈ (stream_encoder serde uuid now protocol).2.outputs events,
        sse_bytes frame = as_bytes frame.render := by
  refine ⟨fun e frames chunks hframes hchunks => parse_render e hframes hchunks, ?_⟩
  intro uuid now protocol events frame hframe
  exact sse_bytes_eq_render ((stream_encoder_written serde uuid now protocol events frame hframe).one_line serde hserde)

/-- One cut is inside a character and one between the two bytes of a line end. -/
theorem rendered_frames_read_back_cut :
    let frame : SseFrame := .named "é" "a\nb"
    let body := LineEnd.crlf.replace (as_bytes frame.render)
    parse_sse.outputs parse_sse.init [body.take 8, (body.drop 8).take 2, body.drop 10] = [frame] :=
  ((rendered_frames_read_back Serde.compact Serde.compact_oneLine).1 .crlf [.named "é" "a\nb"] _
    (List.forall_mem_singleton.mpr ⟨fun _ hev => Option.some.inj hev ▸ by decide, by decide⟩)
    (by decide +kernel)).1

end Written

end refract.gateway
