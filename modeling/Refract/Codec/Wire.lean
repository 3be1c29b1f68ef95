import Refract.Codec.Chat.Ending
import Refract.Codec.Chat.Terminal
import Refract.Codec.Gemini.Delivery
import Refract.Codec.Gemini.Terminal
import Refract.Codec.Messages.Conformance
import Refract.Codec.Messages.Terminal
import Refract.Codec.Protocols
import Refract.Codec.Responses.Terminal
import Refract.Json.Parse

open refract.core refract.json refract.ir refract.machine refract.stream

namespace refract.codec

/-- The condition under which a stream has one end, by its protocol. The end of
    a Gemini stream is the end of its connection. -/
def TerminatesOnce (serde : Serde) (protocol : Protocol) (frames : List SseFrame) : Prop :=
  match protocol with
  | .chat => chat.CompletesOnce serde frames
  | .responses => responses.CompletesOnce serde frames
  | .messages => ∀ f ∈ after (messages.marks_end serde) frames, messages.idle serde f = true
  | .gemini => True

/-- The events of a stream contain one end, and it is the last event, exactly
    when the stream terminates once. -/
theorem decode_all_endsWith_done (serde : Serde) (uuid : String) (protocol : Protocol) (frames : List SseFrame) :
    EndsWith StreamEvent.is_done (decode_all serde uuid protocol frames) ↔
      TerminatesOnce serde protocol frames := by
  cases protocol with
  | chat => exact chat.decode_endsWith_done serde frames
  | responses => exact responses.decode_endsWith_done serde frames
  | messages => exact messages.decode_endsWith_done serde frames
  | gemini => exact iff_of_true (gemini.decode_endsWith_done serde uuid frames) trivial

/-- A second sentinel of a Chat stream is a second end. -/
theorem repeated_sentinel_not_endsWith_done :
    ¬ EndsWith StreamEvent.is_done (decode_all Serde.compact "" .chat [.ofData "[DONE]", .ofData "[DONE]"]) := by
  have hevents : decode_all Serde.compact "" .chat [.ofData "[DONE]", .ofData "[DONE]"] = [.done, .done] := by
    decide
  rw [hevents]
  exact fun h => absurd ((EndsWith.singleton rfl).append_iff.mp h) (by simp)

/-- The decoder of a protocol, with the type of its states. -/
def stream_decoder (serde : Serde) (uuid : String) : Protocol → (σ : Type) × Transducer σ SseFrame StreamEvent
  | .chat => ⟨_, chat.stream_decoder serde⟩
  | .responses => ⟨_, responses.stream_decoder serde⟩
  | .messages => ⟨_, messages.stream_decoder serde⟩
  | .gemini => ⟨_, gemini.stream_decoder serde uuid⟩

/-- The encoder of a protocol, with the type of its states. -/
def stream_encoder (serde : Serde) (uuid : Nat → String) (now : Int) :
    Protocol → (τ : Type) × Transducer τ StreamEvent SseFrame
  | .chat => ⟨_, chat.stream_encoder serde (uuid 0) now⟩
  | .responses => ⟨_, responses.stream_encoder serde (uuid 0) now⟩
  | .messages => ⟨_, messages.stream_encoder serde uuid⟩
  | .gemini => ⟨_, gemini.stream_encoder serde⟩

/-- The frame completes a stream of an upstream. A Gemini stream is completed by
    the end of its connection. -/
def completes (serde : Serde) : Protocol → SseFrame → Bool
  | .chat, frame => chat.marks_end frame
  | .responses, frame => responses.completes serde frame
  | .messages, frame => messages.marks_end serde frame
  | .gemini, _ => false

/-- A client takes the frame for the report of an error. -/
def reports_error (serde : Serde) : Protocol → SseFrame → Bool
  | .chat, frame | .gemini, frame => (serde.from_str frame.data).any fun v => (v.get "error").isSome
  | .messages, frame | .responses, frame => frame.event = some "error"

/-- A client takes the frame for the normal end of an answer. -/
def ends_answer (serde : Serde) : Protocol → SseFrame → Bool
  | .chat, frame => chat.is_done frame || chat.has_finish_reason serde frame
  | .responses, frame => frame.event = some "response.completed" || frame.event = some "response.incomplete"
  | .messages, frame => frame.event = some "message_stop"
  | .gemini, frame => gemini.has_finish_reason serde frame

section Decoders

variable (serde : Serde) (uuid : String)

/-- Only a completing frame is decoded into the end of its stream. -/
theorem decode_incomplete (protocol : Protocol) {frames : List SseFrame}
    (hframes : ∀ f ∈ frames, completes serde protocol f = false) :
    ∀ e ∈ (stream_decoder serde uuid protocol).2.emit (stream_decoder serde uuid protocol).2.init frames,
      e.is_done = false := by
  have hrun {σ : Type} {D : Transducer σ SseFrame StreamEvent} {marks : SseFrame → Bool}
      (hstep : ∀ s f, marks f = false → ∀ e ∈ (D.step s f).2, e.is_done = false)
      (hmarks : ∀ f ∈ frames, marks f = false) : ∀ e ∈ D.emit D.init frames, e.is_done = false :=
    (Transducer.emit_forall (P := fun _ => True) (fun s f _ hf => ⟨trivial, hstep s f hf⟩) trivial frames hmarks).2
  cases protocol with
  | chat =>
    apply hrun (D := chat.stream_decoder serde) (fun s f hf => ?_) hframes
    rw [chat.stream_decoder_step]
    exact (s.decode_state serde f).2.2.1 hf
  | responses =>
    apply hrun (D := responses.stream_decoder serde) (fun s f hf => ?_) hframes
    rw [responses.stream_decoder_step]
    exact s.decode_quiet (.inr hf)
  | messages => exact ((messages.stream_decoder_closes serde).run frames hframes).2
  | gemini =>
    apply hrun (D := gemini.stream_decoder serde uuid) (fun s f hf => ?_) hframes
    rw [gemini.stream_decoder_step]
    exact (s.decode_quiet serde uuid f).2

theorem chat_finish_quiet (s : chat.ChatStreamDecoder) : ∀ e ∈ s.finish.2, e.is_error = false := by
  have hflushed (s : chat.ChatStreamDecoder) : ∀ e ∈ s.flush_undeclared_tools.2, e.is_error = false := by
    intro e he
    simp only [chat.ChatStreamDecoder.flush_undeclared_tools, List.mem_flatMap] at he
    obtain ⟨⟨slot, ti⟩, -, he⟩ := he
    dsimp only at he
    split at he
    · simp only [chat.ToolSlot.declaration, List.mem_cons, List.mem_map] at he
      rcases he with rfl | ⟨fragment, -, rfl⟩ <;> rfl
    · cases he
  unfold chat.ChatStreamDecoder.finish
  split
  · simp
  · intro e he
    rcases List.mem_append.mp he with he | he
    · exact hflushed _ e he
    · rw [List.mem_singleton.mp he]
      rfl

theorem gemini_finish_events_quiet (s : gemini.GeminiStreamDecoder) : ∀ e ∈ s.finish.2, e.is_error = false := by
  intro e he
  simp only [gemini.GeminiStreamDecoder.finish, List.mem_append, Option.mem_toList, Option.map_eq_some_iff] at he
  rcases he with ⟨kind, -, rfl⟩ | he
  · rfl
  · split at he
    · cases he
    · rw [List.mem_singleton.mp he]
      rfl

/-- What a decoder adds when its input ends is no error. -/
theorem finish_quiet (protocol : Protocol) (s : (stream_decoder serde uuid protocol).1) :
    ∀ e ∈ ((stream_decoder serde uuid protocol).2.finish s).2, e.is_error = false := by
  cases protocol with
  | chat => exact chat_finish_quiet s
  | responses =>
    have hfinish (s : responses.ResponsesStreamDecoder) : ∀ e ∈ s.finish.2, e.is_error = false := by
      unfold responses.ResponsesStreamDecoder.finish
      split <;> simp [StreamEvent.is_error]
    exact hfinish s
  | messages =>
    have hfinish (s : messages.MessagesStreamDecoder) : ∀ e ∈ s.finish.2, e.is_error = false := by
      unfold messages.MessagesStreamDecoder.finish
      split <;> simp [StreamEvent.is_error]
    exact hfinish s
  | gemini => exact gemini_finish_events_quiet s

end Decoders

section Chat

open chat chat.ChatStreamEncoder

variable {serde : Serde} (hserde : serde.Lawful) (self : ChatStreamEncoder)

include hserde

theorem chat_document_quiet {map : Map} (hmap : (Value.object map).WellFormed) (herror : map.lookup "error" = none) :
    reports_error serde .chat (.ofData (serde.to_string (.object map))) = false := by
  simp [reports_error, hserde.from_str_to_string _ hmap, herror]

theorem chat_chunk_quiet {delta : Map} (hdelta : (Value.object delta).WellFormed) (finish : Option String) :
    reports_error serde .chat (self.chunk serde delta finish) = false := by
  apply chat_document_quiet hserde
  · cases finish <;> simpa [chunk_head] using hdelta
  · rfl

theorem chat_openStream_quiet : ∀ f ∈ (self.openStream serde).2, reports_error serde .chat f = false := by
  unfold openStream
  split
  · simp
  · have hopening : (Value.object [("role", .string "assistant"), ("content", .string "")]).WellFormed := by simp
    simpa using chat_chunk_quiet hserde self hopening none

theorem chat_opened_chunk_quiet (writer : ChatStreamEncoder) {delta : Map} (hdelta : (Value.object delta).WellFormed)
    (finish : Option String) :
    ∀ f ∈ (self.openStream serde).2 ++ [writer.chunk serde delta finish], reports_error serde .chat f = false := by
  intro f hf
  rcases List.mem_append.mp hf with hf | hf
  · exact chat_openStream_quiet hserde self f hf
  · rw [List.mem_singleton.mp hf]
    exact chat_chunk_quiet hserde writer hdelta finish

theorem chat_wrap_up_quiet : ∀ f ∈ (self.wrap_up serde).2, reports_error serde .chat f = false := by
  have husage : reports_error serde .chat (self.usage_frame serde) = false := by
    apply chat_document_quiet hserde
    · simp [chunk_head, usage_json_wellFormed]
    · rfl
  have hdone : reports_error serde .chat done_frame = false := by
    simp [reports_error, done_frame, DONE_SENTINEL, hserde.from_str_done]
  have hempty : (Value.object []).WellFormed := by simp
  have hchunk := chat_chunk_quiet hserde self hempty (some "stop")
  unfold wrap_up
  split
  · simp
  · intro f hf
    simp only [List.mem_append, List.mem_singleton] at hf
    rcases hf with (hf | hf) | rfl
    · split at hf
      · rw [List.mem_singleton.mp hf]
        exact hchunk
      · cases hf
    · split at hf
      · rw [List.mem_singleton.mp hf]
        exact husage
      · cases hf
    · exact hdone

/-- Only an error is written as one. -/
theorem chat_encode_quiet {e : StreamEvent} (he : e.is_error = false) :
    ∀ f ∈ (self.encode serde e).2, reports_error serde .chat f = false := by
  cases e with
  | start id model usage => exact chat_openStream_quiet hserde _
  | textDelta index text | thinkingDelta index text | thinkingSignature index text | refusalDelta index text =>
    exact chat_opened_chunk_quiet hserde self _ (by simp) none
  | toolCallStart index id name signature => exact chat_opened_chunk_quiet hserde self _ (by simp) none
  | toolCallArgsDelta index fragment => exact chat_opened_chunk_quiet hserde self _ (by simp) none
  | stop reason stop_sequence => exact chat_opened_chunk_quiet hserde self _ (by simp) _
  | done => exact chat_wrap_up_quiet hserde self
  | error message kind => cases he
  | usage usage => simp [ChatStreamEncoder.encode]
  | contentStart index kind => simp [ChatStreamEncoder.encode]
  | contentStop index => simp [ChatStreamEncoder.encode]
  | ping => simp [ChatStreamEncoder.encode]

/-- The error comes first, and only the sentinel may follow. -/
theorem chat_error_frames (message kind : String) :
    ∃ more, (self.encode serde (.error message kind)).2 = error_frame serde message kind :: more ∧
      reports_error serde .chat (error_frame serde message kind) = true ∧
      ends_answer serde .chat (error_frame serde message kind) = false ∧ ∀ f ∈ more, f = done_frame := by
  refine ⟨if self.done then [] else [done_frame], rfl, ?_, ?_, ?_⟩
  · have hdocument : (Value.object [("error", .object [("message", .string message), ("type", .string kind)])]).WellFormed := by
      simp
    simp [reports_error, error_frame, hserde.from_str_to_string _ hdocument]
  · obtain ⟨hdone, hreason⟩ := error_frame_plain hserde message kind
    simp only [ends_answer, hdone, hreason, Bool.or_self]
  · intro f hf
    split at hf
    · cases hf
    · exact List.mem_singleton.mp hf

/-- Before the end an answer is only ended by a finish reason of the upstream. -/
theorem chat_emit_open (uuid : String) (now : Int) {es : List StreamEvent} (hes : ∀ e ∈ es, e.is_terminal = false)
    {f : SseFrame} (hf : f ∈ (chat.stream_encoder serde uuid now).emit (.new uuid now) es)
    (hends : ends_answer serde .chat f = true) : ∃ e ∈ es, e.is_stop = true := by
  have hrun := Running.run hserde uuid now es hes
  have hreason : chat.has_finish_reason serde f = true := by
    simpa [ends_answer, hrun.no_done f hf] using hends
  have hpos : 0 < es.countP StreamEvent.is_stop := by
    rw [← hrun.reasons]
    exact List.countP_pos_iff.mpr ⟨f, hf, hreason⟩
  exact List.countP_pos_iff.mp hpos

end Chat

section Gemini

open gemini gemini.GeminiStreamEncoder

variable {serde : Serde} (hserde : serde.Lawful) (self : GeminiStreamEncoder)

include hserde

theorem gemini_document_quiet {map : Map} (hmap : (Value.object map).WellFormed) (herror : map.lookup "error" = none) :
    reports_error serde .gemini (.ofData (serde.to_string (.object map))) = false := by
  simp [reports_error, hserde.from_str_to_string _ hmap, herror]

theorem gemini_part_quiet {part : Map} (hpart : (Value.object part).WellFormed) :
    reports_error serde .gemini (part_frame serde part) = false := by
  apply gemini_document_quiet hserde
  · simpa [candidate] using hpart
  · rfl

theorem gemini_finish_frame_quiet (reason : StopReason) (usage : Option Usage) :
    reports_error serde .gemini (finish_frame serde reason usage) = false := by
  apply gemini_document_quiet hserde
  · cases usage <;> simp [candidate, usage_metadata, encode_usage_wellFormed]
  · cases usage <;> rfl

theorem gemini_usage_frame_quiet (usage : Usage) : reports_error serde .gemini (usage_frame serde usage) = false := by
  apply gemini_document_quiet hserde
  · simp [candidate, encode_usage_wellFormed]
  · rfl

theorem gemini_flush_quiet (index : Nat) :
    ∀ f ∈ (self.flush_tool_call serde index).2, reports_error serde .gemini f = false := by
  intro f hf
  simp only [flush_tool_call, Option.mem_toList, Option.map_eq_some_iff] at hf
  obtain ⟨buf, _, rfl⟩ := hf
  exact gemini_part_quiet hserde (call_part_wellFormed hserde buf)

theorem gemini_finish_quiet : ∀ f ∈ (self.finish serde).2, reports_error serde .gemini f = false := by
  have hcalls := (Transducer.emit_forall (T := flushes serde) (P := fun _ => True) (Q := fun _ => True)
    (R := fun f => reports_error serde .gemini f = false)
    (fun s i _ _ => ⟨trivial, gemini_flush_quiet hserde s i⟩) trivial (s := self)
    (List.range (self.tool_calls.length % 4294967296)) (by simp)).2
  unfold GeminiStreamEncoder.finish
  dsimp only
  split
  · intro f hf
    rcases List.mem_append.mp hf with hf | hf
    · exact hcalls f hf
    · rw [List.mem_singleton.mp hf]
      exact gemini_finish_frame_quiet hserde _ _
  · intro f hf
    rcases List.mem_append.mp hf with hf | hf
    · exact hcalls f hf
    · simp only [Option.mem_toList, Option.map_eq_some_iff] at hf
      obtain ⟨usage, _, rfl⟩ := hf
      exact gemini_usage_frame_quiet hserde usage

theorem gemini_encode_quiet {e : StreamEvent} (he : e.is_error = false) :
    ∀ f ∈ (self.encode serde e).2, reports_error serde .gemini f = false := by
  cases e with
  | textDelta index text | thinkingDelta index text | thinkingSignature index text | refusalDelta index text =>
    simpa [GeminiStreamEncoder.encode] using gemini_part_quiet hserde (by simp)
  | contentStop index => exact gemini_flush_quiet hserde self index
  | stop reason stop_sequence => exact List.forall_mem_singleton.mpr (gemini_finish_frame_quiet hserde reason _)
  | error message kind => cases he
  | _ => simp [GeminiStreamEncoder.encode]

theorem gemini_error_frames (message kind : String) :
    (self.encode serde (.error message kind)).2 = [error_frame serde message kind] ∧
      reports_error serde .gemini (error_frame serde message kind) = true ∧
      ends_answer serde .gemini (error_frame serde message kind) = false := by
  refine ⟨rfl, ?_, (error_frame_spec hserde message kind).2⟩
  have hdocument : (Value.object [("error", .object
      [("code", .nat 500), ("message", .string message), ("status", .string kind)])]).WellFormed := by simp
  simp [reports_error, error_frame, hserde.from_str_to_string _ hdocument]

theorem gemini_emit_open {es : List StreamEvent} {f : SseFrame} (hf : f ∈ (gemini.stream_encoder serde).emit {} es)
    (hends : ends_answer serde .gemini f = true) : ∃ e ∈ es, e.is_stop = true := by
  by_contra hnone
  push Not at hnone
  have hquiet := emit_frames hserde (fun e (he : e ∈ es) => by simpa using hnone e he) f hf
  rw [ends_answer, hquiet] at hends
  cases hends

end Gemini

section Messages

open messages messages.MessagesStreamEncoder

/-- The events of a message before its end. -/
def running_events : List String :=
  ["message_start", "content_block_start", "content_block_delta", "content_block_stop", "ping"]

/-- The frame is named by one of the events. -/
def named_in (events : List String) (frame : SseFrame) : Prop := ∃ event ∈ events, frame.event = some event

variable (serde : Serde) (uuid : Nat → String) (self : MessagesStreamEncoder)

theorem messages_ensure_started_names : ∀ f ∈ (self.ensure_started serde uuid).2, named_in running_events f := by
  unfold MessagesStreamEncoder.ensure_started
  split
  · simp
  · split <;> simp [named_in, running_events, message_start_frame, MessagesStreamEncoder.frame]

theorem messages_close_open_names : ∀ f ∈ (self.close_open serde).2, named_in running_events f := by
  unfold close_open
  split <;> simp [named_in, running_events, block_stop_frame, MessagesStreamEncoder.frame]

theorem messages_open_block_names (index : Nat) (kind : PartKind) :
    ∀ f ∈ (self.open_block serde uuid index kind).2.2, named_in running_events f := by
  have hstart := messages_ensure_started_names serde uuid self
  have hclose := messages_close_open_names serde ((self.ensure_started serde uuid).1.anth_index index).1
  unfold open_block
  dsimp only
  split
  · exact hstart
  · intro f hf
    simp only [List.mem_append, List.mem_singleton] at hf
    rcases hf with (hf | hf) | rfl
    · exact hstart f hf
    · exact hclose f hf
    · exact ⟨"content_block_start", by decide, rfl⟩

theorem messages_open_tool_block_names (index : Nat) (id name : String) :
    ∀ f ∈ (self.open_tool_block serde uuid index id name).2.2, named_in running_events f := by
  have hstart := messages_ensure_started_names serde uuid self
  have hclose := messages_close_open_names serde ((self.ensure_started serde uuid).1.anth_index index).1
  unfold open_tool_block
  dsimp only
  intro f hf
  simp only [List.mem_append, List.mem_singleton] at hf
  rcases hf with (hf | hf) | rfl
  · exact hstart f hf
  · exact hclose f hf
  · exact ⟨"content_block_start", by decide, rfl⟩

theorem messages_write_delta_names (index : Nat) (kind : PartKind) (delta : Map) :
    ∀ f ∈ (self.write_delta serde uuid index kind delta).2, named_in running_events f := by
  unfold MessagesStreamEncoder.write_delta
  intro f hf
  rcases List.mem_append.mp hf with hf | hf
  · exact messages_open_block_names serde uuid self index kind f hf
  · rw [List.mem_singleton.mp hf]
    exact ⟨"content_block_delta", by decide, rfl⟩

theorem messages_write_fragment_names (index : Nat) (fragment : String) :
    ∀ f ∈ (self.write_fragment serde uuid index fragment).2, named_in running_events f := by
  unfold MessagesStreamEncoder.write_fragment
  dsimp only
  intro f hf
  split at hf
  · rw [List.mem_singleton.mp hf]
    exact ⟨"content_block_delta", by decide, rfl⟩
  · rcases List.mem_append.mp hf with hf | hf
    · exact messages_open_tool_block_names serde uuid _ index "" "" f hf
    · rw [List.mem_singleton.mp hf]
      exact ⟨"content_block_delta", by decide, rfl⟩

/-- An event that does not end its stream is written as such. -/
theorem messages_encode_names {e : StreamEvent} (he : e.is_terminal = false) :
    ∀ f ∈ (self.encode serde uuid e).2, named_in running_events f := by
  unfold MessagesStreamEncoder.encode
  split
  · simp
  · cases e with
    | start id model usage => exact messages_ensure_started_names serde uuid _
    | contentStart index kind =>
      dsimp only
      split
      · simp
      · exact messages_open_block_names serde uuid self index kind
    | textDelta index text | thinkingDelta index text | thinkingSignature index text | refusalDelta index text =>
      exact messages_write_delta_names serde uuid self index _ _
    | toolCallStart index id name signature => exact messages_open_tool_block_names serde uuid self index id name
    | toolCallArgsDelta index fragment => exact messages_write_fragment_names serde uuid self index fragment
    | contentStop index =>
      dsimp only [stop_block]
      split
      · exact messages_close_open_names serde _
      · simp
    | ping =>
      intro f hf
      rw [List.mem_singleton.mp hf]
      exact ⟨"ping", by decide, rfl⟩
    | usage usage => simp
    | stop reason stop_sequence => simp
    | done | error message kind => cases he

theorem messages_wrap_up_names :
    ∀ f ∈ (self.wrap_up serde uuid).2, named_in (running_events ++ ["message_delta", "message_stop"]) f := by
  have hmore {f : SseFrame} (hf : named_in running_events f) : named_in (running_events ++ ["message_delta", "message_stop"]) f := by
    obtain ⟨event, hevent, hname⟩ := hf
    exact ⟨event, List.mem_append_left _ hevent, hname⟩
  have hstart := messages_ensure_started_names serde uuid { self with finished := true }
  have hclose := messages_close_open_names serde ({ self with finished := true }.ensure_started serde uuid).1
  unfold MessagesStreamEncoder.wrap_up
  split
  · simp
  · intro f hf
    simp only [List.mem_append, List.mem_cons, List.not_mem_nil, or_false] at hf
    rcases hf with (hf | hf) | rfl | rfl
    · exact hmore (hstart f hf)
    · exact hmore (hclose f hf)
    · exact ⟨"message_delta", by decide, rfl⟩
    · exact ⟨"message_stop", by decide, rfl⟩

theorem messages_not_error {f : SseFrame} (hf : named_in (running_events ++ ["message_delta", "message_stop"]) f) :
    reports_error serde .messages f = false := by
  obtain ⟨event, hevent, hname⟩ := hf
  have hne : event ≠ "error" := by
    rintro rfl
    exact absurd hevent (by decide)
  simpa [reports_error, hname] using hne

theorem messages_encode_quiet {e : StreamEvent} (he : e.is_error = false) :
    ∀ f ∈ (self.encode serde uuid e).2, reports_error serde .messages f = false := by
  intro f hf
  apply messages_not_error
  cases hterminal : e.is_terminal with
  | false =>
    obtain ⟨event, hevent, hname⟩ := messages_encode_names serde uuid self hterminal f hf
    exact ⟨event, List.mem_append_left _ hevent, hname⟩
  | true =>
    cases e with
    | done =>
      unfold MessagesStreamEncoder.encode at hf
      split at hf
      · cases hf
      · exact messages_wrap_up_names serde uuid self f hf
    | error message kind => cases he
    | _ => cases hterminal

theorem messages_error_frames (hlive : self.finished = false) (message kind : String) :
    (self.encode serde uuid (.error message kind)).2 = [error_frame serde message kind] ∧
      reports_error serde .messages (error_frame serde message kind) = true ∧
      ends_answer serde .messages (error_frame serde message kind) = false := by
  refine ⟨?_, rfl, rfl⟩
  simp [MessagesStreamEncoder.encode, hlive]

theorem messages_emit_open {es : List StreamEvent} (hes : ∀ e ∈ es, e.is_terminal = false) :
    ∀ f ∈ (messages.stream_encoder serde uuid).emit {} es, ends_answer serde .messages f = false := by
  have hnames := (Transducer.emit_forall (T := messages.stream_encoder serde uuid) (P := fun _ => True)
    (Q := fun e => e.is_terminal = false) (R := named_in running_events)
    (fun s e _ he => ⟨trivial, messages_encode_names serde uuid s he⟩) trivial (s := {}) es hes).2
  intro f hf
  obtain ⟨event, hevent, hname⟩ := hnames f hf
  have hne : event ≠ "message_stop" := by
    rintro rfl
    exact absurd hevent (by decide)
  simpa [ends_answer, hname] using hne

end Messages

section Responses

open responses responses.ResponsesStreamEncoder

/-- The notices of a step that leave the answer open, and an ended encoder ended. -/
def KeepsOpen (self : ResponsesStreamEncoder) (step : ResponsesStreamEncoder × List Notice) : Prop :=
  step.1.finished = self.finished ∧
    ∀ notice ∈ step.2, notice.1 ∉ ["error", "response.completed", "response.incomplete"]

theorem KeepsOpen.append {self : ResponsesStreamEncoder} {step next : ResponsesStreamEncoder × List Notice}
    (h : KeepsOpen self step) (h' : KeepsOpen step.1 next) : KeepsOpen self (next.1, step.2 ++ next.2) :=
  ⟨h'.1.trans h.1, List.forall_mem_append.mpr ⟨h.2, h'.2⟩⟩

variable (uuid : String) (now : Int) (self : ResponsesStreamEncoder)

theorem ensure_started_keepsOpen : KeepsOpen self (self.ensure_started uuid now) := by
  unfold ResponsesStreamEncoder.ensure_started
  split
  · exact ⟨rfl, by simp⟩
  · exact ⟨rfl, by simp⟩

theorem announcement_open (block : OpenBlock) :
    ∀ notice ∈ block.announcement, notice.1 ∉ ["error", "response.completed", "response.incomplete"] := by
  unfold OpenBlock.announcement
  cases block.kind <;> simp

theorem closing_open (block : OpenBlock) :
    ∀ notice ∈ block.closing ++ [block.item_done], notice.1 ∉ ["error", "response.completed", "response.incomplete"] := by
  unfold OpenBlock.closing OpenBlock.item_done
  cases block.kind <;> simp

theorem announce_keepsOpen (index : Nat) : KeepsOpen self (self.announce index) := by
  unfold announce
  split
  · exact ⟨rfl, by simp⟩
  · split
    · exact ⟨rfl, by simp⟩
    · exact ⟨rfl, announcement_open _⟩

theorem close_block_keepsOpen (index : Nat) : KeepsOpen self (self.close_block index) := by
  have hannounce := announce_keepsOpen self index
  unfold close_block
  dsimp only
  split
  · exact hannounce
  · rename_i block _
    exact @KeepsOpen.append _ _ (finish_block _ block) hannounce ⟨rfl, closing_open block⟩

theorem new_block_keepsOpen (index : Nat) (kind : PartKind) : KeepsOpen self (self.new_block index kind) := by
  unfold new_block
  dsimp only
  split
  · exact ⟨rfl, by simp⟩
  · exact announce_keepsOpen _ index

theorem ensure_block_keepsOpen (index : Nat) (kind : PartKind) :
    KeepsOpen self (self.ensure_block uuid now index kind) := by
  have hstart := ensure_started_keepsOpen uuid now self
  unfold ensure_block
  dsimp only
  split
  · exact hstart.append (new_block_keepsOpen _ index kind)
  · split
    · exact hstart
    · exact (hstart.append (close_block_keepsOpen _ index)).append (new_block_keepsOpen _ index kind)

theorem write_delta_keepsOpen (index : Nat) {event : String} (update : OpenBlock → OpenBlock) (delta : Map)
    (hevent : event ∉ ["error", "response.completed", "response.incomplete"]) :
    KeepsOpen self (self.write_delta index event update delta) := by
  unfold ResponsesStreamEncoder.write_delta
  split
  · exact ⟨rfl, by simp⟩
  · exact ⟨rfl, by simpa using hevent⟩

theorem write_text_keepsOpen (index : Nat) (kind : PartKind) {event : String} (text : String) (delta : Map)
    (hevent : event ∉ ["error", "response.completed", "response.incomplete"]) :
    KeepsOpen self (self.write_text uuid now index kind event text delta) :=
  (ensure_block_keepsOpen uuid now self index kind).append (write_delta_keepsOpen _ index _ delta hevent)

theorem write_signature_keepsOpen (index : Nat) (signature : String) :
    KeepsOpen self (self.write_signature uuid now index signature) := by
  have hblock := ensure_block_keepsOpen uuid now self index .thinking
  unfold write_signature
  dsimp only
  split
  · exact hblock
  · exact hblock

theorem start_call_keepsOpen (index : Nat) (id name : String) :
    KeepsOpen self (self.start_call uuid now index id name) := by
  have hblock := ensure_block_keepsOpen uuid now self index .toolUse
  unfold start_call
  dsimp only
  split
  · exact hblock.append (announce_keepsOpen _ index)
  · rename_i block _
    have hkeep : KeepsOpen self
        ({ (self.ensure_block uuid now index .toolUse).1 with
          blocks := (self.ensure_block uuid now index .toolUse).1.blocks.insert index { block with
            tool_id := if id = "" then block.tool_id else id
            tool_name := if name = "" then block.tool_name else name } },
          (self.ensure_block uuid now index .toolUse).2) := hblock
    exact hkeep.append (announce_keepsOpen _ index)

theorem write_fragment_keepsOpen (index : Nat) (fragment : String) :
    KeepsOpen self (self.write_fragment uuid now index fragment) :=
  ((ensure_block_keepsOpen uuid now self index .toolUse).append (announce_keepsOpen _ index)).append
    (write_delta_keepsOpen _ index _ _ (by decide))

/-- An event that does not end its stream leaves the answer open. -/
theorem notices_keepsOpen {e : StreamEvent} (he : e.is_terminal = false) :
    KeepsOpen self (self.notices uuid now e) := by
  cases e with
  | start id model usage => exact ensure_started_keepsOpen uuid now _
  | contentStart index kind => exact ensure_block_keepsOpen uuid now self index kind
  | textDelta index text => exact write_text_keepsOpen uuid now self index .text text _ (by decide)
  | refusalDelta index text => exact write_text_keepsOpen uuid now self index .refusal text _ (by decide)
  | thinkingDelta index text => exact write_text_keepsOpen uuid now self index .thinking text _ (by decide)
  | thinkingSignature index signature => exact write_signature_keepsOpen uuid now self index signature
  | toolCallStart index id name signature => exact start_call_keepsOpen uuid now self index id name
  | toolCallArgsDelta index fragment => exact write_fragment_keepsOpen uuid now self index fragment
  | contentStop index => exact close_block_keepsOpen self index
  | usage usage => exact ⟨rfl, by simp [notices]⟩
  | stop reason stop_sequence => exact ⟨rfl, by simp [notices]⟩
  | ping => exact ⟨rfl, by simp [notices]⟩
  | done | error message kind => cases he

/-- A frame is named by the notice it was written for. -/
theorem emit_event (serde : Serde) {notices : List Notice} {f : SseFrame} (hf : f ∈ (self.emit serde notices).2) :
    ∃ notice ∈ notices, f.event = some notice.1 := by
  simp only [ResponsesStreamEncoder.emit, List.mem_map] at hf
  obtain ⟨⟨notice, seq⟩, hmem, rfl⟩ := hf
  exact ⟨notice, List.fst_mem_of_mem_zipIdx hmem, rfl⟩

theorem close_all_keepsOpen : KeepsOpen self self.close_all := by
  have hrun := Transducer.emit_forall (T := closings) (P := fun s => s.finished = self.finished) (Q := fun _ => True)
    (R := fun notice => notice.1 ∉ ["error", "response.completed", "response.incomplete"])
    (fun s index hs _ => by
      obtain ⟨hfinished, hnotices⟩ := close_block_keepsOpen s index
      exact ⟨hfinished.trans hs, hnotices⟩) rfl (s := self) (self.blocks.map Prod.fst) (by simp)
  exact hrun

/-- The end of an answer is no error. -/
theorem terminate_not_error : ∀ notice ∈ (self.terminate uuid now).2, notice.1 ≠ "error" := by
  have hstart := ensure_started_keepsOpen uuid now self
  have hclose := close_all_keepsOpen (self.ensure_started uuid now).1
  have hname (status : String) : terminal_event status ≠ "error" := by
    unfold terminal_event
    split <;> decide
  have hopen {notice : Notice} (h : notice.1 ∉ ["error", "response.completed", "response.incomplete"]) : notice.1 ≠ "error" := by
    intro heq
    exact h (by simp [heq])
  unfold terminate
  split
  · simp
  · intro notice hnotice
    simp only [List.mem_append, List.mem_singleton] at hnotice
    rcases hnotice with (hnotice | hnotice) | rfl
    · exact hopen (hstart.2 notice hnotice)
    · exact hopen (hclose.2 notice hnotice)
    · exact hname _

theorem responses_encode_quiet (serde : Serde) {e : StreamEvent} (he : e.is_error = false) :
    ∀ f ∈ (self.encode serde uuid now e).2, reports_error serde .responses f = false := by
  have hnotices : ∀ notice ∈ (self.notices uuid now e).2, notice.1 ≠ "error" := by
    cases hterminal : e.is_terminal with
    | false =>
      intro notice hnotice heq
      exact (notices_keepsOpen uuid now self hterminal).2 notice hnotice (by simp [heq])
    | true =>
      cases e with
      | done => exact terminate_not_error uuid now self
      | error message kind => cases he
      | _ => cases hterminal
  unfold ResponsesStreamEncoder.encode
  split
  · simp
  · intro f hf
    obtain ⟨notice, hnotice, hname⟩ := emit_event _ serde hf
    simpa [reports_error, hname] using hnotices notice hnotice

theorem responses_finish_quiet (serde : Serde) :
    ∀ f ∈ (self.finish serde uuid now).2, reports_error serde .responses f = false := by
  unfold ResponsesStreamEncoder.finish
  split
  · intro f hf
    obtain ⟨notice, hnotice, hname⟩ := emit_event _ serde hf
    simpa [reports_error, hname] using terminate_not_error uuid now self notice hnotice
  · simp

/-- An answer that is still open is closed with an error. -/
theorem responses_error_frames (serde : Serde) (hlive : self.finished = false) (message kind : String) :
    (∃ f ∈ (self.encode serde uuid now (.error message kind)).2, reports_error serde .responses f = true) ∧
      ∀ f ∈ (self.encode serde uuid now (.error message kind)).2, ends_answer serde .responses f = false := by
  have hstart := ensure_started_keepsOpen uuid now self
  have hencode : (self.encode serde uuid now (.error message kind)).2 =
      ((self.notices uuid now (.error message kind)).1.emit serde (self.notices uuid now (.error message kind)).2).2 := by
    simp [ResponsesStreamEncoder.encode, hlive]
  have hnotices : (self.notices uuid now (.error message kind)).2 = (self.ensure_started uuid now).2 ++
      [("error", [("code", .string kind), ("message", .string message), ("param", .null)])] := rfl
  rw [hencode, hnotices]
  refine ⟨?_, ?_⟩
  · simp only [ResponsesStreamEncoder.emit, List.zipIdx_append, List.map_append, List.mem_append]
    exact ⟨_, .inr (List.mem_singleton.mpr rfl), rfl⟩
  · intro f hf
    obtain ⟨notice, hnotice, hname⟩ := emit_event _ serde hf
    rcases List.mem_append.mp hnotice with hnotice | hnotice
    · have hopen := hstart.2 notice hnotice
      simp only [List.mem_cons, List.not_mem_nil, or_false, not_or] at hopen
      simp [ends_answer, hname, hopen]
    · rw [List.mem_singleton.mp hnotice] at hname
      simp [ends_answer, hname]

/-- A run without an end leaves the answer open. -/
theorem responses_emit_open (serde : Serde) {es : List StreamEvent} (hes : ∀ e ∈ es, e.is_terminal = false) :
    ((responses.stream_encoder serde uuid now).advance {} es).finished = false ∧
      ∀ f ∈ (responses.stream_encoder serde uuid now).emit {} es, ends_answer serde .responses f = false := by
  apply Transducer.emit_forall (T := responses.stream_encoder serde uuid now) (P := fun s => s.finished = false)
    (Q := fun e => e.is_terminal = false) _ rfl es hes
  intro s e hs he
  obtain ⟨hfinished, hopen⟩ := notices_keepsOpen uuid now s he
  have hstep : (responses.stream_encoder serde uuid now).step s e = s.encode serde uuid now e := rfl
  rw [hstep, ResponsesStreamEncoder.encode, hs, if_neg (by decide)]
  refine ⟨hfinished.trans hs, ?_⟩
  intro f hf
  obtain ⟨notice, hnotice, hname⟩ := emit_event _ serde hf
  have hopen := hopen notice hnotice
  simp only [List.mem_cons, List.not_mem_nil, or_false, not_or] at hopen
  simp [ends_answer, hname, hopen]

end Responses

/-- An encoder reports the errors that it is given, and no others. Until it is
    given an end, it ends the answer only where the upstream gave a stop reason,
    in the protocols that pass it on at once. An error then leaves no other end
    than the sentinel of a Chat stream. -/
structure ReportsErrors (serde : Serde) (inbound : Protocol) {τ : Type} (E : Transducer τ StreamEvent SseFrame) :
    Prop where
  quiet_step : ∀ s e, e.is_error = false → ∀ f ∈ (E.step s e).2, reports_error serde inbound f = false
  quiet_finish : ∀ s, ∀ f ∈ (E.finish s).2, reports_error serde inbound f = false
  emit_open : ∀ es, (∀ e ∈ es, e.is_terminal = false) → ∀ f ∈ E.emit E.init es,
    ends_answer serde inbound f = true → (inbound = .chat ∨ inbound = .gemini) ∧ ∃ e ∈ es, e.is_stop = true
  report : ∀ es, (∀ e ∈ es, e.is_terminal = false) → ∀ message kind,
    ∃ f ∈ (E.step (E.advance E.init es) (.error message kind)).2, reports_error serde inbound f = true
  report_open : ∀ es, (∀ e ∈ es, e.is_terminal = false) → ∀ message kind,
    ∀ f ∈ (E.step (E.advance E.init es) (.error message kind)).2, ends_answer serde inbound f = true →
      inbound = .chat ∧ f = chat.ChatStreamEncoder.done_frame

section Encoders

variable {serde : Serde} (hserde : serde.Lawful)

include hserde

theorem chat_reportsErrors (uuid : String) (now : Int) :
    ReportsErrors serde .chat (chat.stream_encoder serde uuid now) where
  quiet_step s e he := chat_encode_quiet hserde s he
  quiet_finish s := chat_wrap_up_quiet hserde s
  emit_open es hes f hf hends := ⟨.inl rfl, chat_emit_open hserde uuid now hes hf hends⟩
  report es _ message kind := by
    obtain ⟨more, hframes, hreports, -, -⟩ := chat_error_frames hserde
      ((chat.stream_encoder serde uuid now).advance (.new uuid now) es) message kind
    exact ⟨_, hframes ▸ List.mem_cons_self, hreports⟩
  report_open es _ message kind f hf hf' := by
    obtain ⟨more, hframes, -, hends, hmore⟩ := chat_error_frames hserde
      ((chat.stream_encoder serde uuid now).advance (.new uuid now) es) message kind
    have hmem : f ∈ chat.ChatStreamEncoder.error_frame serde message kind :: more := hframes ▸ hf
    rcases List.mem_cons.mp hmem with rfl | hmem
    · rw [hends] at hf'
      cases hf'
    · exact ⟨rfl, hmore f hmem⟩

omit hserde in
theorem responses_reportsErrors (uuid : String) (now : Int) :
    ReportsErrors serde .responses (responses.stream_encoder serde uuid now) where
  quiet_step s e he := responses_encode_quiet uuid now s serde he
  quiet_finish s := responses_finish_quiet uuid now s serde
  emit_open es hes f hf hends := by
    rw [(responses_emit_open uuid now serde hes).2 f hf] at hends
    cases hends
  report es hes message kind :=
    (responses_error_frames uuid now _ serde (responses_emit_open uuid now serde hes).1 message kind).1
  report_open es hes message kind f hf hf' := by
    rw [(responses_error_frames uuid now _ serde (responses_emit_open uuid now serde hes).1 message kind).2 f hf] at hf'
    cases hf'

theorem messages_reportsErrors (uuid : Nat → String) :
    ReportsErrors serde .messages (messages.stream_encoder serde uuid) where
  quiet_step s e he := messages_encode_quiet serde uuid s he
  quiet_finish s f hf := messages_not_error serde (messages_wrap_up_names serde uuid s f hf)
  emit_open es hes f hf hends := by
    rw [messages_emit_open serde uuid hes f hf] at hends
    cases hends
  report es hes message kind := by
    obtain ⟨hframes, hreports, -⟩ := messages_error_frames serde uuid
      ((messages.stream_encoder serde uuid).advance {} es) (messages.Tracks.run uuid hserde es hes).live message kind
    exact ⟨_, hframes ▸ List.mem_singleton_self _, hreports⟩
  report_open es hes message kind f hf hf' := by
    obtain ⟨hframes, -, hends⟩ := messages_error_frames serde uuid
      ((messages.stream_encoder serde uuid).advance {} es) (messages.Tracks.run uuid hserde es hes).live message kind
    have hmem : f ∈ [messages.MessagesStreamEncoder.error_frame serde message kind] := hframes ▸ hf
    rw [List.mem_singleton.mp hmem, hends] at hf'
    cases hf'

theorem gemini_reportsErrors : ReportsErrors serde .gemini (gemini.stream_encoder serde) where
  quiet_step s e he := by
    rw [gemini.stream_encoder_step]
    exact gemini_encode_quiet hserde s he
  quiet_finish s := by
    rw [gemini.stream_encoder_finish]
    exact gemini_finish_quiet hserde s
  emit_open es _ f hf hends := by
    rw [gemini.stream_encoder_init] at hf
    exact ⟨.inr rfl, gemini_emit_open hserde hf hends⟩
  report es _ message kind := by
    rw [gemini.stream_encoder_step]
    obtain ⟨hframes, hreports, -⟩ := gemini_error_frames hserde
      ((gemini.stream_encoder serde).advance (gemini.stream_encoder serde).init es) message kind
    exact ⟨_, hframes ▸ List.mem_singleton_self _, hreports⟩
  report_open es _ message kind f hf hf' := by
    rw [gemini.stream_encoder_step] at hf
    obtain ⟨hframes, -, hends⟩ := gemini_error_frames hserde
      ((gemini.stream_encoder serde).advance (gemini.stream_encoder serde).init es) message kind
    rw [hframes] at hf
    rw [List.mem_singleton.mp hf, hends] at hf'
    cases hf'

/-- Every encoder of the gateway reports errors so. -/
theorem stream_encoder_reportsErrors (uuid : Nat → String) (now : Int) (inbound : Protocol) :
    ReportsErrors serde inbound (stream_encoder serde uuid now inbound).2 := by
  cases inbound with
  | chat => exact chat_reportsErrors hserde (uuid 0) now
  | responses => exact responses_reportsErrors (uuid 0) now
  | messages => exact messages_reportsErrors hserde uuid
  | gemini => exact gemini_reportsErrors hserde

end Encoders

end refract.codec
