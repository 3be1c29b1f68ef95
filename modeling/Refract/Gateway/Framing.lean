import Refract.Codec.Chat.Decoder
import Refract.Codec.Gemini.Decoder
import Refract.Codec.Messages.Decoder
import Refract.Codec.Responses.Decoder
import Refract.Gateway.Relay
import Refract.Json.RoundTrip
import Refract.Machine.Transducer
import Refract.Stream.Sse

open refract.core refract.json refract.ir refract.machine refract.stream

namespace refract.codec

namespace messages

/-- A payload that its own type makes an event of. -/
def Heeds (value : Value) : Prop :=
  match value.get_str "type" with
  | some "message_start" | some "content_block_start" | some "content_block_stop" | some "message_stop" | some "ping"
  | some "error" => True
  | some "content_block_delta" =>
    ((value.get "delta").bind (·.get_str "type")).getD "" ∈ ["text_delta", "thinking_delta", "signature_delta", "input_json_delta"]
  | some "message_delta" => (value.get "usage").isSome ∨ ((value.get "delta").bind (·.get_str "stop_reason")).isSome
  | _ => False

/-- A frame without a name whose payload is an event. -/
def Speaks (serde : Serde) (frame : SseFrame) : Prop :=
  frame.event = none ∧ trim frame.data ≠ "" ∧ trim frame.data ≠ "[DONE]" ∧
    ∃ value, serde.from_str (trim frame.data) = some value ∧ Heeds value

namespace MessagesStreamDecoder

theorem decode_content_block_delta_silent (self : MessagesStreamDecoder) {value : Value}
    (h : ((value.get "delta").bind (·.get_str "type")).getD "" ∉ ["text_delta", "thinking_delta", "signature_delta", "input_json_delta"]) :
    self.decode_content_block_delta value = (self, []) := by
  unfold decode_content_block_delta
  dsimp only
  split
  all_goals first | rfl | (rename_i heq; rw [heq] at h; simp at h)

theorem decode_content_block_delta_heard (self : MessagesStreamDecoder) {value : Value}
    (h : ((value.get "delta").bind (·.get_str "type")).getD "" ∈ ["text_delta", "thinking_delta", "signature_delta", "input_json_delta"]) :
    (self.decode_content_block_delta value).2 ≠ [] := by
  unfold decode_content_block_delta
  dsimp only
  split
  · simp
  · simp
  · simp
  · simp
  next hother₁ hother₂ hother₃ hother₄ =>
    simp only [List.mem_cons, List.not_mem_nil, or_false] at h
    rcases h with h | h | h | h
    · exact absurd h hother₁
    · exact absurd h hother₂
    · exact absurd h hother₃
    · exact absurd h hother₄

/-- A payload speaks exactly where its type makes an event of it. -/
theorem decode_event_silent (self : MessagesStreamDecoder) {value : Value} (h : ¬Heeds value) :
    self.decode_event ((value.get_str "type").getD "") value = (self, []) := by
  unfold Heeds at h
  unfold decode_event
  cases htype : value.get_str "type" with
  | none => rfl
  | some type =>
    rw [htype] at h
    dsimp only [Option.getD_some]
    split
    all_goals first
      | exact absurd trivial h
      | rfl
      | skip
    · exact self.decode_content_block_delta_silent h
    · obtain ⟨husage, hreason⟩ := not_or.mp h
      rw [decode_message_delta, Option.not_isSome_iff_eq_none.mp husage, Option.not_isSome_iff_eq_none.mp hreason]
      rfl

theorem decode_event_heard (self : MessagesStreamDecoder) {value : Value} (h : Heeds value) :
    (self.decode_event ((value.get_str "type").getD "") value).2 ≠ [] := by
  unfold Heeds at h
  split at h
  next htype => rw [htype]; exact List.cons_ne_nil _ _
  next htype => rw [htype]; exact List.cons_ne_nil _ _
  next htype => rw [htype]; exact List.cons_ne_nil _ _
  next htype => rw [htype]; exact List.cons_ne_nil _ _
  next htype => rw [htype]; exact List.cons_ne_nil _ _
  next htype => rw [htype]; exact List.cons_ne_nil _ _
  next htype => rw [htype]; exact self.decode_content_block_delta_heard h
  next htype =>
    rw [htype]
    change decode_message_delta value ≠ []
    rcases h with h | h
    · obtain ⟨usage, husage⟩ := Option.isSome_iff_exists.mp h
      simp [decode_message_delta, husage]
    · obtain ⟨reason, hreason⟩ := Option.isSome_iff_exists.mp h
      simp [decode_message_delta, hreason]
  · exact h.elim

end MessagesStreamDecoder

end messages

namespace responses

/-- A payload that its own type makes an event of. What is announced already is not
    announced again. -/
def Heeds (self : ResponsesStreamDecoder) (payload : Value) : Prop :=
  match payload.get_str "type" with
  | some "response.created" | some "response.in_progress" => self.started = false
  | some "response.output_item.added" =>
    match ((payload.get "item").bind (·.get_str "type")).getD "" with
    | "function_call" => True
    | "reasoning" => slot self.opened (output_index payload) ≠ some .thinking
    | _ => False
  | some "response.content_part.added" => slot self.opened (output_index payload) ≠ some (ResponsesStreamDecoder.part_kind payload)
  | some "response.output_text.delta" | some "response.refusal.delta" | some "response.reasoning_summary_text.delta"
  | some "response.reasoning_text.delta" | some "response.function_call_arguments.delta" | some "response.output_item.done"
  | some "response.completed" | some "response.incomplete" | some "response.failed" | some "error" => True
  | _ => False

/-- A frame without a name whose payload is an event. -/
def Speaks (serde : Serde) (self : ResponsesStreamDecoder) (frame : SseFrame) : Prop :=
  frame.event = none ∧ trim frame.data ≠ "" ∧ trim frame.data ≠ "[DONE]" ∧
    ∃ payload, serde.from_str frame.data = some payload ∧ Heeds self payload

namespace ResponsesStreamDecoder

theorem in_block_heard (self : ResponsesStreamDecoder) (index : Nat) (kind : PartKind) (event : StreamEvent) :
    (self.in_block index kind event).2 ≠ [] := List.append_ne_nil_of_right_ne_nil _ (List.cons_ne_nil _ _)

theorem ensure_open_heard {self : ResponsesStreamDecoder} {index : Nat} {kind : PartKind} (h : slot self.opened index ≠ some kind) :
    (self.ensure_open index kind).2 ≠ [] := by
  rw [ensure_open, if_neg h]
  exact List.cons_ne_nil _ _

theorem decode_item_done_heard (self : ResponsesStreamDecoder) (payload : Value) : (self.decode_item_done payload).2 ≠ [] := by
  unfold decode_item_done
  dsimp only
  split
  · exact List.append_ne_nil_of_right_ne_nil _ (List.cons_ne_nil _ _)
  · exact List.cons_ne_nil _ _

theorem decode_completed_heard (self : ResponsesStreamDecoder) (event : String) (payload : Value) :
    (self.decode_completed event payload).2 ≠ [] := by
  unfold decode_completed
  simp

theorem decode_event_silent (self : ResponsesStreamDecoder) {payload : Value} (h : ¬Heeds self payload) :
    self.decode_event ((payload.get_str "type").getD "") payload = (self, []) := by
  unfold Heeds at h
  unfold decode_event
  cases htype : payload.get_str "type" with
  | none => rfl
  | some type =>
    rw [htype] at h
    dsimp only [Option.getD_some]
    split
    all_goals first
      | exact absurd trivial h
      | rfl
      | skip
    · exact if_pos (Bool.eq_true_of_not_eq_false h)
    · exact if_pos (Bool.eq_true_of_not_eq_false h)
    · unfold decode_item_added
      dsimp only at h ⊢
      split
      next hitem => rw [hitem] at h; exact absurd trivial h
      next hitem => rw [hitem] at h; exact if_pos (not_not.mp h)
      · rfl
    · exact if_pos (not_not.mp h)

theorem decode_event_heard {self : ResponsesStreamDecoder} {payload : Value} (h : Heeds self payload) :
    (self.decode_event ((payload.get_str "type").getD "") payload).2 ≠ [] := by
  unfold Heeds at h
  split at h
  next htype =>
    rw [htype]
    change (self.decode_created payload).2 ≠ []
    rw [decode_created, h]
    exact List.cons_ne_nil _ _
  next htype =>
    rw [htype]
    change (self.decode_created payload).2 ≠ []
    rw [decode_created, h]
    exact List.cons_ne_nil _ _
  next htype =>
    rw [htype]
    change (self.decode_item_added payload).2 ≠ []
    unfold decode_item_added
    dsimp only
    split at h
    next hitem => simpa only [hitem] using in_block_heard _ _ _ _
    next hitem => simpa only [hitem] using ensure_open_heard h
    · exact h.elim
  next htype => rw [htype]; exact ensure_open_heard h
  next htype => rw [htype]; exact in_block_heard _ _ _ _
  next htype => rw [htype]; exact in_block_heard _ _ _ _
  next htype => rw [htype]; exact in_block_heard _ _ _ _
  next htype => rw [htype]; exact in_block_heard _ _ _ _
  next htype => rw [htype]; exact in_block_heard _ _ _ _
  next htype => rw [htype]; exact self.decode_item_done_heard payload
  next htype => rw [htype]; exact self.decode_completed_heard _ payload
  next htype => rw [htype]; exact self.decode_completed_heard _ payload
  next htype => rw [htype]; exact List.cons_ne_nil _ _
  next htype => rw [htype]; exact List.cons_ne_nil _ _
  · exact h.elim

end ResponsesStreamDecoder

end responses

end refract.codec

namespace refract.gateway

/-- How the reader of the transcoded path reports a frame. Without a name it is a
    message. -/
def message_event (frame : SseFrame) : Sse := ⟨(frame.event.filter (· ≠ "")).getD "message", frame.data⟩

/-- The frames that the native path reads of a body. -/
def body_frames (chunks : List Bytes) : List SseFrame := parse_sse.outputs parse_sse.init chunks

def has_data (data : String) : Bool := data ≠ ""

/-- The two readers read a body alike, but for the names of frames that have none
    and for frames without data. -/
def ReadsAlike (eventsource : List Bytes → List Sse) (chunks : List Bytes) : Prop :=
  (eventsource chunks).filter (fun sse => has_data sse.data) =
    ((body_frames chunks).filter fun frame => has_data frame.data).map message_event

section Paths

open codec

variable {serde : Serde} {frame : SseFrame}

/-- A frame keeps its name, unless it has none. -/
theorem frame_message_event (frame : SseFrame) :
    (message_event frame).frame = frame ∨
      (frame.event = none ∨ frame.event = some "") ∧ (message_event frame).frame = ⟨some "message", frame.data⟩ := by
  obtain ⟨event, data⟩ := frame
  cases event with
  | none => exact .inr ⟨.inl rfl, rfl⟩
  | some name =>
    by_cases hname : name = ""
    · subst hname
      exact .inr ⟨.inr rfl, rfl⟩
    · left
      have hkept : (some name).filter (· ≠ "") = some name := by simp [hname]
      change Sse.frame ⟨((some name).filter (· ≠ "")).getD "message", data⟩ = _
      rw [hkept, Option.getD_some, Sse.frame, if_neg fun h => hname (String.isEmpty_iff.mp h)]

/-- A frame that does not speak is heard alike under either name. -/
theorem messages_mute (self : messages.MessagesStreamDecoder) (h : ¬messages.Speaks serde frame) :
    self.decode serde (message_event frame).frame = self.decode serde frame := by
  rcases frame_message_event frame with hsame | ⟨hevent, hsame⟩
  · rw [hsame]
  · rw [hsame]
    unfold messages.MessagesStreamDecoder.decode
    dsimp only
    split
    · rfl
    next hblank =>
      split
      · rfl
      next hdone =>
        split
        · rfl
        next value hvalue =>
          change (self, []) = self.decode_event (messages.MessagesStreamDecoder.event_name frame value) value
          rcases hevent with hevent | hevent
          · have hheeds : ¬messages.Heeds value := fun hheeds => h ⟨hevent, hblank, hdone, value, hvalue, hheeds⟩
            rw [messages.MessagesStreamDecoder.event_name, hevent]
            exact (self.decode_event_silent hheeds).symm
          · rw [messages.MessagesStreamDecoder.event_name, hevent]
            rfl

theorem messages_speaks (self : messages.MessagesStreamDecoder) (h : messages.Speaks serde frame) :
    (self.decode serde (message_event frame).frame).2 = [] ∧ (self.decode serde frame).2 ≠ [] := by
  obtain ⟨hevent, hblank, hdone, value, hvalue, hheeds⟩ := h
  obtain ⟨event, data⟩ := frame
  obtain rfl : event = none := hevent
  constructor
  · change (self.decode serde ⟨some "message", data⟩).2 = []
    rw [messages.MessagesStreamDecoder.decode, if_neg hblank, if_neg hdone, hvalue]
    rfl
  · rw [messages.MessagesStreamDecoder.decode, if_neg hblank, if_neg hdone, hvalue]
    exact self.decode_event_heard hheeds

theorem responses_mute (self : responses.ResponsesStreamDecoder) (h : ¬responses.Speaks serde self frame) :
    self.decode serde (message_event frame).frame = self.decode serde frame := by
  rcases frame_message_event frame with hsame | ⟨hevent, hsame⟩
  · rw [hsame]
  · rw [hsame]
    unfold responses.ResponsesStreamDecoder.decode
    dsimp only
    split
    · rfl
    next hdone =>
      split
      · rfl
      next hblank =>
        split
        · rfl
        next payload hpayload =>
          change (self, []) = self.decode_event (responses.ResponsesStreamDecoder.event_name frame payload) payload
          rcases hevent with hevent | hevent
          · have hheeds : ¬responses.Heeds self payload := fun hheeds => h ⟨hevent, hblank, hdone, payload, hpayload, hheeds⟩
            rw [responses.ResponsesStreamDecoder.event_name, hevent]
            exact (self.decode_event_silent hheeds).symm
          · rw [responses.ResponsesStreamDecoder.event_name, hevent]
            rfl

theorem responses_speaks {self : responses.ResponsesStreamDecoder} (h : responses.Speaks serde self frame) :
    (self.decode serde (message_event frame).frame).2 = [] ∧ (self.decode serde frame).2 ≠ [] := by
  obtain ⟨hevent, hblank, hdone, payload, hpayload, hheeds⟩ := h
  obtain ⟨event, data⟩ := frame
  obtain rfl : event = none := hevent
  constructor
  · change (self.decode serde ⟨some "message", data⟩).2 = []
    rw [responses.ResponsesStreamDecoder.decode, if_neg hdone, if_neg hblank, hpayload]
    rfl
  · rw [responses.ResponsesStreamDecoder.decode, if_neg hdone, if_neg hblank, hpayload]
    exact responses.ResponsesStreamDecoder.decode_event_heard hheeds

end Paths

section Reading

variable {σ : Type} {T : Transducer σ SseFrame StreamEvent} {eventsource : List Bytes → List Sse} {chunks : List Bytes}

/-- The frames that the transcoded path decodes. -/
def reported_frames (eventsource : List Bytes → List Sse) (chunks : List Bytes) : List SseFrame := (eventsource chunks).map Sse.frame

/-- The frames with data, which are the ones that a decoder hears. -/
def heard (frames : List SseFrame) : List SseFrame := frames.filter fun frame => has_data frame.data

theorem heard_reported (h : ReadsAlike eventsource chunks) :
    heard (reported_frames eventsource chunks) = (heard (body_frames chunks)).map fun frame => (message_event frame).frame := by
  have hdata : ∀ sse : Sse, has_data sse.frame.data = has_data sse.data := fun _ => rfl
  rw [heard, reported_frames, List.filter_map]
  change ((eventsource chunks).filter fun sse => has_data sse.frame.data).map Sse.frame = _
  rw [List.filter_congr fun sse _ => hdata sse, h, List.map_map]
  rfl

/-- At every moment both paths have read the same of a body. -/
def InStep (T : Transducer σ SseFrame StreamEvent) (eventsource : List Bytes → List Sse) (chunks : List Bytes) : Prop :=
  ∀ n, T.emit T.init ((heard (reported_frames eventsource chunks)).take n) = T.emit T.init ((heard (body_frames chunks)).take n)

/-- Both paths have read the same of a body at its end. -/
def Agreed (T : Transducer σ SseFrame StreamEvent) (eventsource : List Bytes → List Sse) (chunks : List Bytes) : Prop :=
  T.outputs (reported_frames eventsource chunks) = T.outputs (body_frames chunks)

theorem agreed_of_silent {Speaks : σ → SseFrame → Prop} (h : ReadsAlike eventsource chunks)
    (hidle : ∀ s frame, has_data frame.data = false → T.step s frame = (s, []))
    (hmute : ∀ s frame, ¬Speaks s frame → T.step s (message_event frame).frame = T.step s frame)
    (hsilent : Silent T Speaks T.init (heard (body_frames chunks))) : Agreed T eventsource chunks := by
  rw [Agreed, ← outputs_filter hidle, ← outputs_filter hidle (body_frames chunks)]
  change T.outputs (heard _) = T.outputs (heard _)
  rw [heard_reported h]
  exact outputs_mute hmute hsilent

theorem inStep_iff {Speaks : σ → SseFrame → Prop} (h : ReadsAlike eventsource chunks)
    (hmute : ∀ s frame, ¬Speaks s frame → T.step s (message_event frame).frame = T.step s frame)
    (hspeaks : ∀ s frame, Speaks s frame → (T.step s (message_event frame).frame).2 = [] ∧ (T.step s frame).2 ≠ []) :
    InStep T eventsource chunks ↔ Silent T Speaks T.init (heard (body_frames chunks)) := by
  rw [InStep, heard_reported h]
  exact emit_mute_iff hmute hspeaks

/-- Where names do not matter, the paths never part. -/
theorem agreed_of_nameless (h : ReadsAlike eventsource chunks)
    (hidle : ∀ s frame, has_data frame.data = false → T.step s frame = (s, []))
    (hname : ∀ s frame, T.step s (message_event frame).frame = T.step s frame) :
    Agreed T eventsource chunks ∧ InStep T eventsource chunks := by
  have hsilent : Silent T (fun _ _ => False) T.init (heard (body_frames chunks)) := fun _ _ _ _ hspeaks => hspeaks
  exact ⟨agreed_of_silent h hidle (fun s frame _ => hname s frame) hsilent,
    (inStep_iff h (fun s frame _ => hname s frame) fun _ _ hspeaks => hspeaks.elim).mpr hsilent⟩

end Reading

section Protocols

variable {serde : Serde} {frame : SseFrame}

theorem data_eq_empty (h : has_data frame.data = false) : frame.data = "" := by
  by_contra hdata
  exact absurd h (by rw [has_data, decide_eq_true hdata]; decide)

theorem message_event_data (frame : SseFrame) : (message_event frame).frame.data = frame.data := rfl

theorem chat_idle (self : codec.chat.ChatStreamDecoder) (h : has_data frame.data = false) : self.decode serde frame = (self, []) := by
  rw [codec.chat.ChatStreamDecoder.decode, data_eq_empty h]
  exact if_pos trim_empty

theorem chat_nameless (self : codec.chat.ChatStreamDecoder) (frame : SseFrame) :
    self.decode serde (message_event frame).frame = self.decode serde frame := by
  rw [codec.chat.ChatStreamDecoder.decode, codec.chat.ChatStreamDecoder.decode, message_event_data]

theorem gemini_nameless {uuid : String} (self : codec.gemini.GeminiStreamDecoder) (frame : SseFrame) :
    self.decode serde uuid (message_event frame).frame = self.decode serde uuid frame := by
  rw [codec.gemini.GeminiStreamDecoder.decode, codec.gemini.GeminiStreamDecoder.decode, message_event_data]

theorem gemini_idle {uuid : String} (self : codec.gemini.GeminiStreamDecoder) (h : has_data frame.data = false) :
    self.decode serde uuid frame = (self, []) := by
  rw [codec.gemini.GeminiStreamDecoder.decode, data_eq_empty h]
  exact if_pos (.inl trim_empty)

theorem messages_idle (self : codec.messages.MessagesStreamDecoder) (h : has_data frame.data = false) :
    self.decode serde frame = (self, []) := by
  rw [codec.messages.MessagesStreamDecoder.decode, data_eq_empty h]
  exact if_pos trim_empty

theorem responses_idle (self : codec.responses.ResponsesStreamDecoder) (h : has_data frame.data = false) :
    self.decode serde frame = (self, []) := by
  rw [codec.responses.ResponsesStreamDecoder.decode, data_eq_empty h, trim_empty]
  rfl

end Protocols

/-- No frame without a name has an event of the Messages protocol for its payload. -/
def MessagesNamed (serde : Serde) (chunks : List Bytes) : Prop :=
  Silent (codec.messages.stream_decoder serde) (fun _ frame => codec.messages.Speaks serde frame) {} (heard (body_frames chunks))

/-- No frame without a name has an event of the Responses protocol for its payload. -/
def ResponsesNamed (serde : Serde) (chunks : List Bytes) : Prop :=
  Silent (codec.responses.stream_decoder serde) (codec.responses.Speaks serde) {} (heard (body_frames chunks))

/-- A reader for the transcoded path that reads as the native one does. -/
def standard_reader (chunks : List Bytes) : List Sse := (body_frames chunks).map message_event

theorem standard_reader_readsAlike (chunks : List Bytes) : ReadsAlike standard_reader chunks := by
  rw [ReadsAlike, standard_reader, List.filter_map]
  rfl

/-- A body whose frames have no names. -/
def nameless_body : List Bytes :=
  [as_bytes "data: \x7b\"type\":\"message_start\",\"message\":\x7b\"id\":\"m\"\x7d\x7d\n\n",
    as_bytes "data: \x7b\"type\":\"message_stop\"\x7d\n\n"]

end refract.gateway
