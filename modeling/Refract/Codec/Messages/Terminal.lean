import Refract.Codec.Messages.Decoder
import Refract.Machine.Ending

open refract.json refract.machine refract.stream

namespace refract.codec.messages

open MessagesStreamDecoder

/-- The frame ends a stream: the sentinel, or a `message_stop` payload. -/
def marks_end (serde : Serde) (frame : SseFrame) : Bool :=
  let data := trim frame.data
  if data = "" then false
  else if data = "[DONE]" then true
  else
    match serde.from_str data with
    | none => false
    | some value => event_name frame value == "message_stop"

/-- The payload of an event that says nothing: an unknown event, a delta of an
    unknown type, or a message delta without usage and stop reason. -/
def idle_event (event : String) (value : Value) : Bool :=
  match event with
  | "message_start" | "content_block_start" | "content_block_stop" | "message_stop" | "ping" | "error" => false
  | "content_block_delta" =>
    match ((value.get "delta").bind (·.get_str "type")).getD "" with
    | "text_delta" | "thinking_delta" | "signature_delta" | "input_json_delta" => false
    | _ => true
  | "message_delta" => (value.get "usage").isNone && ((value.get "delta").bind (·.get_str "stop_reason")).isNone
  | _ => true

/-- The frame is blank, no document, another sentinel, or says nothing. -/
def idle (serde : Serde) (frame : SseFrame) : Bool :=
  let data := trim frame.data
  if data = "" ∨ data = "[DONE]" then true
  else
    match serde.from_str data with
    | none => true
    | some value => idle_event (event_name frame value) value

namespace MessagesStreamDecoder

variable {serde : Serde} {self : MessagesStreamDecoder}

theorem ensure_started_running (index : Nat) (kind : PartKind) :
    (self.ensure_started index kind).1.done = self.done ∧
      ∀ e ∈ (self.ensure_started index kind).2, e.is_done = false := by
  unfold ensure_started
  split
  · simp
  · simp [StreamEvent.is_done]

/-- The start of a block is no end. -/
theorem decode_content_block_start_running (value : Value) :
    (self.decode_content_block_start value).1.done = self.done ∧
      ∀ e ∈ (self.decode_content_block_start value).2, e.is_done = false := by
  unfold decode_content_block_start
  refine ⟨rfl, ?_⟩
  intro e he
  simp only [List.mem_cons, List.mem_append, Option.mem_toList, Option.map_eq_some_iff] at he
  rcases he with ((rfl | he) | ⟨text, _, rfl⟩) | ⟨thinking, _, rfl⟩
  · rfl
  · split at he
    · rw [List.mem_singleton.mp he]
      rfl
    · cases he
  · rfl
  · rfl

theorem decode_content_block_delta_running (value : Value) :
    (self.decode_content_block_delta value).1.done = self.done ∧
      ∀ e ∈ (self.decode_content_block_delta value).2, e.is_done = false := by
  have hblock (index : Nat) (kind : PartKind) (e : StreamEvent) (he : e.is_done = false) :
      (self.ensure_started index kind).1.done = self.done ∧
        ∀ x ∈ (self.ensure_started index kind).2 ++ [e], x.is_done = false := by
    obtain ⟨hdone, hopening⟩ := self.ensure_started_running index kind
    refine ⟨hdone, ?_⟩
    intro x hx
    rcases List.mem_append.mp hx with hx | hx
    · exact hopening x hx
    · rw [List.mem_singleton.mp hx]
      exact he
  unfold decode_content_block_delta
  dsimp only
  split
  · exact hblock _ _ _ rfl
  · exact hblock _ _ _ rfl
  · exact hblock _ _ _ rfl
  · exact hblock _ _ _ rfl
  · simp

theorem decode_message_delta_running (value : Value) : ∀ e ∈ decode_message_delta value, e.is_done = false := by
  unfold decode_message_delta
  intro e he
  simp only [List.mem_append, Option.mem_toList, Option.map_eq_some_iff] at he
  rcases he with ⟨usage, _, rfl⟩ | ⟨reason, _, rfl⟩ <;> rfl

/-- Only `message_stop` reports the end or changes what is known about it. -/
theorem decode_event_running (event : String) (value : Value) (hevent : event ≠ "message_stop") :
    (self.decode_event event value).1.done = self.done ∧
      ∀ e ∈ (self.decode_event event value).2, e.is_done = false := by
  unfold decode_event
  split
  · simp [decode_message_start, StreamEvent.is_done]
  · exact self.decode_content_block_start_running value
  · exact self.decode_content_block_delta_running value
  · simp [StreamEvent.is_done]
  · exact ⟨rfl, decode_message_delta_running value⟩
  · exact absurd rfl hevent
  · simp [StreamEvent.is_done]
  · simp [decode_error, StreamEvent.is_done]
  · simp

/-- An event is silent exactly when it says nothing. -/
theorem decode_event_idle (event : String) (value : Value) :
    (self.decode_event event value).2 = [] ↔ idle_event event value = true := by
  unfold decode_event idle_event
  split
  · simp [decode_message_start]
  · simp [decode_content_block_start]
  · unfold decode_content_block_delta
    dsimp only
    split <;> simp [*]
  · simp
  · simp [decode_message_delta]
  · simp
  · simp
  · simp
  · simp [*]

/-- Before the end only a marked frame reports it. -/
theorem decode_running (hdone : self.done = false) {frame : SseFrame} (hframe : marks_end serde frame = false) :
    (self.decode serde frame).1.done = false ∧ ∀ e ∈ (self.decode serde frame).2, e.is_done = false := by
  unfold marks_end at hframe
  unfold decode
  dsimp only at hframe ⊢
  by_cases hempty : trim frame.data = ""
  · simp [hempty, hdone]
  · by_cases hsentinel : trim frame.data = "[DONE]"
    · simp [hsentinel] at hframe
    · simp only [hempty, hsentinel, if_false] at hframe ⊢
      cases hvalue : serde.from_str (trim frame.data) with
      | none => simp [hdone]
      | some value =>
        have hevent : event_name frame value ≠ "message_stop" := by simpa [hvalue] using hframe
        obtain ⟨hflag, hquiet⟩ := self.decode_event_running _ value hevent
        exact ⟨hflag.trans hdone, hquiet⟩

/-- Before the end a marked frame reports it, and nothing else. -/
theorem decode_marked (hdone : self.done = false) {frame : SseFrame} (hframe : marks_end serde frame = true) :
    self.decode serde frame = ({ self with done := true }, [.done]) := by
  unfold marks_end at hframe
  unfold decode
  dsimp only at hframe ⊢
  by_cases hempty : trim frame.data = ""
  · simp [hempty] at hframe
  · by_cases hsentinel : trim frame.data = "[DONE]"
    · simp [hsentinel, hdone]
    · simp only [hempty, hsentinel, if_false] at hframe ⊢
      cases hvalue : serde.from_str (trim frame.data) with
      | none => simp [hvalue] at hframe
      | some value =>
        have hevent : event_name frame value = "message_stop" := by simpa [hvalue] using hframe
        simp [hevent, decode_event]

/-- After the end exactly the idle frames are silent. -/
theorem decode_closed (hdone : self.done = true) (frame : SseFrame) :
    (self.decode serde frame).1.done = true ∧ ((self.decode serde frame).2 = [] ↔ idle serde frame = true) := by
  unfold decode idle
  dsimp only
  by_cases hempty : trim frame.data = ""
  · simp [hempty, hdone]
  · by_cases hsentinel : trim frame.data = "[DONE]"
    · simp [hsentinel, hdone]
    · simp only [hempty, hsentinel, if_false, or_self]
      cases hvalue : serde.from_str (trim frame.data) with
      | none => simp [hdone]
      | some value =>
        refine ⟨?_, self.decode_event_idle _ value⟩
        by_cases hevent : event_name frame value = "message_stop"
        · simp [hevent, decode_event]
        · exact (self.decode_event_running _ value hevent).1.trans hdone

end MessagesStreamDecoder

theorem stream_decoder_closes (serde : Serde) :
    (stream_decoder serde).Closes (·.done) (marks_end serde) StreamEvent.is_done where
  init := by rw [stream_decoder_init]
  running s frame hdone hframe := by
    rw [stream_decoder_step]
    exact s.decode_running hdone hframe
  stays s frame hdone := by
    rw [stream_decoder_step]
    exact (s.decode_closed hdone frame).1
  finish_running s hdone := by
    rw [stream_decoder_finish, finish, hdone]
    exact EndsWith.singleton rfl
  finish_closed s hdone := by
    rw [stream_decoder_finish, finish, if_pos hdone]

/-- A stream has one end, and it is last, exactly when every frame after the
    first one that ends it is idle. -/
theorem decode_endsWith_done (serde : Serde) (frames : List SseFrame) :
    EndsWith StreamEvent.is_done ((stream_decoder serde).outputs frames) ↔
      ∀ f ∈ after (marks_end serde) frames, idle serde f = true := by
  have hcloses := stream_decoder_closes serde
  obtain ⟨hall, _, hnil⟩ | ⟨mark, hsplit, hmark, _⟩ := split_first (p := marks_end serde) frames
  · rw [hnil]
    have hunmarked : ∀ f ∈ frames, marks_end serde f = false := by
      rw [← hall]
      exact fun f => of_mem_before
    exact ⟨fun _ => by simp, fun _ => hcloses.endsWith_of_unmarked hunmarked⟩
  · have hstep (s : MessagesStreamDecoder) (hdone : s.done = false) :
        (stream_decoder serde).step s mark = ({ s with done := true }, [.done]) := by
      rw [stream_decoder_step]
      exact s.decode_marked hdone hmark
    obtain ⟨hopen, _⟩ := hcloses.run (before (marks_end serde) frames) fun f => of_mem_before
    conv_lhs => rw [hsplit]
    rw [hcloses.endsWith_iff (fun f => of_mem_before) (fun s hdone => by rw [hstep s hdone])
      (fun s hdone => by rw [hstep s hdone]; exact EndsWith.singleton rfl), hstep _ hopen]
    apply Transducer.emit_eq_nil_iff (P := fun s : MessagesStreamDecoder => s.done = true)
    · intro s f hdone
      obtain ⟨hstays, hquiet⟩ := s.decode_closed hdone f
      rw [stream_decoder_step]
      exact ⟨hquiet, fun _ => hstays⟩
    · rfl

end refract.codec.messages
