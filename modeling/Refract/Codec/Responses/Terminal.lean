import Refract.Codec.Responses.Decoder
import Refract.Machine.Ending

open refract.json refract.machine refract.stream

namespace refract.codec.responses

open ResponsesStreamDecoder

/-- The document of a frame that is neither blank nor the sentinel. -/
def payload (serde : Serde) (frame : SseFrame) : Option Value :=
  if trim frame.data = "[DONE]" ∨ trim frame.data = "" then none else serde.from_str frame.data

/-- The frame is a payload of one of the events. -/
def has_event (serde : Serde) (events : List String) (frame : SseFrame) : Bool :=
  (payload serde frame).any (event_name frame · ∈ events)

/-- The events that open a stream. -/
def opening_events : List String := ["response.created", "response.in_progress"]

/-- The events that complete a stream. -/
def completing_events : List String := ["response.completed", "response.incomplete"]

/-- The events that report the failure of a stream. -/
def failing_events : List String := ["response.failed", "error"]

/-- The frame completes a stream: the sentinel, or a final response object. -/
def completes (serde : Serde) (frame : SseFrame) : Bool :=
  trim frame.data = "[DONE]" || has_event serde completing_events frame

/-- The frame completes a stream or reports its failure. -/
def marks_end (serde : Serde) (frame : SseFrame) : Bool :=
  completes serde frame || has_event serde failing_events frame

/-- The block a payload opens or continues: its item and its kind. -/
def announcement (event : String) (payload : Value) : Option (Nat × PartKind) :=
  let index := output_index payload
  match event with
  | "response.output_item.added" =>
    match ((payload.get "item").bind (·.get_str "type")).getD "" with
    | "function_call" => some (index, .toolUse)
    | "reasoning" => some (index, .thinking)
    | _ => none
  | "response.content_part.added" => some (index, part_kind payload)
  | "response.output_text.delta" => some (index, .text)
  | "response.refusal.delta" => some (index, .refusal)
  | "response.reasoning_summary_text.delta" | "response.reasoning_text.delta" => some (index, .thinking)
  | "response.function_call_arguments.delta" => some (index, .toolUse)
  | "response.output_item.done" =>
    ((payload.get "item").bind (·.get_str "encrypted_content")).map fun _ => (index, .thinking)
  | _ => none

def announces (serde : Serde) (frame : SseFrame) : Option (Nat × PartKind) :=
  (payload serde frame).bind fun value => announcement (event_name frame value) value

/-- The kind of block that the frames announced last for an item. -/
def announced (serde : Serde) (frames : List SseFrame) (index : Nat) : Option PartKind :=
  (frames.filterMap (announces serde)).reverse.lookup index

/-- The payload says nothing new: it opens the stream or a block once more, or
    is of an unknown event. -/
def idle_event (started : Bool) (announced : Nat → Option PartKind) (event : String) (payload : Value) : Bool :=
  match event with
  | "response.created" | "response.in_progress" => started
  | "response.output_item.added" =>
    match ((payload.get "item").bind (·.get_str "type")).getD "" with
    | "function_call" => false
    | "reasoning" => announced (output_index payload) == some .thinking
    | _ => true
  | "response.content_part.added" => announced (output_index payload) == some (part_kind payload)
  | "response.output_text.delta" | "response.refusal.delta" | "response.reasoning_summary_text.delta"
  | "response.reasoning_text.delta" | "response.function_call_arguments.delta" | "response.output_item.done"
  | "response.completed" | "response.incomplete" | "response.failed" | "error" => false
  | _ => true

/-- The frame is blank, no document, another sentinel, or says nothing new. -/
def idle (serde : Serde) (started : Bool) (announced : Nat → Option PartKind) (frame : SseFrame) : Bool :=
  (payload serde frame).all fun value => idle_event started announced (event_name frame value) value

/-- No failure comes before a stream's completion, and after it nothing new. -/
def CompletesOnce (serde : Serde) (frames : List SseFrame) : Prop :=
  let earlier := before (marks_end serde) frames
  (∀ mark, frames.find? (marks_end serde) = some mark → completes serde mark = true) ∧
    ∀ f ∈ after (marks_end serde) frames,
      idle serde (earlier.any (has_event serde opening_events)) (announced serde earlier) f = true

/-- A payload that says nothing new opens and announces what already is. -/
theorem idle_event_known {started : Bool} {announced : Nat → Option PartKind} {event : String} {value : Value}
    (hidle : idle_event started announced event value = true) :
    (event ∈ opening_events → started = true) ∧
      ∀ index kind, announcement event value = some (index, kind) → announced index = some kind := by
  unfold idle_event at hidle
  unfold announcement opening_events
  dsimp only
  split at hidle <;> simp_all
  split at hidle <;> simp_all

namespace ResponsesStreamDecoder

variable {serde : Serde} {self : ResponsesStreamDecoder}

/-- A frame is decoded as its payload, if it is no sentinel. -/
theorem decode_eq (frame : SseFrame) (hframe : trim frame.data ≠ "[DONE]") :
    self.decode serde frame =
      match payload serde frame with
      | none => (self, [])
      | some value => self.decode_event (event_name frame value) value := by
  unfold decode payload
  simp only [hframe, if_false, false_or]
  split <;> rfl

theorem ensure_open_state (index : Nat) (kind : PartKind) :
    (self.ensure_open index kind).1.started = self.started ∧
      (self.ensure_open index kind).1.finished = self.finished ∧
      (∀ i, slot (self.ensure_open index kind).1.opened i = if i = index then some kind else slot self.opened i) ∧
      (∀ e ∈ (self.ensure_open index kind).2, e.is_done = false) ∧
      ((self.ensure_open index kind).2 = [] ↔ slot self.opened index = some kind) := by
  unfold ensure_open
  split
  · rename_i hopened
    refine ⟨rfl, rfl, ?_, by simp, by simp [hopened]⟩
    intro i
    split
    · rw [‹i = index›, hopened]
    · rfl
  · rename_i hopened
    refine ⟨rfl, rfl, fun i => slot_put _ _ _ _, by simp [StreamEvent.is_done], by simp [hopened]⟩

/-- What an event does to the state. -/
theorem decode_event_state (event : String) (value : Value) :
    (self.decode_event event value).1.started =
        (self.started || event ∈ opening_events) ∧
      (self.decode_event event value).1.finished =
        (self.finished || event ∈ completing_events || event ∈ failing_events) ∧
      ∀ i, slot (self.decode_event event value).1.opened i =
        ((announcement event value).toList.lookup i).or (slot self.opened i) := by
  have hlookup (index i : Nat) (kind : PartKind) (rest : Option PartKind) :
      (([(index, kind)] : List (Nat × PartKind)).lookup i).or rest = if i = index then some kind else rest := by
    by_cases hi : i = index
    · simp [hi]
    · have hbeq : (i == index) = false := by simpa using hi
      simp [List.lookup_cons, hbeq, hi]
  have hstart (resp : Value) : (self.decode_created resp).1.opened = self.opened ∧
      (self.decode_created resp).1.finished = self.finished ∧ (self.decode_created resp).1.started = true := by
    unfold decode_created
    split <;> simp [*]
  unfold decode_event announcement opening_events completing_events failing_events
  dsimp only
  split
  · simp [hstart]
  · simp [hstart]
  · unfold decode_item_added
    dsimp only
    split <;> simp [in_block, ensure_open_state, *]
  · simp [ensure_open_state, hlookup]
  · simp [in_block, ensure_open_state, hlookup]
  · simp [in_block, ensure_open_state, hlookup]
  · simp [in_block, ensure_open_state, hlookup]
  · simp [in_block, ensure_open_state, hlookup]
  · simp [in_block, ensure_open_state, hlookup]
  · unfold decode_item_done
    dsimp only
    split <;> simp [in_block, ensure_open_state, *]
  · simp [decode_completed]
  · simp [decode_completed]
  · simp
  · simp
  · simp_all

/-- Only the completion of a stream reports its end, and only the first time. -/
theorem decode_event_quiet (event : String) (value : Value)
    (hevent : self.finished = true ∨ event ∉ completing_events) :
    ∀ e ∈ (self.decode_event event value).2, e.is_done = false := by
  have hcreated (resp : Value) : ∀ e ∈ (self.decode_created resp).2, e.is_done = false := by
    unfold decode_created
    split <;> simp [StreamEvent.is_done]
  have hblock (index : Nat) (kind : PartKind) (e : StreamEvent) (he : e.is_done = false) :
      ∀ x ∈ (self.in_block index kind e).2, x.is_done = false := by
    obtain ⟨_, _, _, hopening, _⟩ := self.ensure_open_state index kind
    intro x hx
    rcases List.mem_append.mp hx with hx | hx
    · exact hopening x hx
    · rw [List.mem_singleton.mp hx]
      exact he
  have hcompleted (event : String) (hfinished : self.finished = true) :
      ∀ e ∈ (self.decode_completed event value).2, e.is_done = false := by
    intro e he
    simp only [decode_completed, hfinished, if_true, List.append_nil, List.mem_append, Option.mem_toList,
      Option.map_eq_some_iff, List.mem_singleton] at he
    rcases he with ⟨usage, _, rfl⟩ | rfl <;> rfl
  unfold decode_event
  dsimp only
  split
  · exact hcreated value
  · exact hcreated value
  · unfold decode_item_added
    dsimp only
    split
    · exact hblock _ _ _ rfl
    · exact (self.ensure_open_state _ _).2.2.2.1
    · simp
  · exact (self.ensure_open_state _ _).2.2.2.1
  · exact hblock _ _ _ rfl
  · exact hblock _ _ _ rfl
  · exact hblock _ _ _ rfl
  · exact hblock _ _ _ rfl
  · exact hblock _ _ _ rfl
  · unfold decode_item_done
    dsimp only
    split
    · rename_i sig _
      intro e he
      rcases List.mem_append.mp he with he | he
      · exact hblock _ _ _ rfl e he
      · rw [List.mem_singleton.mp he]
        rfl
    · simp [StreamEvent.is_done]
  · exact hcompleted _ (by simpa [completing_events] using hevent)
  · exact hcompleted _ (by simpa [completing_events] using hevent)
  · simp [decode_error, StreamEvent.is_done]
  · simp [decode_error, StreamEvent.is_done]
  · simp

/-- The first completion reports the end of the stream, last. -/
theorem decode_event_completing (hfinished : self.finished = false) {event : String}
    (hevent : event ∈ completing_events) (value : Value) :
    EndsWith StreamEvent.is_done (self.decode_event event value).2 := by
  have hcompleted (event : String) : EndsWith StreamEvent.is_done (self.decode_completed event value).2 := by
    simp only [decode_completed, hfinished, Bool.false_eq_true, if_false, List.append_assoc]
    apply EndsWith.prepend
    · exact (EndsWith.singleton rfl).prepend (by simp [StreamEvent.is_done])
    · intro e he
      simp only [Option.mem_toList, Option.map_eq_some_iff] at he
      obtain ⟨usage, _, rfl⟩ := he
      rfl
  simp only [completing_events, List.mem_cons, List.not_mem_nil, or_false] at hevent
  rcases hevent with rfl | rfl
  · exact hcompleted _
  · exact hcompleted _

/-- An event is silent exactly when it says nothing new. -/
theorem decode_event_idle (event : String) (value : Value) :
    (self.decode_event event value).2 = [] ↔ idle_event self.started (slot self.opened) event value = true := by
  unfold decode_event idle_event
  dsimp only
  split
  · unfold decode_created
    split <;> simp [*]
  · unfold decode_created
    split <;> simp [*]
  · unfold decode_item_added
    dsimp only
    split <;> simp [in_block, ensure_open_state, *]
  · simp [ensure_open_state]
  · simp [in_block]
  · simp [in_block]
  · simp [in_block]
  · simp [in_block]
  · simp [in_block]
  · unfold decode_item_done
    dsimp only
    split <;> simp
  · simp [decode_completed]
  · simp [decode_completed]
  · simp
  · simp
  · simp [*]

variable (serde) in
/-- What a frame does to the state. -/
theorem decode_state (frame : SseFrame) :
    (self.decode serde frame).1.started = (self.started || has_event serde opening_events frame) ∧
      (self.decode serde frame).1.finished = (self.finished || marks_end serde frame) ∧
      ∀ i, slot (self.decode serde frame).1.opened i =
        ((announces serde frame).toList.lookup i).or (slot self.opened i) := by
  unfold marks_end completes has_event announces
  by_cases hsentinel : trim frame.data = "[DONE]"
  · unfold decode payload
    cases hfinished : self.finished <;> simp [hsentinel, hfinished]
  · rw [decode_eq frame hsentinel]
    cases payload serde frame with
    | none => simp [hsentinel]
    | some value =>
      obtain ⟨hstarted, hfinished, hopened⟩ := self.decode_event_state (event_name frame value) value
      refine ⟨?_, ?_, ?_⟩
      · simpa using hstarted
      · simpa [hsentinel, Bool.or_assoc] using hfinished
      · simpa using hopened

/-- Only the completion of a stream reports its end, and only the first time. -/
theorem decode_quiet {frame : SseFrame} (hframe : self.finished = true ∨ completes serde frame = false) :
    ∀ e ∈ (self.decode serde frame).2, e.is_done = false := by
  unfold completes has_event at hframe
  by_cases hsentinel : trim frame.data = "[DONE]"
  · have hfinished : self.finished = true := by simpa [hsentinel] using hframe
    simp [decode, hsentinel, hfinished]
  · rw [decode_eq frame hsentinel]
    cases hvalue : payload serde frame with
    | none => simp
    | some value =>
      apply decode_event_quiet
      simpa [hsentinel, hvalue] using hframe

/-- The first completion reports the end of the stream, last. -/
theorem decode_completing (hfinished : self.finished = false) {frame : SseFrame}
    (hframe : completes serde frame = true) : EndsWith StreamEvent.is_done (self.decode serde frame).2 := by
  unfold completes has_event at hframe
  by_cases hsentinel : trim frame.data = "[DONE]"
  · simp only [decode, hsentinel, hfinished, if_true, Bool.false_eq_true, if_false]
    exact EndsWith.singleton rfl
  · rw [decode_eq frame hsentinel]
    cases hvalue : payload serde frame with
    | none => simp [hsentinel, hvalue] at hframe
    | some value =>
      apply decode_event_completing hfinished
      simpa [hsentinel, hvalue] using hframe

variable (serde) in
/-- After the end exactly the frames that say nothing new are silent. -/
theorem decode_idle (hfinished : self.finished = true) (frame : SseFrame) :
    (self.decode serde frame).2 = [] ↔ idle serde self.started (slot self.opened) frame = true := by
  unfold idle
  by_cases hsentinel : trim frame.data = "[DONE]"
  · simp [decode, payload, hsentinel, hfinished]
  · rw [decode_eq frame hsentinel]
    cases payload serde frame with
    | none => simp
    | some value => simpa using self.decode_event_idle (event_name frame value) value

variable (serde) in
/-- A payload that says nothing new announces nothing and opens nothing. -/
theorem decode_idle_state (frame : SseFrame) (hframe : idle serde self.started (slot self.opened) frame = true) :
    (self.decode serde frame).1.started = self.started ∧
      slot (self.decode serde frame).1.opened = slot self.opened := by
  obtain ⟨hstarted, _, hopened⟩ := self.decode_state serde frame
  unfold idle at hframe
  unfold has_event at hstarted
  unfold announces at hopened
  cases hvalue : payload serde frame with
  | none =>
    refine ⟨by simpa [hvalue] using hstarted, ?_⟩
    funext i
    simpa [hvalue] using hopened i
  | some value =>
    rw [hvalue, Option.all_some] at hframe
    obtain ⟨hknown, hannounced⟩ := idle_event_known hframe
    refine ⟨?_, ?_⟩
    · rw [hstarted, hvalue, Option.any_some]
      by_cases hevent : event_name frame value ∈ opening_events
      · rw [hknown hevent, Bool.true_or]
      · simp [hevent]
    · funext i
      rw [hopened, hvalue, Option.bind_some]
      cases hann : announcement (event_name frame value) value with
      | none => rfl
      | some a =>
        obtain ⟨index, kind⟩ := a
        by_cases hi : i = index
        · subst hi
          simp [hannounced _ _ hann]
        · have hbeq : (i == index) = false := by simpa using hi
          simp [List.lookup_cons, hbeq]

end ResponsesStreamDecoder

theorem stream_decoder_closes (serde : Serde) :
    (stream_decoder serde).Closes (·.finished) (marks_end serde) StreamEvent.is_done where
  init := rfl
  running s frame hfinished hframe := by
    obtain ⟨_, hflag, _⟩ := s.decode_state serde frame
    have hcompletes : completes serde frame = false := by
      unfold marks_end at hframe
      exact (Bool.or_eq_false_iff.mp hframe).1
    rw [stream_decoder_step, hflag, hfinished, hframe]
    exact ⟨rfl, s.decode_quiet (.inr hcompletes)⟩
  stays s frame hfinished := by
    obtain ⟨_, hflag, _⟩ := s.decode_state serde frame
    rw [stream_decoder_step, hflag, hfinished, Bool.true_or]
  finish_running s hfinished := by
    rw [stream_decoder_finish, finish, hfinished]
    exact EndsWith.singleton rfl
  finish_closed s hfinished := by
    rw [stream_decoder_finish, finish, if_pos hfinished]

/-- A frame that ends a stream opens nothing. -/
theorem announces_of_marks_end {serde : Serde} {frame : SseFrame} (hframe : marks_end serde frame = true) :
    has_event serde opening_events frame = false ∧ announces serde frame = none := by
  unfold marks_end completes at hframe
  unfold has_event announces at *
  by_cases hsentinel : trim frame.data = "[DONE]"
  · simp [payload, hsentinel]
  · cases hvalue : payload serde frame with
    | none => simp [hsentinel, hvalue] at hframe
    | some value =>
      have hevent : event_name frame value ∈ completing_events ++ failing_events := by
        rw [List.mem_append]
        simpa [hsentinel, hvalue] using hframe
      simp only [completing_events, failing_events, List.cons_append, List.nil_append, List.mem_cons,
        List.not_mem_nil, or_false] at hevent
      rcases hevent with hevent | hevent | hevent | hevent <;>
        simp [hevent, opening_events, announcement]

/-- The state of a decoder after some frames. -/
theorem advance_state (serde : Serde) (frames : List SseFrame) :
    ((stream_decoder serde).advance {} frames).started = frames.any (has_event serde opening_events) ∧
      ∀ i, slot ((stream_decoder serde).advance {} frames).opened i = announced serde frames i := by
  let P (frames : List SseFrame) (_ : List StreamEvent) (s : ResponsesStreamDecoder) : Prop :=
    s.started = frames.any (has_event serde opening_events) ∧ ∀ i, slot s.opened i = announced serde frames i
  apply Transducer.history (T := stream_decoder serde) (P := P)
  · rintro frames events s frame ⟨hstarted, hopened⟩
    obtain ⟨hstarted', _, hopened'⟩ := s.decode_state serde frame
    rw [stream_decoder_step]
    refine ⟨?_, ?_⟩
    · rw [hstarted', hstarted, List.any_append, List.any_cons, List.any_nil, Bool.or_false]
    · intro i
      rw [hopened', hopened]
      unfold announced
      rw [List.filterMap_append, List.reverse_append, List.lookup_append]
      cases hframe : announces serde frame <;> simp [hframe]
  · exact ⟨rfl, fun i => rfl⟩

/-- A stream has one end, and it is last, exactly when it completes once. -/
theorem decode_endsWith_done (serde : Serde) (frames : List SseFrame) :
    EndsWith StreamEvent.is_done ((stream_decoder serde).outputs frames) ↔ CompletesOnce serde frames := by
  have hcloses := stream_decoder_closes serde
  unfold CompletesOnce
  dsimp only
  obtain ⟨hall, hnone, hnil⟩ | ⟨mark, hsplit, hmark, hsome⟩ := split_first (p := marks_end serde) frames
  · rw [hnil, hnone]
    have hunmarked : ∀ f ∈ frames, marks_end serde f = false := by
      rw [← hall]
      exact fun f => of_mem_before
    exact ⟨fun _ => by simp, fun _ => hcloses.endsWith_of_unmarked hunmarked⟩
  · have hpre : ∀ f ∈ before (marks_end serde) frames, marks_end serde f = false := fun f => of_mem_before
    have hclosed : ∀ s : ResponsesStreamDecoder, s.finished = false →
        ((stream_decoder serde).step s mark).1.finished = true := by
      intro s _
      rw [stream_decoder_step, (s.decode_state serde mark).2.1, hmark, Bool.or_true]
    rw [hsome]
    conv_lhs => rw [hsplit]
    cases hcompletes : completes serde mark with
    | false =>
      refine iff_of_false ?_ (by simp [hcompletes])
      apply hcloses.not_endsWith hpre hclosed
      · intro s _
        rw [stream_decoder_step]
        exact s.decode_quiet (.inr hcompletes)
      · intro s f hfinished
        rw [stream_decoder_step]
        exact s.decode_quiet (.inl hfinished)
    | true =>
      have hlast : ∀ s : ResponsesStreamDecoder, s.finished = false →
          EndsWith StreamEvent.is_done ((stream_decoder serde).step s mark).2 := by
        intro s hfinished
        rw [stream_decoder_step]
        exact s.decode_completing hfinished hcompletes
      rw [hcloses.endsWith_iff hpre hclosed hlast]
      obtain ⟨hopen, _⟩ := hcloses.run _ hpre
      obtain ⟨hstarted, hopened⟩ := advance_state serde (before (marks_end serde) frames)
      rw [stream_decoder_init] at hopen ⊢
      have hstate := ((stream_decoder serde).advance {} (before (marks_end serde) frames)).decode_state
        serde mark
      obtain ⟨hevent, hannounces⟩ := announces_of_marks_end hmark
      rw [hevent, Bool.or_false, hannounces, hmark, Bool.or_true] at hstate
      obtain ⟨hstarted', hfinished', hopened'⟩ := hstate
      have hidle := Transducer.emit_eq_nil_iff (T := stream_decoder serde)
        (P := fun s => s.finished = true ∧ s.started = (before (marks_end serde) frames).any (has_event serde opening_events) ∧
          slot s.opened = announced serde (before (marks_end serde) frames))
        (Q := fun f => idle serde ((before (marks_end serde) frames).any (has_event serde opening_events))
          (announced serde (before (marks_end serde) frames)) f = true) ?_ (s := _)
        ⟨hfinished', hstarted'.trans hstarted, funext fun i => (hopened' i).trans (hopened i)⟩
        (after (marks_end serde) frames)
      · rw [stream_decoder_step, hidle]
        simp [hcompletes]
      · rintro s f ⟨hfinished, hstarted, hopened⟩
        have hquiet := s.decode_idle serde hfinished f
        have hkeeps := s.decode_idle_state serde f
        have hstays := hcloses.stays s f hfinished
        rw [hstarted, hopened] at hquiet hkeeps
        rw [stream_decoder_step] at hstays ⊢
        refine ⟨hquiet, fun hf => ?_⟩
        obtain ⟨hstarted', hopened'⟩ := hkeeps hf
        exact ⟨hstays, hstarted', hopened'⟩

end refract.codec.responses
