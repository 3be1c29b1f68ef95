import Refract.Codec.Chat.Encoder
import Refract.Json.RoundTrip
import Refract.Machine.Ending
import Refract.Stream.Event

open refract.json refract.ir refract.machine refract.stream

namespace refract.codec.chat

/-- The frame is the sentinel. -/
def is_done (frame : SseFrame) : Bool := frame.data == DONE_SENTINEL

/-- Some choice of a chunk has a finish reason that is not null. -/
def Value.has_finish_reason (chunk : Value) : Bool :=
  match chunk.get "choices" with
  | some (.array choices) => choices.any fun choice =>
      match choice.get "finish_reason" with
      | some reason => !reason.is_null
      | none => false
  | _ => false

/-- The frame is a chunk with a finish reason. -/
def has_finish_reason (serde : Serde) (frame : SseFrame) : Bool :=
  match serde.from_str frame.data with
  | some chunk => Value.has_finish_reason chunk
  | none => false

/-- The last frame is the only sentinel, and at most one chunk has a finish
    reason. -/
def EndsOnce (serde : Serde) (frames : List SseFrame) : Prop :=
  EndsWith is_done frames ∧ frames.countP (has_finish_reason serde) ≤ 1

namespace ChatStreamEncoder

@[simp] theorem is_done_done_frame : is_done done_frame = true := rfl

section Payloads

variable {serde : Serde} (hserde : serde.Lawful) (self : ChatStreamEncoder)

include hserde

/-- A frame that holds a document is no sentinel, and is read as the document. -/
theorem document_frame {v : Value} (hv : v.WellFormed) :
    is_done (.ofData (serde.to_string v)) = false ∧
      has_finish_reason serde (.ofData (serde.to_string v)) = Value.has_finish_reason v := by
  have hne := hserde.to_string_ne_done hv
  refine ⟨?_, ?_⟩
  · simpa [is_done, DONE_SENTINEL] using hne
  · simp only [has_finish_reason, SseFrame.ofData_data, hserde.from_str_to_string v hv]

/-- A chunk is no sentinel, and has a finish reason when one is given. -/
theorem chunk_frame (delta : Map) (hdelta : (Value.object delta).WellFormed) (finish : Option String) :
    is_done (self.chunk serde delta finish) = false ∧
      has_finish_reason serde (self.chunk serde delta finish) = finish.isSome := by
  unfold chunk
  obtain ⟨hdone, hreason⟩ := document_frame hserde (v := .object (self.chunk_head ++
    [("choices", .array [.object [("index", .nat 0), ("delta", .object delta),
      ("finish_reason", (finish.map .string).getD .null)]])])) (by
        cases finish <;> simpa [chunk_head] using hdelta)
  refine ⟨hdone, ?_⟩
  rw [hreason]
  cases finish <;> rfl

theorem usage_frame_plain :
    is_done (self.usage_frame serde) = false ∧ has_finish_reason serde (self.usage_frame serde) = false := by
  unfold usage_frame
  obtain ⟨hdone, hreason⟩ := document_frame hserde (v := .object (self.chunk_head ++
    [("choices", .array []), ("usage", usage_json self.usage)])) (by
      simp [chunk_head, usage_json_wellFormed])
  refine ⟨hdone, ?_⟩
  rw [hreason]
  rfl

theorem error_frame_plain (message kind : String) :
    is_done (error_frame serde message kind) = false ∧
      has_finish_reason serde (error_frame serde message kind) = false := by
  unfold error_frame
  obtain ⟨hdone, hreason⟩ := document_frame hserde (v := .object
    [("error", .object [("message", .string message), ("type", .string kind)])]) (by simp)
  refine ⟨hdone, ?_⟩
  rw [hreason]
  rfl

theorem done_frame_plain : has_finish_reason serde done_frame = false := by
  simp [has_finish_reason, done_frame, DONE_SENTINEL, hserde.from_str_done]

end Payloads

end ChatStreamEncoder

/-- The event makes the encoder write its opening chunk. -/
def opens : StreamEvent → Bool
  | .contentStart _ _ | .contentStop _ | .usage _ | .ping | .done | .error _ _ => false
  | _ => true

/-- The event leaves nothing behind once the stream has ended. A second opening
    is only absorbed when the stream was opened before it ended. -/
def absorbed (opened : Bool) : StreamEvent → Bool
  | .start _ _ _ => opened
  | .contentStart _ _ | .contentStop _ | .usage _ | .ping | .done => true
  | _ => false

/-- At most one finish reason arrives before the end, and only absorbed events
    arrive after it. -/
def EndsCleanly (es : List StreamEvent) : Prop :=
  (live es).countP StreamEvent.is_stop ≤ 1 ∧ ∀ e ∈ late es, absorbed ((live es).any opens) e = true

variable {serde : Serde} {self : ChatStreamEncoder} {es : List StreamEvent} {frames : List SseFrame}

open ChatStreamEncoder

/-- What an encoder that has not ended its stream has read and written. -/
structure Running (serde : Serde) (es : List StreamEvent) (frames : List SseFrame)
    (encoder : ChatStreamEncoder) : Prop where
  live : encoder.done = false
  opened : encoder.opened = es.any opens
  finished : encoder.finished = es.any StreamEvent.is_stop
  no_done : ∀ f ∈ frames, is_done f = false
  reasons : frames.countP (has_finish_reason serde) = es.countP StreamEvent.is_stop

namespace Running

theorem init (serde : Serde) (uuid : String) (now : Int) : Running serde [] [] (.new uuid now) :=
  ⟨rfl, rfl, rfl, by simp, rfl⟩

/-- Extending a run by an event and the frames written for it. -/
theorem extend (h : Running serde es frames self) {e : StreamEvent} {after : ChatStreamEncoder} {more : List SseFrame}
    (hlive : after.done = false) (hopened : after.opened = (self.opened || opens e))
    (hfinished : after.finished = (self.finished || e.is_stop)) (hdone : ∀ f ∈ more, is_done f = false)
    (hreasons : more.countP (has_finish_reason serde) = [e].countP StreamEvent.is_stop) :
    Running serde (es ++ [e]) (frames ++ more) after where
  live := hlive
  opened := by rw [hopened, h.opened, List.any_append, List.any_cons, List.any_nil, Bool.or_false]
  finished := by rw [hfinished, h.finished, List.any_append, List.any_cons, List.any_nil, Bool.or_false]
  no_done f hf := by
    rcases List.mem_append.mp hf with hf | hf
    · exact h.no_done f hf
    · exact hdone f hf
  reasons := by rw [List.countP_append, List.countP_append, h.reasons, hreasons]

end Running

section Opening

variable (hserde : serde.Lawful)

include hserde

/-- The opening chunk is written when none was, and is an ordinary one. -/
theorem openStream_spec (self : ChatStreamEncoder) :
    (self.openStream serde).1 = { self with opened := true } ∧
      (∀ f ∈ (self.openStream serde).2, is_done f = false) ∧
      (self.openStream serde).2.countP (has_finish_reason serde) = 0 ∧
      ((self.openStream serde).2 = [] ↔ self.opened = true) := by
  obtain ⟨hdone, hreason⟩ := self.chunk_frame hserde
    [("role", .string "assistant"), ("content", .string "")] (by simp) none
  unfold openStream
  by_cases hopened : self.opened = true
  · obtain ⟨⟩ := self
    simp_all
  · simp [hopened, hdone, hreason]

/-- A chunk after the opening one: the state is opened, nothing is a sentinel,
    and only the chunk's own finish reason is written. -/
theorem chunk_after_opening (self : ChatStreamEncoder) (delta : Map) (hdelta : (Value.object delta).WellFormed)
    (finish : Option String) (writer : ChatStreamEncoder) :
    (∀ f ∈ (self.openStream serde).2 ++ [writer.chunk serde delta finish], is_done f = false) ∧
      ((self.openStream serde).2 ++ [writer.chunk serde delta finish]).countP (has_finish_reason serde) =
        if finish.isSome then 1 else 0 := by
  obtain ⟨_, hdone, hreasons, _⟩ := openStream_spec hserde self
  obtain ⟨hchunk, hreason⟩ := writer.chunk_frame hserde delta hdelta finish
  refine ⟨?_, ?_⟩
  · intro f hf
    rcases List.mem_append.mp hf with hf | hf
    · exact hdone f hf
    · rw [List.mem_singleton.mp hf]
      exact hchunk
  · rw [List.countP_append, hreasons, Nat.zero_add, List.countP_singleton, hreason]

omit hserde in
theorem tool_slot_spec (self : ChatStreamEncoder) (index : Nat) :
    (self.tool_slot index).1.done = self.done ∧ (self.tool_slot index).1.opened = self.opened ∧
      (self.tool_slot index).1.finished = self.finished := by
  unfold tool_slot
  split <;> exact ⟨rfl, rfl, rfl⟩

namespace Running

variable {e : StreamEvent}

theorem write_delta (h : Running serde es frames self) {delta : Map} (hdelta : (Value.object delta).WellFormed)
    (hopens : opens e = true) (hstop : e.is_stop = false) :
    Running serde (es ++ [e]) (frames ++ (self.write_delta serde delta).2) (self.write_delta serde delta).1 := by
  obtain ⟨hstate, _, _, _⟩ := openStream_spec hserde self
  obtain ⟨hdone, hreasons⟩ := chunk_after_opening hserde self delta hdelta none (self.openStream serde).1
  unfold ChatStreamEncoder.write_delta
  apply h.extend
  · rw [hstate]
    exact h.live
  · rw [hstate, hopens, Bool.or_true]
  · rw [hstate, hstop, Bool.or_false]
  · exact hdone
  · simp [hreasons, hstop]

theorem write_tool_call (h : Running serde es frames self) (index : Nat) {call : Map}
    (hcall : ∀ ti, (Value.object (("index", .nat ti) :: call)).WellFormed)
    (hopens : opens e = true) (hstop : e.is_stop = false) :
    Running serde (es ++ [e]) (frames ++ (self.write_tool_call serde index call).2)
      (self.write_tool_call serde index call).1 := by
  obtain ⟨hstate, _, _, _⟩ := openStream_spec hserde self
  obtain ⟨hslotDone, hslotOpened, hslotFinished⟩ := tool_slot_spec (self.openStream serde).1 index
  have hdelta : ∀ ti, (Value.object
      [("tool_calls", .array [.object (("index", .nat ti) :: call)])]).WellFormed := by
    intro ti
    have hti := hcall ti
    refine .object (by simp) ?_
    intro entry hentry
    rw [List.mem_singleton.mp hentry]
    exact .array fun v hv => List.mem_singleton.mp hv ▸ hti
  obtain ⟨hdone, hreasons⟩ := chunk_after_opening hserde self _
    (hdelta ((self.openStream serde).1.tool_slot index).2) none ((self.openStream serde).1.tool_slot index).1
  unfold ChatStreamEncoder.write_tool_call
  apply h.extend
  · rw [hslotDone, hstate]
    exact h.live
  · rw [hslotOpened, hstate, hopens, Bool.or_true]
  · rw [hslotFinished, hstate, hstop, Bool.or_false]
  · exact hdone
  · simp [hreasons, hstop]

omit hserde in
/-- An event that writes nothing and changes no flag. -/
theorem silent (h : Running serde es frames self) {after : ChatStreamEncoder} (hlive : after.done = self.done)
    (hopened : after.opened = self.opened) (hfinished : after.finished = self.finished)
    (hopens : opens e = false) (hstop : e.is_stop = false) :
    Running serde (es ++ [e]) (frames ++ []) after := by
  apply h.extend
  · rw [hlive, h.live]
  · rw [hopened, hopens, Bool.or_false]
  · rw [hfinished, hstop, Bool.or_false]
  · simp
  · simp [hstop]

/-- Every event that does not end the stream extends the run. -/
theorem encode (h : Running serde es frames self) (he : e.is_terminal = false) :
    Running serde (es ++ [e]) (frames ++ (self.encode serde e).2) (self.encode serde e).1 := by
  cases e with
  | start id model usage =>
    unfold ChatStreamEncoder.encode
    obtain ⟨hstate, hdone, hreasons, _⟩ := openStream_spec hserde { self with
      id := if id = "" then self.id else id
      model := if model = "" then self.model else model
      usage := (usage.map self.usage.merge_max).getD self.usage }
    apply h.extend
    · rw [hstate]
      exact h.live
    · rw [hstate]
      simp [opens]
    · rw [hstate]
      simp [StreamEvent.is_stop]
    · exact hdone
    · simp [hreasons, StreamEvent.is_stop]
  | textDelta index text => exact h.write_delta hserde (by simp) rfl rfl
  | thinkingDelta index text => exact h.write_delta hserde (by simp) rfl rfl
  | thinkingSignature index signature => exact h.write_delta hserde (by simp) rfl rfl
  | refusalDelta index text => exact h.write_delta hserde (by simp) rfl rfl
  | toolCallStart index id name signature => exact h.write_tool_call hserde index (by simp) rfl rfl
  | toolCallArgsDelta index fragment => exact h.write_tool_call hserde index (by simp) rfl rfl
  | stop reason stop_sequence =>
    obtain ⟨hstate, _, _, _⟩ := openStream_spec hserde self
    obtain ⟨hdone, hreasons⟩ := chunk_after_opening hserde self [] (by simp)
      (some (stop_reason_to_finish reason)) (self.openStream serde).1
    simp only [ChatStreamEncoder.encode]
    apply h.extend
    · rw [hstate]
      exact h.live
    · rw [hstate]
      simp [opens]
    · simp [StreamEvent.is_stop]
    · exact hdone
    · simp [hreasons, StreamEvent.is_stop]
  | usage usage => exact h.silent rfl rfl rfl rfl rfl
  | contentStart index kind => exact h.silent rfl rfl rfl rfl rfl
  | contentStop index => exact h.silent rfl rfl rfl rfl rfl
  | ping => exact h.silent rfl rfl rfl rfl rfl
  | done => cases he
  | error message kind => cases he

theorem run (uuid : String) (now : Int) (es : List StreamEvent) (hes : ∀ e ∈ es, e.is_terminal = false) :
    Running serde es ((stream_encoder serde uuid now).emit (.new uuid now) es)
      ((stream_encoder serde uuid now).advance (.new uuid now) es) := by
  let P (es : List StreamEvent) (frames : List SseFrame) (self : ChatStreamEncoder) : Prop :=
    (∀ e ∈ es, e.is_terminal = false) → Running serde es frames self
  have hstep : ∀ es frames self e, P es frames self →
      P (es ++ [e]) (frames ++ (self.encode serde e).2) (self.encode serde e).1 := by
    intro es frames self e hP hall
    exact (hP fun x hx => hall x (List.mem_append_left _ hx)).encode hserde (hall e (by simp))
  have hrun := Transducer.history (T := stream_encoder serde uuid now) hstep (s := .new uuid now)
    (fun _ => init serde uuid now) es
  exact hrun hes

end Running

/-- The closing frames of a running encoder end with the sentinel. A finish
    reason is only among them when the stream has none yet. -/
theorem wrap_up_spec (h : Running serde es frames self) :
    ∃ chunks, (self.wrap_up serde).2 = chunks ++ [done_frame] ∧ (∀ f ∈ chunks, is_done f = false) ∧
      chunks.countP (has_finish_reason serde) ≤ (if self.finished then 0 else 1) := by
  obtain ⟨hchunk, hreason⟩ := self.chunk_frame hserde [] (by simp) (some "stop")
  obtain ⟨husage, hnone⟩ := self.usage_frame_plain hserde
  refine ⟨_, by unfold wrap_up; rw [h.live]; rfl, ?_, ?_⟩
  · intro f hf
    rcases List.mem_append.mp hf with hf | hf
    · rcases List.mem_ite_nil_right.mp hf with ⟨_, hf⟩
      rw [List.mem_singleton.mp hf]
      exact hchunk
    · rcases List.mem_ite_nil_right.mp hf with ⟨_, hf⟩
      rw [List.mem_singleton.mp hf]
      exact husage
  · cases hfinished : self.finished <;> split <;> split <;> simp_all

/-- What a first terminal event writes: a part without sentinel, then the
    sentinel. A finish reason is only added to a stream that has none. -/
theorem terminal_spec (h : Running serde es frames self) {e : StreamEvent} (he : e.is_terminal = true) :
    ∃ chunks, (self.encode serde e).2 = chunks ++ [done_frame] ∧ (∀ f ∈ chunks, is_done f = false) ∧
      chunks.countP (has_finish_reason serde) ≤ (if self.finished then 0 else 1) := by
  cases e with
  | done => exact wrap_up_spec hserde h
  | error message kind =>
    obtain ⟨hdone, hreason⟩ := error_frame_plain hserde message kind
    refine ⟨[error_frame serde message kind], ?_, ?_, ?_⟩
    · unfold ChatStreamEncoder.encode
      simp [h.live]
    · simpa using hdone
    · simp [hreason]
  | _ => cases he

omit hserde in
variable (serde) in
theorem terminal_state (self : ChatStreamEncoder) {e : StreamEvent} (he : e.is_terminal = true) :
    (self.encode serde e).1.done = true ∧ (self.encode serde e).1.opened = self.opened := by
  cases e with
  | done =>
    unfold ChatStreamEncoder.encode wrap_up
    by_cases hdone : self.done = true <;> simp [hdone]
  | error message kind => exact ⟨rfl, rfl⟩
  | _ => cases he

/-- A stream that has ended writes nothing more exactly for absorbed events. -/
theorem late_step (hdone : self.done = true) (e : StreamEvent) :
    (self.encode serde e).1.done = true ∧
      ((self.encode serde e).2 = [] ↔ absorbed self.opened e = true) ∧
      (absorbed self.opened e = true → (self.encode serde e).1.opened = self.opened) := by
  have hopen := fun self => openStream_spec hserde self
  cases e with
  | start id model usage =>
    unfold ChatStreamEncoder.encode
    obtain ⟨hstate, _, _, hframes⟩ := hopen { self with
      id := if id = "" then self.id else id
      model := if model = "" then self.model else model
      usage := (usage.map self.usage.merge_max).getD self.usage }
    rw [hstate]
    exact ⟨hdone, hframes, fun h => Eq.symm h⟩
  | done =>
    unfold ChatStreamEncoder.encode wrap_up
    simp [hdone, absorbed]
  | toolCallStart index id name signature =>
    unfold ChatStreamEncoder.encode
    simp [hdone, absorbed, write_tool_call, hopen, tool_slot_spec]
  | toolCallArgsDelta index fragment =>
    unfold ChatStreamEncoder.encode
    simp [hdone, absorbed, write_tool_call, hopen, tool_slot_spec]
  | _ =>
    unfold ChatStreamEncoder.encode
    simp [hdone, absorbed, write_delta, merge_usage, hopen]

theorem late_run (uuid : String) (now : Int) (hdone : self.done = true) (es : List StreamEvent) :
    ((stream_encoder serde uuid now).emit self es = [] ↔ ∀ e ∈ es, absorbed self.opened e = true) ∧
      ((stream_encoder serde uuid now).advance self es).done = true := by
  refine ⟨?_, ?_⟩
  · apply Transducer.emit_eq_nil_iff (P := fun s => s.done = true ∧ s.opened = self.opened)
    · rintro s e ⟨hdone, hopened⟩
      obtain ⟨hdone', hquiet, hopened'⟩ := late_step hserde hdone e
      rw [hopened] at hquiet hopened'
      exact ⟨hquiet, fun habsorbed => ⟨hdone', hopened' habsorbed⟩⟩
    · exact ⟨hdone, rfl⟩
  · exact Transducer.advance_invariant (P := fun s : ChatStreamEncoder => s.done = true)
      (fun s e hdone => (late_step hserde hdone e).1) hdone es

/-- The frames of a run whose end writes a sentinel end once exactly when there
    is one finish reason at most and nothing arrives late. -/
theorem Running.endsOnce_iff (h : Running serde es frames self) {chunks rest : List SseFrame}
    (hchunks : ∀ f ∈ chunks, is_done f = false)
    (hreasons : chunks.countP (has_finish_reason serde) ≤ if self.finished then 0 else 1) :
    EndsOnce serde (frames ++ (chunks ++ done_frame :: rest)) ↔ es.countP StreamEvent.is_stop ≤ 1 ∧ rest = [] := by
  have hall : ∀ f ∈ frames ++ chunks, is_done f = false := by
    intro f hf
    rcases List.mem_append.mp hf with hf | hf
    · exact h.no_done f hf
    · exact hchunks f hf
  unfold EndsOnce
  rw [← List.append_assoc, endsWith_append_cons hall is_done_done_frame, and_comm]
  apply and_congr_left
  rintro rfl
  have hsum : (frames ++ chunks ++ [done_frame]).countP (has_finish_reason serde) =
      es.countP StreamEvent.is_stop + chunks.countP (has_finish_reason serde) := by
    rw [List.countP_append, List.countP_append, h.reasons, List.countP_singleton, done_frame_plain hserde]
    simp
  rw [hsum]
  cases hfinished : self.finished with
  | true =>
    have hnone : chunks.countP (has_finish_reason serde) = 0 := by simpa [hfinished] using hreasons
    rw [hnone, Nat.add_zero]
  | false =>
    have hone : chunks.countP (has_finish_reason serde) ≤ 1 := by simpa [hfinished] using hreasons
    have hzero : es.countP StreamEvent.is_stop = 0 := by
      rw [h.finished] at hfinished
      simpa [List.countP_eq_zero] using hfinished
    omega

/-- The frames of every run end once exactly when its events end cleanly. -/
theorem outputs_endsOnce (uuid : String) (now : Int) (es : List StreamEvent) :
    EndsOnce serde ((stream_encoder serde uuid now).outputs es) ↔ EndsCleanly es := by
  have hrun := Running.run hserde uuid now (live es) fun e => is_terminal_of_mem_live
  have hinit : (stream_encoder serde uuid now).init = .new uuid now := rfl
  obtain ⟨hall, _, hlate⟩ | ⟨e, hsplit, he, _⟩ := live_cases es
  · rw [hall] at hrun
    obtain ⟨chunks, hframes, hchunks, hreasons⟩ := wrap_up_spec hserde hrun
    have hfinish : (stream_encoder serde uuid now).finish = ChatStreamEncoder.wrap_up serde := rfl
    rw [Transducer.outputs, hinit, hfinish, hframes, hrun.endsOnce_iff hserde hchunks hreasons, EndsCleanly,
      hall, hlate]
    simp
  · obtain ⟨chunks, hframes, hchunks, hreasons⟩ := terminal_spec hserde hrun he
    obtain ⟨hdone, hopened⟩ := terminal_state serde
      ((stream_encoder serde uuid now).advance (.new uuid now) (live es)) he
    obtain ⟨hquiet, hend⟩ := late_run hserde uuid now hdone (late es)
    have hstep (self : ChatStreamEncoder) : (stream_encoder serde uuid now).step self e = self.encode serde e := rfl
    have hclosed (self : ChatStreamEncoder) (hdone : self.done = true) :
        ((stream_encoder serde uuid now).finish self).2 = [] := by
      have hfinish : (stream_encoder serde uuid now).finish = ChatStreamEncoder.wrap_up serde := rfl
      rw [hfinish, wrap_up, if_pos hdone]
    conv_lhs => rw [hsplit, Transducer.outputs_append]
    rw [hinit, Transducer.emit_cons, Transducer.advance_cons, hstep, hframes, hclosed _ hend, List.append_nil,
      List.append_assoc, List.singleton_append, hrun.endsOnce_iff hserde hchunks hreasons, hquiet, hopened,
      hrun.opened, EndsCleanly]

end Opening

theorem answer_endsOnce : EndsOnce Serde.compact
    ((stream_encoder Serde.compact "" 0).outputs [.textDelta 0 "hi", .usage {}, .stop .maxTokens none, .done, .ping]) :=
  (outputs_endsOnce Serde.compact_lawful "" 0 _).mpr ⟨by decide, by decide⟩

/-- An error that arrives after the end is written after the sentinel. -/
theorem late_error_not_endsOnce : ¬ EndsOnce Serde.compact
    ((stream_encoder Serde.compact "" 0).outputs [.textDelta 0 "hi", .done, .error "reset" "upstream_error"]) := by
  let opened : ChatStreamEncoder := { ChatStreamEncoder.new "" 0 with opened := true }
  let chunks := [opened.chunk Serde.compact [("role", .string "assistant"), ("content", .string "")] none,
    opened.chunk Serde.compact [("content", .string "hi")] none, opened.chunk Serde.compact [] (some "stop")]
  have hframes : (stream_encoder Serde.compact "" 0).outputs
      [.textDelta 0 "hi", .done, .error "reset" "upstream_error"] =
      chunks ++ done_frame :: [error_frame Serde.compact "reset" "upstream_error"] := rfl
  have hchunks : ∀ f ∈ chunks, is_done f = false := by
    have hchunk := fun delta hdelta finish => (opened.chunk_frame Serde.compact_lawful delta hdelta finish).1
    simp [chunks, hchunk]
  rintro ⟨hends, _⟩
  rw [hframes, endsWith_append_cons hchunks is_done_done_frame] at hends
  cases hends

end refract.codec.chat
