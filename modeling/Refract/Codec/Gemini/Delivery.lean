import Refract.Codec.Gemini.Encoder
import Refract.Codec.Gemini.Ledger
import Refract.Codec.Protocols
import Refract.Json.RoundTrip

open refract.core refract.json refract.ir refract.machine refract.stream

namespace refract.codec.gemini

/-- The first candidate of a chunk. -/
def frame_candidate (serde : Serde) (frame : SseFrame) : Option Value :=
  (((serde.from_str frame.data).bind (·.get "candidates")).bind Value.as_array).bind List.head?

/-- The parts of a chunk. -/
def frame_parts (serde : Serde) (frame : SseFrame) : List Value :=
  ((((frame_candidate serde frame).bind (·.get "content")).bind (·.get "parts")).bind Value.as_array).getD []

def carries_content (serde : Serde) (frame : SseFrame) : Bool := !(frame_parts serde frame).isEmpty

def has_finish_reason (serde : Serde) (frame : SseFrame) : Bool :=
  ((frame_candidate serde frame).bind (·.get "finishReason")).isSome

/-- The parts of a stream that call a function. -/
def function_calls (serde : Serde) (frames : List SseFrame) : List Value :=
  (frames.flatMap (frame_parts serde)).filter fun part => (part.get "functionCall").isSome

section Lists

variable (serde : Serde)

@[simp] theorem function_calls_nil : function_calls serde [] = [] := rfl

@[simp] theorem function_calls_append (frames more : List SseFrame) :
    function_calls serde (frames ++ more) = function_calls serde frames ++ function_calls serde more := by
  simp [function_calls]

/-- Frames without content call no function. -/
theorem function_calls_of_empty {frames : List SseFrame} (h : ∀ f ∈ frames, carries_content serde f = false) :
    function_calls serde frames = [] := by
  have hparts : frames.flatMap (frame_parts serde) = [] := by
    rw [List.flatMap_eq_nil_iff]
    intro f hf
    simpa [carries_content] using h f hf
  simp [function_calls, hparts]

end Lists

namespace GeminiStreamEncoder

variable {serde : Serde} (hserde : serde.Lawful)

include hserde

/-- The first candidate of a written chunk. -/
theorem frame_candidate_eq {candidates : List Value} {more : Map}
    (hdocument : (Value.object (("candidates", .array candidates) :: more)).WellFormed) :
    frame_candidate serde (.ofData (serde.to_string (.object (("candidates", .array candidates) :: more)))) =
      candidates.head? := by
  simp [frame_candidate, hserde.from_str_to_string _ hdocument]

/-- A part frame carries its part and no finish reason. -/
theorem part_frame_spec {part : Map} (hpart : (Value.object part).WellFormed) :
    frame_parts serde (part_frame serde part) = [.object part] ∧
      has_finish_reason serde (part_frame serde part) = false := by
  have hcandidate : frame_candidate serde (part_frame serde part) =
      some (candidate [.object part] [("index", .nat 0)]) := by
    unfold part_frame
    rw [frame_candidate_eq hserde]
    · rfl
    · simpa [candidate] using hpart
  unfold frame_parts has_finish_reason
  rw [hcandidate]
  exact ⟨rfl, rfl⟩

theorem finish_frame_spec (reason : StopReason) (usage : Option Usage) :
    carries_content serde (finish_frame serde reason usage) = false ∧
      has_finish_reason serde (finish_frame serde reason usage) = true := by
  have hcandidate : frame_candidate serde (finish_frame serde reason usage) =
      some (candidate [] [("finishReason", .string (stop_reason_to_gemini reason)), ("index", .nat 0)]) := by
    unfold finish_frame
    rw [frame_candidate_eq hserde]
    · rfl
    · cases usage <;> simp [candidate, usage_metadata, encode_usage_wellFormed]
  unfold carries_content frame_parts has_finish_reason
  rw [hcandidate]
  exact ⟨rfl, rfl⟩

theorem usage_frame_spec (usage : Usage) :
    carries_content serde (usage_frame serde usage) = false ∧
      has_finish_reason serde (usage_frame serde usage) = false := by
  have hcandidate : frame_candidate serde (usage_frame serde usage) = some (candidate [] [("index", .nat 0)]) := by
    unfold usage_frame
    rw [frame_candidate_eq hserde]
    · rfl
    · simp [candidate, encode_usage_wellFormed]
  unfold carries_content frame_parts has_finish_reason
  rw [hcandidate]
  exact ⟨rfl, rfl⟩

theorem error_frame_spec (message kind : String) :
    carries_content serde (error_frame serde message kind) = false ∧
      has_finish_reason serde (error_frame serde message kind) = false := by
  have hdocument : (Value.object [("error", .object
      [("code", .nat 500), ("message", .string message), ("status", .string kind)])]).WellFormed := by simp
  have hcandidate : frame_candidate serde (error_frame serde message kind) = none := by
    unfold frame_candidate error_frame
    rw [SseFrame.ofData_data, hserde.from_str_to_string _ hdocument]
    rfl
  unfold carries_content frame_parts has_finish_reason
  rw [hcandidate]
  exact ⟨rfl, rfl⟩

/-- The arguments of a call are a document, whatever arrived of them. -/
theorem parse_args_wellFormed (args : String) : (parse_args serde args).WellFormed := by
  unfold parse_args
  split
  · simp
  · cases hread : serde.from_str args with
    | none => simp
    | some v => exact hserde.from_str_wellFormed args v hread

theorem call_part_wellFormed (buf : ToolCallBuf) : (Value.object (call_part serde buf)).WellFormed := by
  have hargs := parse_args_wellFormed hserde buf.args
  unfold call_part
  cases buf.signature <;> split <;> simp [hargs]

end GeminiStreamEncoder

end refract.codec.gemini

namespace refract.codec.gemini

open GeminiStreamEncoder

/-- The event is written as a part of its own. -/
def writes : StreamEvent → Bool
  | .textDelta _ _ | .thinkingDelta _ _ | .thinkingSignature _ _ | .refusalDelta _ _ => true
  | _ => false

/-- Whether arguments or a call are waiting in a block after an event. -/
def waits (index : Nat) (waiting : Bool) : StreamEvent → Bool
  | .toolCallStart i _ _ _ | .toolCallArgsDelta i _ => i = index || waiting
  | .contentStop i => i ≠ index && waiting
  | _ => waiting

/-- Arguments or a call are waiting in a block. -/
def is_waiting (index : Nat) (es : List StreamEvent) : Bool := es.foldl (waits index) false

def Delivery.part (serde : Serde) (d : Delivery) : Value := .object (call_part serde d.buf)

section Conditions

variable (serde : Serde) (es : List StreamEvent)

/-- Every call is stopped before another one starts in its block, and what
    arrives later is not missed. -/
def CallsComplete : Prop :=
  ∀ pre index id name signature post, es = pre ++ .toolCallStart index id name signature :: post →
    is_stopped (block_bound es % 4294967296) index post = true ∧
      parse_args serde (early_arguments index post) = parse_args serde (arguments index post)

/-- After a stop nothing is written: no content of its own, no block stopped
    with a call waiting in it, and none waiting at the end of the stream. -/
def NothingLate : Prop :=
  es.any StreamEvent.is_stop = true →
    (∀ e ∈ after StreamEvent.is_stop es, writes e = false) ∧
    (∀ pre index post, es = pre ++ .contentStop index :: post → pre.any StreamEvent.is_stop = true →
      is_waiting index pre = false) ∧
    ∀ index < block_bound es % 4294967296, is_waiting index es = false

end Conditions

section Properties

variable (serde : Serde)

/-- The function calls in the frames are the deliveries of the ledger, and every
    call that was started is delivered once, with all of its arguments. -/
def DeliversCalls (es : List StreamEvent) (frames : List SseFrame) : Prop :=
  function_calls serde frames = (ledger.outputs es).map (Delivery.part serde) ∧
    ∀ pre index id name signature post, es = pre ++ .toolCallStart index id name signature :: post →
      ∃ d, Ledger.deliveries_of (pre.countP is_tool_start) (ledger.outputs es) = [d] ∧
        d.part serde = .object (call_part serde { id, name, signature, args := arguments index post })

/-- No content follows the frame with the finish reason. -/
def FinishesLast (frames : List SseFrame) : Prop :=
  ∀ f ∈ after (has_finish_reason serde) frames, carries_content serde f = false

end Properties

namespace GeminiStreamEncoder

variable {serde : Serde} {self : GeminiStreamEncoder} {l : Ledger}

/-- The encoder's slots are those of the ledger. -/
structure Tracks (l : Ledger) (encoder : GeminiStreamEncoder) : Prop where
  slots : ∀ i, slot encoder.tool_calls i = (l.held i).map Delivery.buf
  size : encoder.tool_calls.length = l.size

theorem Tracks.put (h : Tracks l self) (index : Nat) (delivery : Option Delivery) :
    Tracks (l.hold index delivery)
      { self with tool_calls := machine.put self.tool_calls index (delivery.map Delivery.buf) } where
  slots i := by
    rw [slot_put]
    by_cases hi : i = index
    · simp [hi, Ledger.hold]
    · simp [hi, Ledger.hold, h.slots i]
  size := by
    rw [length_put, h.size]
    rfl

/-- The end of a stream writes the calls left in the slots, in their order. -/
theorem flushes_range (self : GeminiStreamEncoder) {indices : List Nat} (hindices : indices.Nodup) :
    (flushes serde).emit self indices =
      (indices.filterMap (slot self.tool_calls)).map fun buf => part_frame serde (call_part serde buf) := by
  induction indices generalizing self with
  | nil => rfl
  | cons i indices ih =>
    obtain ⟨hi, hnodup⟩ := List.nodup_cons.mp hindices
    have hstep : (flushes serde).step self i = self.flush_tool_call serde i := rfl
    have hrest : indices.filterMap (slot (machine.put self.tool_calls i none)) =
        indices.filterMap (slot self.tool_calls) := by
      apply List.filterMap_congr
      intro j hj
      have hne : j ≠ i := fun heq => hi (heq ▸ hj)
      exact slot_put_of_ne _ _ _ _ hne
    rw [Transducer.emit_cons, hstep, ih _ hnodup]
    unfold flush_tool_call
    dsimp only
    rw [hrest]
    cases hslot : slot self.tool_calls i <;> simp [hslot]

theorem flushes_advance (self : GeminiStreamEncoder) (indices : List Nat) :
    ((flushes serde).advance self indices).finished = self.finished := by
  have hstep : ∀ (s : GeminiStreamEncoder) (i : Nat), s.finished = self.finished →
      ((flushes serde).step s i).1.finished = self.finished := fun s i hs => hs
  exact Transducer.advance_invariant (P := fun s : GeminiStreamEncoder => s.finished = self.finished) hstep rfl indices

section Steps

variable (hserde : serde.Lawful)

include hserde

theorem function_calls_part {part : Map} (hpart : (Value.object part).WellFormed) :
    function_calls serde [part_frame serde part] =
      if (part.lookup "functionCall").isSome then [.object part] else [] := by
  obtain ⟨hparts, _⟩ := part_frame_spec hserde hpart
  by_cases hcall : (part.lookup "functionCall").isSome = true
  · simp [function_calls, hparts, hcall]
  · simp [function_calls, hparts, hcall]

theorem function_calls_bufs (bufs : List ToolCallBuf) :
    function_calls serde (bufs.map fun buf => part_frame serde (call_part serde buf)) =
      bufs.map fun buf => .object (call_part serde buf) := by
  induction bufs with
  | nil => rfl
  | cons buf bufs ih =>
    have hone := function_calls_part hserde (call_part_wellFormed hserde buf)
    have hcall : ((call_part serde buf).lookup "functionCall").isSome = true := rfl
    rw [hcall, if_pos rfl] at hone
    rw [List.map_cons, List.map_cons, ← List.singleton_append, function_calls_append, hone, ih, List.singleton_append]

/-- The encoder takes each event as the ledger does. -/
theorem Tracks.encode (h : Tracks l self) (e : StreamEvent) :
    Tracks (l.step e).1 (self.encode serde e).1 ∧
      function_calls serde (self.encode serde e).2 = (l.step e).2.map (Delivery.part serde) := by
  have hkeep {after : GeminiStreamEncoder} (hcalls : after.tool_calls = self.tool_calls) : Tracks l after :=
    ⟨by rw [hcalls]; exact h.slots, by rw [hcalls]; exact h.size⟩
  have hplain {part : Map} (hpart : (Value.object part).WellFormed) (hcall : part.lookup "functionCall" = none) :
      function_calls serde [part_frame serde part] = [] := by
    rw [function_calls_part hserde hpart, hcall]
    rfl
  have hsilent {frame : SseFrame} (hframe : carries_content serde frame = false) : function_calls serde [frame] = [] :=
    function_calls_of_empty serde (by simpa using hframe)
  cases e with
  | textDelta index text => exact ⟨h, hplain (by simp) rfl⟩
  | thinkingDelta index text => exact ⟨h, hplain (by simp) rfl⟩
  | thinkingSignature index signature => exact ⟨h, hplain (by simp) rfl⟩
  | refusalDelta index text => exact ⟨h, hplain (by simp) rfl⟩
  | toolCallStart index id name signature =>
    obtain ⟨hslots, hsize⟩ := h.put index (some ⟨some l.started, { id, name, signature }⟩)
    exact ⟨⟨hslots, hsize⟩, rfl⟩
  | toolCallArgsDelta index fragment =>
    have hput := h.put index (some (Ledger.continued (l.held index) fragment))
    refine ⟨?_, rfl⟩
    unfold GeminiStreamEncoder.encode append_args Ledger.step
    dsimp only
    rw [h.slots]
    cases hheld : l.held index with
    | none => simpa [hheld, Ledger.continued] using hput
    | some d => simpa [hheld, Ledger.continued] using hput
  | contentStop index =>
    refine ⟨h.put index none, ?_⟩
    have hframes : (self.encode serde (.contentStop index)).2 =
        ((l.held index).map Delivery.buf).toList.map fun buf => part_frame serde (call_part serde buf) := by
      have hflush : self.encode serde (.contentStop index) = self.flush_tool_call serde index := rfl
      rw [← h.slots, hflush, flush_tool_call]
      cases slot self.tool_calls index <;> rfl
    have hledger : (l.step (.contentStop index)).2 = (l.held index).toList := rfl
    rw [hframes, function_calls_bufs hserde, hledger]
    cases l.held index <;> rfl
  | usage usage => exact ⟨hkeep rfl, rfl⟩
  | stop reason stop_sequence => exact ⟨hkeep rfl, hsilent (finish_frame_spec hserde _ _).1⟩
  | error message kind => exact ⟨h, hsilent (error_frame_spec hserde message kind).1⟩
  | start id model usage => cases usage <;> exact ⟨hkeep rfl, rfl⟩
  | done => exact ⟨h, rfl⟩
  | contentStart index kind => exact ⟨h, rfl⟩
  | ping => exact ⟨h, rfl⟩

theorem Tracks.run (es : List StreamEvent) :
    Tracks (ledger.advance {} es) ((stream_encoder serde).advance {} es) ∧
      function_calls serde ((stream_encoder serde).emit {} es) = (ledger.emit {} es).map (Delivery.part serde) := by
  suffices hrun : ∀ (l : Ledger) (self : GeminiStreamEncoder), Tracks l self →
      Tracks (ledger.advance l es) ((stream_encoder serde).advance self es) ∧
        function_calls serde ((stream_encoder serde).emit self es) = (ledger.emit l es).map (Delivery.part serde) by
    exact hrun {} {} ⟨fun i => rfl, rfl⟩
  induction es with
  | nil => exact fun l self h => ⟨h, rfl⟩
  | cons e es ih =>
    intro l self h
    obtain ⟨hstep, hcalls⟩ := h.encode hserde e
    obtain ⟨htracks, hrest⟩ := ih _ _ hstep
    rw [Transducer.emit_cons, Transducer.emit_cons, Transducer.advance_cons, Transducer.advance_cons,
      stream_encoder_step, Ledger.ledger_step, function_calls_append, hcalls, hrest, List.map_append]
    exact ⟨htracks, rfl⟩

/-- The frames that close a stream: the calls left, then one that carries no
    content, with the finish reason unless it is written already. -/
theorem Tracks.finish (h : Tracks l self) :
    ∃ last : Option SseFrame, (self.finish serde).2 =
        (((List.range l.reach).filterMap l.held).map fun d => part_frame serde (call_part serde d.buf)) ++ last.toList ∧
      (∀ f ∈ last, carries_content serde f = false) ∧
      (self.finished = false → ∃ f, last = some f ∧ has_finish_reason serde f = true) := by
  have hcalls : (flushes serde).emit self (List.range (self.tool_calls.length % 4294967296)) =
      ((List.range l.reach).filterMap l.held).map fun d => part_frame serde (call_part serde d.buf) := by
    have hslots : slot self.tool_calls = fun i => (l.held i).map Delivery.buf := funext h.slots
    rw [flushes_range self List.nodup_range, h.size, ← Ledger.reach, hslots, List.map_filterMap, List.map_filterMap]
    apply List.filterMap_congr
    intro i _
    rw [Option.map_map]
    rfl
  unfold GeminiStreamEncoder.finish
  dsimp only
  rw [hcalls, flushes_advance]
  cases hfinished : self.finished with
  | false =>
    obtain ⟨hcontent, hreason⟩ := finish_frame_spec hserde .stop
      ((flushes serde).advance self (List.range (self.tool_calls.length % 4294967296))).pending_usage
    exact ⟨some _, rfl, by rintro f ⟨⟩; exact hcontent, fun _ => ⟨_, rfl, hreason⟩⟩
  | true =>
    refine ⟨_, rfl, ?_, by simp⟩
    intro f hf
    obtain ⟨usage, _, rfl⟩ := Option.map_eq_some_iff.mp hf
    exact (usage_frame_spec hserde usage).1

/-- The function calls in the frames of a run are the deliveries of its ledger. -/
theorem function_calls_outputs (es : List StreamEvent) :
    function_calls serde ((stream_encoder serde).outputs es) = (ledger.outputs es).map (Delivery.part serde) := by
  obtain ⟨htracks, hcalls⟩ := Tracks.run hserde es
  obtain ⟨last, hfinish, hlast, _⟩ := htracks.finish hserde
  have hrest := function_calls_bufs hserde (((List.range (ledger.advance {} es).reach).filterMap
    (ledger.advance {} es).held).map Delivery.buf)
  have hnone : function_calls serde last.toList = [] :=
    function_calls_of_empty serde fun f hf => hlast f (Option.mem_toList.mp hf)
  rw [Transducer.outputs, Transducer.outputs, stream_encoder_init, stream_encoder_finish, function_calls_append, hcalls,
    hfinish, function_calls_append, hnone, List.append_nil, List.map_append]
  rw [List.map_map, List.map_map] at hrest
  exact congrArg _ hrest

omit hserde in
variable (serde) in
/-- A call in the frames is told apart by the document of its arguments. -/
theorem call_part_args (buf : ToolCallBuf) (args : String) :
    Value.object (call_part serde buf) = .object (call_part serde { buf with args }) ↔
      parse_args serde buf.args = parse_args serde args := by
  unfold call_part
  simp

/-- Every call is delivered, whole, exactly when every call is complete. -/
theorem deliversCalls_iff (es : List StreamEvent) :
    DeliversCalls serde es ((stream_encoder serde).outputs es) ↔ CallsComplete serde es := by
  unfold DeliversCalls CallsComplete
  rw [and_iff_right (function_calls_outputs hserde es)]
  refine forall_congr' fun pre => forall_congr' fun index => forall_congr' fun id => forall_congr' fun name =>
    forall_congr' fun signature => forall_congr' fun post => forall_congr' fun hsplit => ?_
  have hdeliveries := deliveries_of_start pre post index id name signature
  dsimp only at hdeliveries
  rw [← hsplit] at hdeliveries
  have hpart := call_part_args serde { id, name, signature, args := early_arguments index post }
    (arguments index post)
  rw [hdeliveries]
  cases is_stopped (block_bound es % 4294967296) index post with
  | false => simp
  | true =>
    rw [if_pos rfl, and_iff_right rfl, ← hpart]
    constructor
    · rintro ⟨d, hd, hcall⟩
      rw [← List.singleton_inj.mp hd] at hcall
      exact hcall
    · exact fun hcall => ⟨_, rfl, hcall⟩

omit hserde in
/-- A block waits exactly when the ledger holds something for it. -/
theorem isSome_held (es : List StreamEvent) (index : Nat) :
    ((ledger.advance {} es).held index).isSome = is_waiting index es := by
  let P (es : List StreamEvent) (_ : List Delivery) (l : Ledger) : Prop := (l.held index).isSome = is_waiting index es
  apply Transducer.history (T := ledger) (P := P)
  · intro es ds l e hP
    have hwaits : ((l.step e).1.held index).isSome = waits index (l.held index).isSome e := by
      cases e with
      | toolCallStart i id name signature =>
        by_cases hi : i = index <;> simp [Ledger.step, Ledger.held_hold, waits, hi]
      | toolCallArgsDelta i fragment =>
        by_cases hi : i = index <;> simp [Ledger.step, Ledger.held_hold, waits, hi]
      | contentStop i =>
        by_cases hi : i = index <;> simp [Ledger.step, Ledger.held_hold, waits, hi]
      | _ => rfl
    rw [Ledger.ledger_step]
    show ((l.step e).1.held index).isSome = is_waiting index (es ++ [e])
    rw [hwaits, hP, is_waiting, is_waiting, List.foldl_append]
    rfl
  · rfl

/-- What an event is written as: content when it has its own, or stops a block
    in which something waits, and a finish reason when it is a stop. -/
theorem Tracks.encode_frames (h : Tracks l self) (e : StreamEvent) :
    ((∀ f ∈ (self.encode serde e).2, carries_content serde f = false) ↔
      writes e = false ∧ ∀ i, e = .contentStop i → l.held i = none) ∧
    (e.is_stop = false → ∀ f ∈ (self.encode serde e).2, has_finish_reason serde f = false) := by
  have hpart {part : Map} (hpart : (Value.object part).WellFormed) :
      carries_content serde (part_frame serde part) = true ∧ has_finish_reason serde (part_frame serde part) = false := by
    obtain ⟨hparts, hreason⟩ := part_frame_spec hserde hpart
    exact ⟨by simp [carries_content, hparts], hreason⟩
  have hwritten {part : Map} (hwf : (Value.object part).WellFormed) (hwrites : writes e = true)
      (hframes : (self.encode serde e).2 = [part_frame serde part]) :
      ((∀ f ∈ (self.encode serde e).2, carries_content serde f = false) ↔
        writes e = false ∧ ∀ i, e = .contentStop i → l.held i = none) ∧
      (e.is_stop = false → ∀ f ∈ (self.encode serde e).2, has_finish_reason serde f = false) := by
    rw [hframes]
    simp [hpart hwf, hwrites]
  have hsilent (hwrites : writes e = false) (hstop : ∀ i, e ≠ .contentStop i) (hframes : (self.encode serde e).2 = []) :
      ((∀ f ∈ (self.encode serde e).2, carries_content serde f = false) ↔
        writes e = false ∧ ∀ i, e = .contentStop i → l.held i = none) ∧
      (e.is_stop = false → ∀ f ∈ (self.encode serde e).2, has_finish_reason serde f = false) := by
    rw [hframes]
    simp [hwrites, hstop]
  cases e with
  | textDelta index text => exact hwritten (by simp) rfl rfl
  | thinkingDelta index text => exact hwritten (by simp) rfl rfl
  | thinkingSignature index signature => exact hwritten (by simp) rfl rfl
  | refusalDelta index text => exact hwritten (by simp) rfl rfl
  | contentStop index =>
    have hframes : (self.encode serde (.contentStop index)).2 =
        ((l.held index).map Delivery.buf).toList.map fun buf => part_frame serde (call_part serde buf) := by
      have hflush : self.encode serde (.contentStop index) = self.flush_tool_call serde index := rfl
      rw [← h.slots, hflush, flush_tool_call]
      cases slot self.tool_calls index <;> rfl
    rw [hframes]
    cases hheld : l.held index with
    | none => simp [writes, hheld]
    | some d => simp [writes, hheld, hpart (call_part_wellFormed hserde d.buf)]
  | stop reason stop_sequence =>
    have hframe := (finish_frame_spec hserde reason self.pending_usage).1
    have hframes : (self.encode serde (.stop reason stop_sequence)).2 =
        [finish_frame serde reason self.pending_usage] := rfl
    rw [hframes]
    simp [hframe, writes, StreamEvent.is_stop]
  | error message kind =>
    obtain ⟨hcontent, hreason⟩ := error_frame_spec hserde message kind
    have hframes : (self.encode serde (.error message kind)).2 = [error_frame serde message kind] := rfl
    rw [hframes]
    simp [hcontent, hreason, writes]
  | _ => exact hsilent rfl (by simp) rfl

/-- The frames of a run without stops have no finish reason. -/
theorem emit_frames {es : List StreamEvent} (hes : ∀ e ∈ es, e.is_stop = false) :
    ∀ f ∈ (stream_encoder serde).emit {} es, has_finish_reason serde f = false := by
  intro f hf
  obtain ⟨pre, e, post, rfl, hframe⟩ := (Transducer.mem_emit _ _ _).mp hf
  rw [stream_encoder_step] at hframe
  exact ((Tracks.run hserde pre).1.encode_frames hserde e).2 (hes e (by simp)) f hframe

/-- The calls left at the end are written with content, and no finish reason. -/
theorem rest_frames (ds : List Delivery) :
    ∀ f ∈ ds.map fun d => part_frame serde (call_part serde d.buf),
      carries_content serde f = true ∧ has_finish_reason serde f = false := by
  intro f hf
  obtain ⟨d, _, rfl⟩ := List.mem_map.mp hf
  obtain ⟨hparts, hreason⟩ := part_frame_spec hserde (call_part_wellFormed hserde d.buf)
  exact ⟨by simp [carries_content, hparts], hreason⟩

/-- The end of a stream writes content exactly when some block still waits. -/
theorem finish_content (es : List StreamEvent) :
    (∀ f ∈ (((stream_encoder serde).advance {} es).finish serde).2, carries_content serde f = false) ↔
      ∀ index < block_bound es % 4294967296, is_waiting index es = false := by
  obtain ⟨htracks, _⟩ := Tracks.run hserde es
  obtain ⟨last, hfinish, hlast, _⟩ := htracks.finish hserde
  have hreach : (ledger.advance {} es).reach = block_bound es % 4294967296 := by
    rw [Ledger.reach, (Ledger.advance_init es).2.2.1]
  have hrest := rest_frames hserde ((List.range (ledger.advance {} es).reach).filterMap (ledger.advance {} es).held)
  have hnone (index : Nat) : is_waiting index es = false ↔ (ledger.advance {} es).held index = none := by
    rw [← isSome_held, Option.isSome_eq_false_iff, Option.isNone_iff_eq_none]
  rw [hfinish, ← hreach]
  simp only [hnone]
  constructor
  · intro hquiet index hindex
    by_contra hheld
    obtain ⟨d, hd⟩ := Option.ne_none_iff_exists'.mp hheld
    have hmem : d ∈ (List.range (ledger.advance {} es).reach).filterMap (ledger.advance {} es).held :=
      List.mem_filterMap.mpr ⟨index, List.mem_range.mpr hindex, hd⟩
    have hframe := List.mem_map_of_mem (f := fun d : Delivery => part_frame serde (call_part serde d.buf)) hmem
    have hcontent := (hrest _ hframe).1
    rw [hquiet _ (List.mem_append_left _ hframe)] at hcontent
    cases hcontent
  · intro hempty f hf
    rcases List.mem_append.mp hf with hf | hf
    · obtain ⟨d, hd, _⟩ := List.mem_map.mp hf
      obtain ⟨index, hindex, hheld⟩ := List.mem_filterMap.mp hd
      rw [hempty index (List.mem_range.mp hindex)] at hheld
      cases hheld
    · exact hlast f (Option.mem_toList.mp hf)

omit hserde in
theorem advance_finished {es : List StreamEvent} (hes : ∀ e ∈ es, e.is_stop = false) :
    ((stream_encoder serde).advance {} es).finished = false := by
  have hstep (self : GeminiStreamEncoder) (e : StreamEvent) (hself : self.finished = false) (he : e.is_stop = false) :
      (self.encode serde e).1.finished = false := by
    cases e with
    | start id model usage => cases usage <;> exact hself
    | stop reason stop_sequence => cases he
    | _ => exact hself
  have hrun := Transducer.emit_forall (T := stream_encoder serde) (P := fun s => s.finished = false)
    (Q := fun e => e.is_stop = false) (R := fun _ => True) (fun s e hs he => by
      rw [stream_encoder_step]
      exact ⟨hstep s e hs he, by simp⟩) (s := {}) rfl es hes
  exact hrun.1

/-- What is written after the first stop is free of content exactly when no
    event writes any and no block is stopped with a call waiting. -/
theorem emit_content {pre : List StreamEvent} (post : List StreamEvent) {stop : StreamEvent} (hpre : ∀ e ∈ pre, e.is_stop = false)
    (hstop : stop.is_stop = true) :
    (∀ f ∈ (stream_encoder serde).emit ((stream_encoder serde).advance {} (pre ++ [stop])) post,
        carries_content serde f = false) ↔
      (∀ e ∈ post, writes e = false) ∧
        ∀ front index rest, pre ++ stop :: post = front ++ .contentStop index :: rest →
          front.any StreamEvent.is_stop = true → is_waiting index front = false := by
  have hsplit (mid : List StreamEvent) : (stream_encoder serde).advance
      ((stream_encoder serde).advance {} (pre ++ [stop])) mid =
      (stream_encoder serde).advance {} (pre ++ stop :: mid) := by
    rw [← Transducer.advance_append, List.append_assoc, List.singleton_append]
  have hnone (index : Nat) (es : List StreamEvent) :
      is_waiting index es = false ↔ (ledger.advance {} es).held index = none := by
    rw [← isSome_held, Option.isSome_eq_false_iff, Option.isNone_iff_eq_none]
  constructor
  · intro hquiet
    have hstep (mid : List StreamEvent) (e : StreamEvent) (rest : List StreamEvent) (hpost : post = mid ++ e :: rest) :
        writes e = false ∧ ∀ i, e = .contentStop i → (ledger.advance {} (pre ++ stop :: mid)).held i = none := by
      apply ((Tracks.run hserde (pre ++ stop :: mid)).1.encode_frames hserde e).1.mp
      intro f hf
      apply hquiet f
      rw [Transducer.mem_emit]
      refine ⟨mid, e, rest, hpost, ?_⟩
      rw [hsplit, stream_encoder_step]
      exact hf
    refine ⟨?_, ?_⟩
    · intro e he
      obtain ⟨mid, rest, hpost⟩ := List.append_of_mem he
      exact (hstep mid e rest hpost).1
    · intro front index rest hfront hany
      obtain ⟨mid, rfl, hpost⟩ := split_after hpre hfront hany
      rw [hnone]
      exact (hstep mid _ rest hpost).2 index rfl
  · rintro ⟨hwrites, hwaits⟩ f hf
    obtain ⟨mid, e, rest, hpost, hframe⟩ := (Transducer.mem_emit _ _ _).mp hf
    rw [hsplit, stream_encoder_step] at hframe
    apply ((Tracks.run hserde (pre ++ stop :: mid)).1.encode_frames hserde e).1.mpr _ f hframe
    refine ⟨hwrites e (by rw [hpost]; simp), ?_⟩
    rintro i rfl
    rw [← hnone]
    apply hwaits _ i rest
    · rw [hpost, List.append_assoc, List.cons_append]
    · simp [hstop]

/-- No content follows the finish reason exactly when nothing is late. -/
theorem finishesLast_iff (es : List StreamEvent) :
    FinishesLast serde ((stream_encoder serde).outputs es) ↔ NothingLate es := by
  unfold FinishesLast NothingLate
  obtain ⟨hall, hnone, _⟩ | ⟨stop, hsplit, hstop, _⟩ := split_first (p := StreamEvent.is_stop) es
  · have hes : ∀ e ∈ es, e.is_stop = false := by
      rw [← hall]
      exact fun e => of_mem_before
    have hany : es.any StreamEvent.is_stop = false := by simpa using hes
    obtain ⟨htracks, _⟩ := Tracks.run hserde es
    obtain ⟨last, hfinish, _, hreason⟩ := htracks.finish hserde
    obtain ⟨f, rfl, hf⟩ := hreason (advance_finished hes)
    have hrest := rest_frames hserde ((List.range (ledger.advance {} es).reach).filterMap (ledger.advance {} es).held)
    have hafter : after (has_finish_reason serde) ((stream_encoder serde).outputs es) = [] := by
      rw [Transducer.outputs, stream_encoder_init, stream_encoder_finish, hfinish, Option.toList_some,
        ← List.append_assoc]
      apply after_append_cons _ hf
      intro g hg
      rcases List.mem_append.mp hg with hg | hg
      · exact emit_frames hserde hes g hg
      · exact (hrest g hg).2
    rw [hafter, hany]
    simp
  · have hpre : ∀ e ∈ before StreamEvent.is_stop es, e.is_stop = false := fun e => of_mem_before
    have hany : es.any StreamEvent.is_stop = true := by
      rw [hsplit]
      simp [hstop]
    have hframe (self : GeminiStreamEncoder) : ∃ f, (self.encode serde stop).2 = [f] ∧ has_finish_reason serde f = true := by
      cases stop with
      | stop reason stop_sequence => exact ⟨_, rfl, (finish_frame_spec hserde _ _).2⟩
      | _ => cases hstop
    obtain ⟨f, hframes, hf⟩ := hframe ((stream_encoder serde).advance {} (before StreamEvent.is_stop es))
    have hcontent := emit_content hserde (after StreamEvent.is_stop es) hpre hstop
    have hfinish := finish_content hserde es
    have hadvance : (stream_encoder serde).advance {} (before StreamEvent.is_stop es ++ [stop]) =
        (((stream_encoder serde).advance {} (before StreamEvent.is_stop es)).encode serde stop).1 := by
      rw [Transducer.advance_append, Transducer.advance_cons, stream_encoder_step]
      rfl
    have hend : (stream_encoder serde).advance {} es =
        (stream_encoder serde).advance
          (((stream_encoder serde).advance {} (before StreamEvent.is_stop es)).encode serde stop).1
          (after StreamEvent.is_stop es) := by
      conv_lhs => rw [hsplit]
      rw [Transducer.advance_append, Transducer.advance_cons, stream_encoder_step]
    have hafter : after (has_finish_reason serde) ((stream_encoder serde).outputs es) =
        (stream_encoder serde).emit ((stream_encoder serde).advance {} (before StreamEvent.is_stop es ++ [stop]))
            (after StreamEvent.is_stop es) ++
          (((stream_encoder serde).advance {} es).finish serde).2 := by
      conv_lhs => rw [hsplit]
      rw [Transducer.outputs_append, stream_encoder_init, Transducer.emit_cons, Transducer.advance_cons,
        stream_encoder_step, stream_encoder_finish, hframes, ← hend, hadvance, List.append_assoc, List.singleton_append]
      exact after_append_cons (emit_frames hserde hpre) hf
    rw [hafter, List.forall_mem_append, hcontent, hfinish, ← hsplit, hany, and_assoc]
    exact ⟨fun h _ => h, fun h => h rfl⟩

end Steps

end GeminiStreamEncoder

/-- Every tool call of a transcoded stream is delivered once, whole, and nothing
    follows the finish reason, exactly when the decoded events complete every
    call and leave nothing for later. -/
theorem transcoded_deliversCalls {serde : Serde} (hserde : serde.Lawful) (uuid : String) (protocol : Protocol)
    (frames : List SseFrame) :
    let es := decode_all serde uuid protocol frames
    let written := (stream_encoder serde).outputs es
    DeliversCalls serde es written ∧ FinishesLast serde written ↔ CallsComplete serde es ∧ NothingLate es :=
  and_congr (deliversCalls_iff hserde _) (finishesLast_iff hserde _)

/-- A Messages stream that thinks aloud and calls a function. -/
def messages_call : List Value :=
  [.object [("type", .string "content_block_delta"), ("index", .nat 0),
      ("delta", .object [("type", .string "text_delta"), ("text", .string "hm")])],
    .object [("type", .string "content_block_start"), ("index", .nat 1),
      ("content_block", .object [("type", .string "tool_use"), ("id", .string "t1"), ("name", .string "f")])],
    .object [("type", .string "content_block_delta"), ("index", .nat 1),
      ("delta", .object [("type", .string "input_json_delta"), ("partial_json", .string "{}")])],
    .object [("type", .string "content_block_stop"), ("index", .nat 1)],
    .object [("type", .string "message_delta"), ("delta", .object [("stop_reason", .string "tool_use")])]]

theorem decode_messages_call :
    decode_all Serde.compact "" .messages (messages_call.map fun v => ⟨none, Serde.compact.to_string v⟩) =
      [.contentStart 0 .text, .textDelta 0 "hm", .contentStart 1 .toolUse, .toolCallStart 1 "t1" "f" none,
        .toolCallArgsDelta 1 "{}", .contentStop 1, .stop .toolUse none, .done] := by
  rw [decode_all_messages_documents Serde.compact_lawful]
  · decide
  · simp [messages_call]

theorem messages_call_delivered :
    let es := decode_all Serde.compact "" .messages (messages_call.map fun v => ⟨none, Serde.compact.to_string v⟩)
    let written := (stream_encoder Serde.compact).outputs es
    DeliversCalls Serde.compact es written ∧ FinishesLast Serde.compact written := by
  refine (transcoded_deliversCalls Serde.compact_lawful "" .messages _).mpr ?_
  rw [decode_messages_call]
  refine ⟨?_, ?_⟩
  · intro pre index id name signature post hsplit
    have hunique : [.contentStart 0 .text, .textDelta 0 "hm", .contentStart 1 .toolUse] ++
        StreamEvent.toolCallStart 1 "t1" "f" none ::
          [.toolCallArgsDelta 1 "{}", .contentStop 1, .stop .toolUse none, .done] =
        pre ++ .toolCallStart index id name signature :: post := hsplit
    obtain ⟨rfl, hstart, rfl⟩ := (List.append_cons_inj_of_notMem (by simp) (by simp)).mp hunique
    cases hstart
    exact ⟨by decide, congrArg _ (by decide)⟩
  · refine fun _ => ⟨by decide, ?_, by decide⟩
    intro pre index post hsplit hany
    have hunique : [.contentStart 0 .text, .textDelta 0 "hm", .contentStart 1 .toolUse,
        .toolCallStart 1 "t1" "f" none, .toolCallArgsDelta 1 "{}"] ++
        StreamEvent.contentStop 1 :: [.stop .toolUse none, .done] = pre ++ .contentStop index :: post := hsplit
    obtain ⟨rfl, _, _⟩ := (List.append_cons_inj_of_notMem (by simp) (by simp)).mp hunique
    exact absurd hany (by decide)

/-- A Chat stream that calls a function and gives the reason for its end. -/
def chat_call : List Value :=
  [.object [("choices", .array [.object [("delta", .object [("tool_calls", .array [.object
      [("index", .nat 0), ("id", .string "c1"),
        ("function", .object [("name", .string "f"), ("arguments", .string "{}")])]])])]])],
    .object [("choices", .array [.object [("delta", .object []), ("finish_reason", .string "tool_calls")]])]]

theorem decode_chat_call :
    decode_all Serde.compact "" .chat (chat_call.map fun v => .ofData (Serde.compact.to_string v)) =
      [.start "" "" none, .toolCallStart 1 "c1" "f" none, .toolCallArgsDelta 1 "{}", .stop .toolUse none, .done] := by
  rw [decode_all_chat_documents Serde.compact_lawful]
  · decide
  · simp [chat_call]

/-- The function call of a Chat stream, whose blocks are never stopped, is
    written after the finish reason. -/
theorem chat_call_not_finishesLast :
    let es := decode_all Serde.compact "" .chat (chat_call.map fun v => .ofData (Serde.compact.to_string v))
    let written := (stream_encoder Serde.compact).outputs es
    ¬ (DeliversCalls Serde.compact es written ∧ FinishesLast Serde.compact written) := by
  rintro es written ⟨_, hlast⟩
  rw [finishesLast_iff Serde.compact_lawful] at hlast
  have hes : es = _ := decode_chat_call
  rw [hes] at hlast
  have hwaits := (hlast (by decide)).2.2 1 (by decide)
  exact absurd hwaits (by decide)

end refract.codec.gemini
