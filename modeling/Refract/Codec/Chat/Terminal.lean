import Refract.Codec.Chat.Decoder
import Refract.Machine.Ending

open refract.json refract.machine refract.stream

namespace refract.codec.chat

open ChatStreamDecoder

/-- The frame is the sentinel. -/
def marks_end (frame : SseFrame) : Bool := trim frame.data = DONE_SENTINEL

/-- The document of a frame that is neither blank nor the sentinel. -/
def payload (serde : Serde) (frame : SseFrame) : Option Value :=
  if trim frame.data = "" ∨ trim frame.data = DONE_SENTINEL then none else serde.from_str (trim frame.data)

/-- The frame is a chunk, not an error. -/
def starts (serde : Serde) (frame : SseFrame) : Bool := (payload serde frame).any fun chunk => (chunk_error chunk).isNone

/-- The delta of a chunk's first choice. -/
def chunk_delta (chunk : Value) : Option Value := (first_choice chunk).bind (·.get "delta")

/-- The pieces of tool calls in a chunk. -/
def chunk_calls (chunk : Value) : List Value :=
  if (chunk_error chunk).isSome then []
  else (((chunk_delta chunk).bind (·.get "tool_calls")).bind Value.as_array).getD []

def frame_calls (serde : Serde) (frame : SseFrame) : List Value := ((payload serde frame).map chunk_calls).getD []

/-- The tool call a piece belongs to. -/
def call_index (call : Value) : Nat := (((call.get "index").bind Value.as_u64).getD 0).val

/-- The piece of a function name in a piece of a call. -/
def call_name (call : Value) : String := (nonempty ((call.get "function").bind (·.get_str "name"))).getD ""

def call_args (call : Value) : String := ((call.get "function").bind (·.get_str "arguments")).getD ""

/-- The tool calls with a name after a piece. -/
def name_call (named : List Nat) (call : Value) : List Nat :=
  if call_name call = "" then named else call_index call :: named

/-- No piece carries arguments of a call that is named by then. -/
def quiet_calls : List Nat → List Value → Bool
  | _, [] => true
  | named, call :: calls =>
    (call_args call = "" || call_index call ∉ name_call named call) && quiet_calls (name_call named call) calls

/-- The delta has no text that is not empty. -/
def textless (delta : Value) : Bool :=
  (nonempty ((delta_text delta "reasoning_content").or (delta_text delta "reasoning"))).isNone &&
    (nonempty (delta.get_str "reasoning_signature")).isNone &&
    (nonempty (delta_text delta "content")).isNone && (nonempty (delta_text delta "refusal")).isNone

/-- The chunk has nothing to say, tool calls apart. -/
def idle_chunk (chunk : Value) : Bool :=
  (chunk_error chunk).isNone && (chunk_delta chunk).all textless &&
    ((first_choice chunk).bind (·.get_str "finish_reason")).isNone && (chunk_usage chunk).isNone

/-- The frame is no second sentinel and has nothing to say, tool calls apart.
    A chunk only has nothing to say when an earlier one has opened the stream. -/
def idle (serde : Serde) (started : Bool) (frame : SseFrame) : Bool :=
  !marks_end frame && (payload serde frame).all fun chunk => started && idle_chunk chunk

/-- The stream has one sentinel at most, and nothing new after it: idle frames,
    and no arguments of a tool call seen before or named since. -/
def CompletesOnce (serde : Serde) (frames : List SseFrame) : Prop :=
  let earlier := before marks_end frames
  let late := after marks_end frames
  (∀ f ∈ late, idle serde (earlier.any (starts serde)) f = true) ∧
    quiet_calls ((earlier.flatMap (frame_calls serde)).map call_index) (late.flatMap (frame_calls serde)) = true

section Calls

variable (named : List Nat)

theorem quiet_calls_append (calls more : List Value) :
    quiet_calls named (calls ++ more) =
      (quiet_calls named calls && quiet_calls (calls.foldl name_call named) more) := by
  induction calls generalizing named with
  | nil => rfl
  | cons call calls ih => simp only [List.cons_append, quiet_calls, List.foldl_cons, ih, Bool.and_assoc]

end Calls

namespace ChatStreamDecoder

variable {serde : Serde} {self : ChatStreamDecoder}

theorem decode_eq (frame : SseFrame) (hframe : marks_end frame = false) :
    self.decode serde frame =
      match payload serde frame with
      | none => (self, [])
      | some chunk => self.decode_chunk chunk := by
  have hne : trim frame.data ≠ DONE_SENTINEL := by simpa [marks_end] using hframe
  unfold decode payload
  simp only [hne, if_false, or_false]
  split <;> rfl

/-- The end of a choice: its finish reason, if it has one. -/
def close_choice (self : ChatStreamDecoder) (chunk : Value) : ChatStreamDecoder × List StreamEvent :=
  match (first_choice chunk).bind (·.get_str "finish_reason") with
  | some reason => self.decode_finish_reason reason
  | none => (self, [])

/-- A chunk that is no error, piece by piece. -/
theorem decode_chunk_eq {chunk : Value} (hchunk : chunk_error chunk = none) :
    self.decode_chunk chunk =
      let called := tool_calls.advance { self with started := true } (chunk_calls chunk)
      ((called.close_choice chunk).1,
        (if self.started then [] else
          [.start ((chunk.get_str "id").getD "") ((chunk.get_str "model").getD "") none]) ++
        (((chunk_delta chunk).map decode_texts).getD [] ++
          tool_calls.emit { self with started := true } (chunk_calls chunk) ++ (called.close_choice chunk).2) ++
        ((chunk_usage chunk).map (.usage <| parse_usage ·)).toList) := by
  unfold decode_chunk close_choice chunk_calls chunk_delta
  rw [hchunk]
  cases first_choice chunk with
  | none => simp
  | some choice =>
    unfold decode_choice decode_delta
    cases hdelta : choice.get "delta" with
    | none => cases hfinish : choice.get_str "finish_reason" <;> simp [hdelta, hfinish]
    | some delta => cases hfinish : choice.get_str "finish_reason" <;> simp [hdelta, hfinish]

variable (self) in
/-- Declaring the calls that are left reports no end. -/
theorem flush_undeclared_tools_quiet :
    ∀ e ∈ self.flush_undeclared_tools.2, e.is_done = false := by
  intro e he
  simp only [flush_undeclared_tools, List.mem_flatMap] at he
  obtain ⟨⟨slot, ti⟩, _, he⟩ := he
  dsimp only at he
  split at he
  · simp only [ToolSlot.declaration, List.mem_cons, List.mem_map] at he
    rcases he with rfl | ⟨args, _, rfl⟩ <;> rfl
  · cases he

theorem accept_quiet (slot : ToolSlot) (index : Nat) (id name : Option String) (args : String) :
    ∀ e ∈ (slot.accept index id name args).2, e.is_done = false := by
  intro e he
  unfold ToolSlot.accept at he
  dsimp only at he
  split at he
  · cases he
  · split at he
    · rw [List.mem_singleton.mp he]
      rfl
    · split at he
      · cases he
      · simp only [ToolSlot.declaration, List.mem_append, List.mem_cons, List.mem_map, List.not_mem_nil,
          or_false] at he
        rcases he with (rfl | ⟨args, _, rfl⟩) | rfl <;> rfl

variable (self) in
theorem tool_calls_quiet (calls : List Value) :
    ((tool_calls.advance self calls).done = self.done ∧ (tool_calls.advance self calls).started = self.started) ∧
      ∀ e ∈ tool_calls.emit self calls, e.is_done = false := by
  apply Transducer.emit_forall (T := tool_calls) (P := fun s => s.done = self.done ∧ s.started = self.started)
    (Q := fun _ => True)
  · rintro s call ⟨hdone, hstarted⟩ _
    exact ⟨⟨hdone, hstarted⟩, accept_quiet _ _ _ _ _⟩
  · exact ⟨rfl, rfl⟩
  · simp

theorem close_choice_quiet (chunk : Value) :
    (self.close_choice chunk).1.done = self.done ∧ (self.close_choice chunk).1.started = self.started ∧
      ∀ e ∈ (self.close_choice chunk).2, e.is_done = false := by
  unfold close_choice
  split
  · refine ⟨rfl, rfl, ?_⟩
    intro e he
    rcases List.mem_append.mp he with he | he
    · exact self.flush_undeclared_tools_quiet e he
    · rw [List.mem_singleton.mp he]
      rfl
  · simp

theorem decode_texts_quiet (delta : Value) : ∀ e ∈ decode_texts delta, e.is_done = false := by
  intro e he
  simp only [decode_texts, List.mem_append, Option.mem_toList, Option.map_eq_some_iff] at he
  rcases he with ((⟨text, _, rfl⟩ | ⟨text, _, rfl⟩) | ⟨text, _, rfl⟩) | ⟨text, _, rfl⟩ <;> rfl

/-- A chunk reports no end. -/
theorem decode_chunk_quiet (chunk : Value) :
    (self.decode_chunk chunk).1.done = self.done ∧
      (self.decode_chunk chunk).1.started = (self.started || (chunk_error chunk).isNone) ∧
      ∀ e ∈ (self.decode_chunk chunk).2, e.is_done = false := by
  cases hchunk : chunk_error chunk with
  | some err =>
    unfold decode_chunk
    simp [hchunk, decode_error, StreamEvent.is_done]
  | none =>
    rw [decode_chunk_eq hchunk]
    dsimp only
    obtain ⟨⟨hdone, hstarted⟩, hcalls⟩ :=
      tool_calls_quiet { self with started := true } (chunk_calls chunk)
    obtain ⟨hdone', hstarted', hclose⟩ :=
      (tool_calls.advance { self with started := true } (chunk_calls chunk)).close_choice_quiet chunk
    refine ⟨hdone'.trans hdone, by simp [hstarted', hstarted], ?_⟩
    intro e he
    simp only [List.mem_append, Option.mem_toList, Option.map_eq_some_iff] at he
    rcases he with (he | (he | he) | he) | ⟨usage, _, rfl⟩
    · split at he
      · cases he
      · rw [List.mem_singleton.mp he]
        rfl
    · cases hdelta : chunk_delta chunk with
      | none => simp [hdelta] at he
      | some delta => exact decode_texts_quiet delta e (by simpa [hdelta] using he)
    · exact hcalls e he
    · exact hclose e he
    · rfl

theorem decode_done_endsWith : EndsWith StreamEvent.is_done self.decode_done.2 :=
  (EndsWith.singleton rfl).prepend (flush_undeclared_tools_quiet { self with done := true })

variable (serde) in
/-- Before the end only the sentinel reports it. -/
theorem decode_state (frame : SseFrame) :
    (self.decode serde frame).1.done = (self.done || marks_end frame) ∧
      (self.decode serde frame).1.started = (self.started || starts serde frame) ∧
      (marks_end frame = false → ∀ e ∈ (self.decode serde frame).2, e.is_done = false) ∧
      (marks_end frame = true → self.decode serde frame = self.decode_done) := by
  cases hframe : marks_end frame with
  | true =>
    have hdata : trim frame.data = DONE_SENTINEL := by simpa [marks_end] using hframe
    have hdecode : self.decode serde frame = self.decode_done := by
      simp [decode, hdata, DONE_SENTINEL]
    rw [hdecode]
    simp [decode_done, flush_undeclared_tools, starts, payload, hdata]
  | false =>
    rw [decode_eq frame hframe]
    unfold starts
    cases payload serde frame with
    | none => simp
    | some chunk =>
      obtain ⟨hdone, hstarted, hquiet⟩ := self.decode_chunk_quiet chunk
      exact ⟨by simp [hdone], by simp [hstarted], fun _ => hquiet, fun h => by cases h⟩

/-- A slot that no piece has reached is as it was, and the others are seen. -/
def Seen (self : ChatStreamDecoder) (indices : List Nat) : Prop :=
  ∀ i, if i ∈ indices then (slot self.tools i).seen = true else slot self.tools i = {}

/-- The named calls, after the end: those that would write arguments. -/
def Names (self : ChatStreamDecoder) (named : List Nat) : Prop :=
  ∀ i, i ∈ named ↔ (slot self.tools i).declared = true ∨ (slot self.tools i).name ≠ ""

theorem slot_decode_tool_call (call : Value) (i : Nat) :
    slot (self.decode_tool_call call).1.tools i =
      if i = call_index call then
        ((slot self.tools i).accept (tool_index i) (call.get_str "id")
          ((call.get "function").bind (·.get_str "name")) (call_args call)).1
      else slot self.tools i := by
  unfold decode_tool_call
  dsimp only
  rw [slot_put]
  by_cases hi : i = call_index call
  · subst hi
    rfl
  · have hne : i ≠ (((call.get "index").bind Value.as_u64).getD 0).val := hi
    rw [if_neg hi, if_neg hne]

theorem accept_seen (slot : ToolSlot) (index : Nat) (id name : Option String) (args : String) :
    (slot.accept index id name args).1.seen = true := by
  unfold ToolSlot.accept
  dsimp only
  split
  · rfl
  · split
    · rfl
    · split <;> rfl

theorem Seen.tool_calls {indices : List Nat} (h : self.Seen indices) (calls : List Value) :
    (tool_calls.advance self calls).Seen (indices ++ calls.map call_index) := by
  induction calls generalizing self indices with
  | nil => simpa using h
  | cons call calls ih =>
    have hcall : (self.decode_tool_call call).1.Seen (indices ++ [call_index call]) := by
      intro i
      rw [slot_decode_tool_call]
      have hi := h i
      by_cases hindex : i = call_index call
      · simp [hindex, accept_seen]
      · simpa [hindex] using hi
    have hrest := ih hcall
    rwa [List.append_assoc] at hrest

theorem slot_flush (i : Nat) : slot (self.tools.map ToolSlot.flush) i = (slot self.tools i).flush := by
  unfold slot
  rw [List.getElem?_map]
  cases self.tools[i]? <;> rfl

theorem Seen.flush {indices : List Nat} (h : self.Seen indices) : self.flush_undeclared_tools.1.Seen indices := by
  intro i
  have hi := h i
  have hslot : slot self.flush_undeclared_tools.1.tools i = (slot self.tools i).flush := self.slot_flush i
  rw [hslot]
  by_cases hmem : i ∈ indices
  · rw [if_pos hmem] at hi ⊢
    unfold ToolSlot.flush
    split <;> simp [hi]
  · rw [if_neg hmem] at hi ⊢
    rw [hi]
    rfl

variable (serde) in
theorem Seen.decode {indices : List Nat} (h : self.Seen indices) (frame : SseFrame) :
    (self.decode serde frame).1.Seen (indices ++ (frame_calls serde frame).map call_index) := by
  cases hframe : marks_end frame with
  | true =>
    rw [(self.decode_state serde frame).2.2.2 hframe]
    have hcalls : frame_calls serde frame = [] := by
      have hdata : trim frame.data = DONE_SENTINEL := by simpa [marks_end] using hframe
      simp [frame_calls, payload, hdata]
    rw [hcalls, List.map_nil, List.append_nil]
    have hdone : Seen { self with done := true } indices := h
    exact hdone.flush
  | false =>
    rw [decode_eq frame hframe]
    unfold frame_calls
    cases payload serde frame with
    | none => simpa using h
    | some chunk =>
      cases hchunk : chunk_error chunk with
      | some err => simpa [decode_chunk, chunk_calls, hchunk] using h
      | none =>
        have hstarted : Seen { self with started := true } indices := h
        have hcalled := hstarted.tool_calls (chunk_calls chunk)
        dsimp only
        rw [decode_chunk_eq hchunk]
        unfold close_choice
        dsimp only
        split
        · exact hcalled.flush
        · exact hcalled

/-- When the sentinel arrives, every call that was seen gets named. -/
theorem Seen.names {indices : List Nat} (h : self.Seen indices) : self.decode_done.1.Names indices := by
  intro i
  have hi := h i
  have hslot : slot self.decode_done.1.tools i = (slot self.tools i).flush := self.slot_flush i
  rw [hslot]
  by_cases hmem : i ∈ indices
  · rw [if_pos hmem] at hi
    unfold ToolSlot.flush ToolSlot.undeclared
    cases hdeclared : (slot self.tools i).declared <;> simp [hmem, hi, hdeclared]
  · rw [if_neg hmem] at hi
    rw [hi]
    simp [hmem, ToolSlot.flush, ToolSlot.undeclared]

/-- A slot is silent exactly when no arguments arrive, or it has no name yet. -/
theorem accept_silent (slot : ToolSlot) (index : Nat) (id name : Option String) (args : String) :
    ((slot.accept index id name args).2 = [] ↔
        args = "" ∨ ¬ (slot.declared = true ∨ slot.name ++ (nonempty name).getD "" ≠ "")) ∧
      ((slot.accept index id name args).2 = [] →
        (slot.accept index id name args).1.declared = slot.declared ∧
          (slot.accept index id name args).1.name = slot.name ++ (nonempty name).getD "") := by
  unfold ToolSlot.accept
  dsimp only
  by_cases hargs : args = ""
  · simp [hargs]
  · by_cases hdeclared : slot.declared = true
    · simp [hargs, hdeclared]
    · by_cases hname : slot.name ++ (nonempty name).getD "" = ""
      · simp [hargs, hdeclared, hname]
      · simp [hargs, hdeclared, hname]

/-- The events of a piece are those of its slot. -/
theorem decode_tool_call_events (call : Value) :
    (self.decode_tool_call call).2 =
      ((slot self.tools (call_index call)).accept (tool_index (call_index call)) (call.get_str "id")
        ((call.get "function").bind (·.get_str "name")) (call_args call)).2 := rfl

/-- The call of a piece is named when it was, or the piece names it. -/
theorem Names.name_call {named : List Nat} (h : self.Names named) (call : Value) :
    call_index call ∈ name_call named call ↔
      (slot self.tools (call_index call)).declared = true ∨
        (slot self.tools (call_index call)).name ++ call_name call ≠ "" := by
  have hindex := h (call_index call)
  unfold chat.name_call
  by_cases hname : call_name call = ""
  · rw [if_pos hname, hname, String.append_empty]
    exact hindex
  · simp [hname]

/-- A piece is silent exactly when it carries no arguments of a named call. -/
theorem Names.decode_tool_call {named : List Nat} (h : self.Names named) (call : Value) :
    ((self.decode_tool_call call).2 = [] ↔
        (call_args call = "" || call_index call ∉ chat.name_call named call) = true) ∧
      ((self.decode_tool_call call).2 = [] → (self.decode_tool_call call).1.Names (chat.name_call named call)) := by
  obtain ⟨hsilent, hstate⟩ := accept_silent (slot self.tools (call_index call)) (tool_index (call_index call))
    (call.get_str "id") ((call.get "function").bind (·.get_str "name")) (call_args call)
  have hnamed := h.name_call call
  rw [decode_tool_call_events]
  refine ⟨?_, ?_⟩
  · rw [hsilent]
    simp only [Bool.or_eq_true, decide_eq_true_eq, hnamed]
    exact Iff.rfl
  · intro hnil i
    obtain ⟨hdeclared, hname⟩ := hstate hnil
    rw [slot_decode_tool_call]
    by_cases hi : i = call_index call
    · subst hi
      rw [if_pos rfl, hdeclared, hname, hnamed]
      exact Iff.rfl
    · rw [if_neg hi, ← h i]
      unfold chat.name_call
      split
      · rfl
      · simp [hi]

/-- The pieces of a chunk are silent exactly when they are quiet. -/
theorem Names.tool_calls {named : List Nat} (h : self.Names named) (calls : List Value) :
    (tool_calls.emit self calls = [] ↔ quiet_calls named calls = true) ∧
      (tool_calls.emit self calls = [] → (tool_calls.advance self calls).Names (calls.foldl chat.name_call named)) := by
  induction calls generalizing self named with
  | nil => exact ⟨by simp [quiet_calls], fun _ => h⟩
  | cons call calls ih =>
    obtain ⟨hsilent, hnames⟩ := h.decode_tool_call call
    have hstep : ChatStreamDecoder.tool_calls.step self call = self.decode_tool_call call := rfl
    rw [Transducer.emit_cons, Transducer.advance_cons, hstep, List.append_eq_nil_iff, List.foldl_cons, quiet_calls,
      Bool.and_eq_true, ← hsilent]
    refine ⟨?_, ?_⟩
    · apply and_congr_right
      intro hnil
      exact (ih (hnames hnil)).1
    · rintro ⟨hnil, hrest⟩
      exact (ih (hnames hnil)).2 hrest

theorem decode_texts_silent (delta : Value) : decode_texts delta = [] ↔ textless delta = true := by
  simp [decode_texts, textless, and_assoc]

theorem close_choice_silent (chunk : Value) :
    ((self.close_choice chunk).2 = [] ↔ ((first_choice chunk).bind (·.get_str "finish_reason")).isNone = true) ∧
      ((self.close_choice chunk).2 = [] → (self.close_choice chunk).1 = self) := by
  unfold close_choice
  cases (first_choice chunk).bind (·.get_str "finish_reason") with
  | none => simp
  | some reason => simp [decode_finish_reason]

/-- A chunk of an opened stream is silent exactly when it is idle and quiet. -/
theorem Names.decode_chunk {named : List Nat} (h : self.Names named) (hstarted : self.started = true)
    {chunk : Value} (hchunk : chunk_error chunk = none) :
    ((self.decode_chunk chunk).2 = [] ↔
        idle_chunk chunk = true ∧ quiet_calls named (chunk_calls chunk) = true) ∧
      ((self.decode_chunk chunk).2 = [] →
        (self.decode_chunk chunk).1.Names ((chunk_calls chunk).foldl chat.name_call named)) := by
  have hself : { self with started := true } = self := by rw [← hstarted]
  obtain ⟨hcalls, hnames⟩ := h.tool_calls (chunk_calls chunk)
  obtain ⟨hclose, hstate⟩ := (ChatStreamDecoder.tool_calls.advance self (chunk_calls chunk)).close_choice_silent chunk
  have htexts : ((chunk_delta chunk).map decode_texts).getD [] = [] ↔ (chunk_delta chunk).all textless = true := by
    cases chunk_delta chunk with
    | none => simp
    | some delta => simpa using decode_texts_silent delta
  have husage : ((chunk_usage chunk).map (StreamEvent.usage <| parse_usage ·)).toList = [] ↔
      (chunk_usage chunk).isNone = true := by
    cases chunk_usage chunk <;> simp
  rw [decode_chunk_eq hchunk, hself, hstarted]
  dsimp only
  rw [List.append_eq_nil_iff, List.append_eq_nil_iff, List.append_eq_nil_iff, List.append_eq_nil_iff, htexts, hcalls,
    hclose, husage]
  refine ⟨?_, ?_⟩
  · unfold idle_chunk
    simp only [if_true, hchunk, Option.isNone_none, Bool.true_and, Bool.and_eq_true]
    constructor
    · rintro ⟨⟨_, ⟨htexts, hquiet⟩, hfinish⟩, husage⟩
      exact ⟨⟨⟨htexts, hfinish⟩, husage⟩, hquiet⟩
    · rintro ⟨⟨⟨htexts, hfinish⟩, husage⟩, hquiet⟩
      exact ⟨⟨trivial, ⟨htexts, hquiet⟩, hfinish⟩, husage⟩
  · rintro ⟨⟨_, ⟨_, hquiet⟩, hfinish⟩, _⟩
    rw [hstate (hclose.mpr hfinish)]
    exact hnames (hcalls.mpr hquiet)

variable (serde) in
/-- After the end a frame is silent exactly when it has nothing new to say. -/
theorem Names.decode {named : List Nat} (h : self.Names named) (frame : SseFrame) :
    ((self.decode serde frame).2 = [] ↔
        idle serde self.started frame = true ∧ quiet_calls named (frame_calls serde frame) = true) ∧
      ((self.decode serde frame).2 = [] →
        (self.decode serde frame).1.started = self.started ∧
          (self.decode serde frame).1.Names ((frame_calls serde frame).foldl chat.name_call named)) := by
  cases hframe : marks_end frame with
  | true =>
    have hdata : trim frame.data = DONE_SENTINEL := by simpa [marks_end] using hframe
    rw [(self.decode_state serde frame).2.2.2 hframe]
    simp [decode_done, idle, hframe]
  | false =>
    rw [decode_eq frame hframe]
    unfold idle frame_calls
    cases payload serde frame with
    | none => simpa [hframe, quiet_calls] using h
    | some chunk =>
      cases hchunk : chunk_error chunk with
      | some err => simp [hframe, ChatStreamDecoder.decode_chunk, hchunk, idle_chunk]
      | none =>
        dsimp only
        cases hstarted : self.started with
        | false => simp [hframe, decode_chunk_eq hchunk, hstarted]
        | true =>
          obtain ⟨hsilent, hnames⟩ := h.decode_chunk hstarted hchunk
          obtain ⟨_, hstarted', _⟩ := self.decode_chunk_quiet chunk
          refine ⟨by simpa [hframe] using hsilent, fun hnil => ⟨?_, hnames hnil⟩⟩
          rw [hstarted', hstarted, Bool.true_or]

end ChatStreamDecoder

theorem stream_decoder_closes (serde : Serde) :
    (stream_decoder serde).Closes (·.done) marks_end StreamEvent.is_done where
  init := rfl
  running s frame hdone hframe := by
    obtain ⟨hflag, _, hquiet, _⟩ := s.decode_state serde frame
    rw [stream_decoder_step, hflag, hdone, hframe]
    exact ⟨rfl, hquiet hframe⟩
  stays s frame hdone := by
    rw [stream_decoder_step, (s.decode_state serde frame).1, hdone, Bool.true_or]
  finish_running s hdone := by
    rw [stream_decoder_finish, finish, hdone]
    exact s.decode_done_endsWith
  finish_closed s hdone := by
    rw [stream_decoder_finish, finish, if_pos hdone]

/-- The state of a decoder after some frames. -/
theorem advance_state (serde : Serde) (frames : List SseFrame) :
    ((stream_decoder serde).advance {} frames).started = frames.any (starts serde) ∧
      ((stream_decoder serde).advance {} frames).Seen ((frames.flatMap (frame_calls serde)).map call_index) := by
  let P (frames : List SseFrame) (_ : List StreamEvent) (s : ChatStreamDecoder) : Prop :=
    s.started = frames.any (starts serde) ∧ s.Seen ((frames.flatMap (frame_calls serde)).map call_index)
  apply Transducer.history (T := stream_decoder serde) (P := P)
  · rintro frames events s frame ⟨hstarted, hseen⟩
    rw [stream_decoder_step]
    refine ⟨?_, ?_⟩
    · rw [(s.decode_state serde frame).2.1, hstarted, List.any_append, List.any_cons, List.any_nil, Bool.or_false]
    · have hframe := hseen.decode serde frame
      rwa [← List.map_append, ← List.flatMap_singleton (frame_calls serde) frame, ← List.flatMap_append] at hframe
  · exact ⟨rfl, fun i => rfl⟩

/-- The frames after the end are silent exactly when they say nothing new. -/
theorem emit_late (serde : Serde) {s : ChatStreamDecoder} {named : List Nat} (hdone : s.done = true)
    (hnames : s.Names named) (frames : List SseFrame) :
    (stream_decoder serde).emit s frames = [] ↔
      (∀ f ∈ frames, idle serde s.started f = true) ∧
        quiet_calls named (frames.flatMap (frame_calls serde)) = true := by
  induction frames generalizing s named with
  | nil => simp [quiet_calls]
  | cons f frames ih =>
    obtain ⟨hsilent, hstate⟩ := hnames.decode serde f
    have hdone' : (s.decode serde f).1.done = true := by rw [(s.decode_state serde f).1, hdone, Bool.true_or]
    rw [Transducer.emit_cons, stream_decoder_step, List.append_eq_nil_iff, List.forall_mem_cons, List.flatMap_cons,
      quiet_calls_append, Bool.and_eq_true]
    constructor
    · rintro ⟨hnil, hrest⟩
      obtain ⟨hstarted, hnames'⟩ := hstate hnil
      obtain ⟨hidle, hquiet⟩ := hsilent.mp hnil
      obtain ⟨hidles, hquiets⟩ := (ih hdone' hnames').mp hrest
      rw [hstarted] at hidles
      exact ⟨⟨hidle, hidles⟩, hquiet, hquiets⟩
    · rintro ⟨⟨hidle, hidles⟩, hquiet, hquiets⟩
      have hnil := hsilent.mpr ⟨hidle, hquiet⟩
      obtain ⟨hstarted, hnames'⟩ := hstate hnil
      rw [← hstarted] at hidles
      exact ⟨hnil, (ih hdone' hnames').mpr ⟨hidles, hquiets⟩⟩

/-- A stream has one end, and it is last, exactly when it completes once. -/
theorem decode_endsWith_done (serde : Serde) (frames : List SseFrame) :
    EndsWith StreamEvent.is_done ((stream_decoder serde).outputs frames) ↔ CompletesOnce serde frames := by
  have hcloses := stream_decoder_closes serde
  unfold CompletesOnce
  dsimp only
  obtain ⟨hall, _, hnil⟩ | ⟨mark, hsplit, hmark, _⟩ := split_first (p := marks_end) frames
  · rw [hnil]
    have hunmarked : ∀ f ∈ frames, marks_end f = false := by
      rw [← hall]
      exact fun f => of_mem_before
    exact ⟨fun _ => by simp [quiet_calls], fun _ => hcloses.endsWith_of_unmarked hunmarked⟩
  · have hpre : ∀ f ∈ before marks_end frames, marks_end f = false := fun f => of_mem_before
    have hstep (s : ChatStreamDecoder) : (stream_decoder serde).step s mark = s.decode_done := by
      rw [stream_decoder_step]
      exact (s.decode_state serde mark).2.2.2 hmark
    have hdone (s : ChatStreamDecoder) : s.decode_done.1.done = true := rfl
    have hstarted (s : ChatStreamDecoder) : s.decode_done.1.started = s.started := rfl
    obtain ⟨hopened, hseen⟩ := advance_state serde (before marks_end frames)
    conv_lhs => rw [hsplit]
    rw [hcloses.endsWith_iff hpre (fun s _ => by rw [hstep, hdone])
      (fun s _ => by rw [hstep]; exact s.decode_done_endsWith), hstep, stream_decoder_init, emit_late serde (hdone _) hseen.names,
      hstarted, hopened]

end refract.codec.chat
