import Refract.Codec.Chat.Terminal
import Refract.Json.RoundTrip

open refract.json refract.machine refract.stream

namespace refract.codec.chat

open ChatStreamDecoder

/-- The event starts a tool call or carries arguments of it. -/
def concerns (index : Nat) : StreamEvent → Bool
  | .toolCallStart i _ _ _ | .toolCallArgsDelta i _ => i = index
  | _ => false

/-- The pieces of one tool call in a list of pieces. -/
def pieces_of (ti : Nat) (calls : List Value) : List Value := calls.filter (call_index · = ti)

/-- The last id that some pieces announce. -/
def announced_id (pieces : List Value) : String :=
  ((pieces.filterMap fun call => nonempty (call.get_str "id")).getLast?).getD ""

/-- The name that some pieces announce, put together. -/
def announced_name (pieces : List Value) : String := String.join (pieces.map call_name)

def carried_args (pieces : List Value) : String := String.join (pieces.map call_args)

/-- What a tool call waits for: a piece of it, or the end of a choice. -/
inductive Cue where
  | piece (call : Value)
  | close

def chunk_cues (chunk : Value) : List Cue :=
  (chunk_calls chunk).map .piece ++
    if (chunk_error chunk).isNone && ((first_choice chunk).bind (·.get_str "finish_reason")).isSome then [.close] else []

def frame_cues (serde : Serde) (frame : SseFrame) : List Cue :=
  if marks_end frame then [.close] else ((payload serde frame).map chunk_cues).getD []

def Cue.call : Cue → Option Value
  | .piece call => some call
  | .close => none

/-- What has been announced of a tool call before it starts. -/
structure Announcement where
  heard : List Value := []
  started : Bool := false

namespace Announcement

/-- A call starts with the first arguments that come when it has a name, and at the
    latest with the end of its choice. -/
def hear (ti : Nat) (self : Announcement) : Cue → Announcement
  | .close => if self.heard = [] then self else { self with started := true }
  | .piece call =>
    if self.started ∨ call_index call ≠ ti then self
    else
      let heard := self.heard ++ [call]
      { heard, started := call_args call ≠ "" && announced_name heard ≠ "" }

end Announcement

def announcement (ti : Nat) (cues : List Cue) : Announcement := cues.foldl (Announcement.hear ti) {}

def cue_pieces (ti : Nat) (cues : List Cue) : List Value := pieces_of ti (cues.filterMap Cue.call)

/-- The state of a call in the decoder, with the events that were written for it. -/
inductive Tracks (index : Nat) (announced : Announcement) (pieces : List Value) (slot : ToolSlot) : List StreamEvent → Prop where
  | waiting (hstarted : announced.started = false) (hdeclared : slot.declared = false) (hheard : announced.heard = pieces)
    (hseen : slot.seen = !pieces.isEmpty) (hid : slot.id = announced_id pieces) (hname : slot.name = announced_name pieces)
    (hargs : String.join slot.pending_args = carried_args pieces) : Tracks index announced pieces slot []
  | running (fragments : List String) (hpieces : pieces ≠ []) (hstarted : announced.started = true) (hdeclared : slot.declared = true)
    (hargs : String.join fragments = carried_args pieces) :
    Tracks index announced pieces slot
      (.toolCallStart index (announced_id announced.heard) (announced_name announced.heard) none ::
        fragments.map (.toolCallArgsDelta index))

section Slots

variable {index ti : Nat} {announced : Announcement} {pieces : List Value} {slot : ToolSlot} {events : List StreamEvent} {call : Value}

theorem announced_id_concat : announced_id (pieces ++ [call]) = (nonempty (call.get_str "id")).getD (announced_id pieces) := by
  unfold announced_id
  rw [List.filterMap_append]
  cases hid : nonempty (call.get_str "id") <;> simp [hid]

theorem announced_name_concat : announced_name (pieces ++ [call]) = announced_name pieces ++ call_name call := by
  simp [announced_name]

theorem carried_args_concat : carried_args (pieces ++ [call]) = carried_args pieces ++ call_args call := by
  simp [carried_args]

/-- A piece that arrives for a call. -/
theorem Tracks.piece (h : Tracks index announced pieces slot events) (hcall : call_index call = ti) :
    Tracks index (announced.hear ti (.piece call)) (pieces ++ [call])
      (slot.accept index (call.get_str "id") ((call.get "function").bind (·.get_str "name")) (call_args call)).1
      (events ++ (slot.accept index (call.get_str "id") ((call.get "function").bind (·.get_str "name")) (call_args call)).2) := by
  have hstays : ¬(false = true ∨ call_index call ≠ ti) := by simp [hcall]
  cases h with
  | waiting hstarted hdeclared hheard hseen hid hname hargs =>
    subst hheard
    have hnext : slot.name ++ (nonempty ((call.get "function").bind (·.get_str "name"))).getD "" =
        announced_name (announced.heard ++ [call]) := by
      rw [announced_name_concat, hname]
      rfl
    have hid' : (nonempty (call.get_str "id")).getD slot.id = announced_id (announced.heard ++ [call]) := by
      rw [announced_id_concat, hid]
    unfold ToolSlot.accept Announcement.hear
    simp only [hstarted, if_neg hstays, hnext, hid', List.nil_append]
    by_cases hempty : call_args call = ""
    · rw [if_pos hempty]
      refine .waiting (by simp [hempty]) hdeclared rfl (by simp) rfl rfl ?_
      rw [carried_args_concat, hempty, String.append_empty]
      exact hargs
    · rw [if_neg hempty]
      have hjoin : String.join (slot.pending_args ++ [call_args call]) = carried_args (announced.heard ++ [call]) := by
        rw [String.join_append, hargs, carried_args_concat]
        simp
      by_cases hunnamed : announced_name (announced.heard ++ [call]) = ""
      · rw [hdeclared, if_neg (by decide), if_pos hunnamed]
        exact .waiting (by simp [hunnamed]) rfl rfl (by simp) rfl rfl hjoin
      · rw [hdeclared, if_neg (by decide), if_neg hunnamed]
        rw [ToolSlot.declaration, List.cons_append, ← List.map_singleton, ← List.map_append]
        exact .running _ (by simp) (by simp [hempty, hunnamed]) rfl hjoin
  | running fragments hpieces hstarted hdeclared hargs =>
    have hsame : announced.hear ti (.piece call) = announced := by
      unfold Announcement.hear
      simp [hstarted]
    rw [hsame]
    unfold ToolSlot.accept
    by_cases hempty : call_args call = ""
    · simp only [if_pos hempty, List.append_nil]
      refine .running fragments (by simp) hstarted hdeclared ?_
      rw [carried_args_concat, hempty, hargs, String.append_empty]
    · rw [if_neg hempty, if_pos hdeclared, List.cons_append, ← List.map_singleton, ← List.map_append]
      refine .running _ (by simp) hstarted hdeclared ?_
      rw [String.join_append, hargs, carried_args_concat]
      simp

/-- The end of a choice starts the calls that still wait. -/
theorem Tracks.close (h : Tracks index announced pieces slot events) :
    Tracks index (announced.hear ti .close) pieces slot.flush
      (events ++ if slot.undeclared then slot.declaration index else []) := by
  cases h with
  | waiting hstarted hdeclared hheard hseen hid hname hargs =>
    subst hheard
    unfold Announcement.hear ToolSlot.flush ToolSlot.undeclared
    by_cases hnone : announced.heard = []
    · have hunseen : slot.seen = false := by rw [hseen, hnone]; rfl
      rw [if_pos hnone, hunseen]
      simp only [Bool.false_and, Bool.false_eq_true, if_false, List.append_nil]
      exact .waiting hstarted hdeclared rfl (by rw [hnone]; exact hunseen) hid hname hargs
    · have hseen' : slot.seen = true := by rw [hseen]; simpa using hnone
      rw [if_neg hnone, hseen', hdeclared]
      simp only [Bool.not_false, Bool.and_true, if_true, List.nil_append]
      unfold ToolSlot.declaration
      rw [hid, hname]
      exact .running slot.pending_args hnone rfl rfl hargs
  | running fragments hpieces hstarted hdeclared hargs =>
    have hflush : slot.undeclared = false := by simp [ToolSlot.undeclared, hdeclared]
    have hsame : announced.hear ti .close = announced := by
      change (if announced.heard = [] then announced else { announced with started := true }) = announced
      split
      · rfl
      · rw [← hstarted]
    rw [hsame, ToolSlot.flush, hflush]
    simp only [Bool.false_eq_true, if_false, List.append_nil]
    exact .running fragments hpieces hstarted hdeclared hargs

end Slots

/-- The tool calls of the protocol. Their numbers fit in 32 bits with one to spare. -/
def TOOL_LIMIT : Nat := 4294967295

theorem tool_index_inj {i j : Nat} (hi : i < TOOL_LIMIT) (hj : j < TOOL_LIMIT) (heq : tool_index i = tool_index j) : i = j := by
  unfold tool_index TOOL_INDEX_BASE at heq
  unfold TOOL_LIMIT at hi hj
  omega

/-- Every call is tracked by its slot. -/
structure Follows (decoder : ChatStreamDecoder) (cues : List Cue) (events : List StreamEvent) : Prop where
  bound : decoder.tools.length ≤ TOOL_LIMIT
  tracks : ∀ ti < TOOL_LIMIT,
    Tracks (tool_index ti) (announcement ti cues) (cue_pieces ti cues) (slot decoder.tools ti)
      (events.filter (concerns (tool_index ti)))

section Decoder

variable {serde : Serde} {self : ChatStreamDecoder} {cues : List Cue} {events more : List StreamEvent} {call : Value} {ti : Nat}

theorem announcement_concat (cue : Cue) : announcement ti (cues ++ [cue]) = (announcement ti cues).hear ti cue := by
  simp [announcement]

theorem cue_pieces_concat_piece :
    cue_pieces ti (cues ++ [.piece call]) = if call_index call = ti then cue_pieces ti cues ++ [call] else cue_pieces ti cues := by
  simp only [cue_pieces, pieces_of, List.filterMap_append, List.filter_append]
  by_cases hti : call_index call = ti <;> simp [hti, Cue.call]

theorem cue_pieces_concat_close : cue_pieces ti (cues ++ [.close]) = cue_pieces ti cues := by
  rw [cue_pieces, List.filterMap_append]
  change pieces_of ti (_ ++ []) = _
  rw [List.append_nil, cue_pieces]

/-- Whatever the decoder writes besides leaves the calls alone. -/
theorem Follows.extend (h : Follows self cues events) (more : List StreamEvent) (hmore : ∀ e ∈ more, ∀ index, concerns index e = false) :
    Follows self cues (events ++ more) := by
  refine ⟨h.bound, fun ti hti => ?_⟩
  have hnone : more.filter (concerns (tool_index ti)) = [] := List.filter_eq_nil_iff.mpr fun e he => by simp [hmore e he]
  rw [List.filter_append, hnone, List.append_nil]
  exact h.tracks ti hti

theorem declaration_concerns (entry : ToolSlot) (i index : Nat) :
    (entry.declaration i).filter (concerns index) = if i = index then entry.declaration i else [] := by
  unfold ToolSlot.declaration
  by_cases hi : i = index
  · rw [if_pos hi, List.filter_eq_self]
    intro e he
    rcases List.mem_cons.mp he with rfl | he
    · exact decide_eq_true hi
    · obtain ⟨args, -, rfl⟩ := List.mem_map.mp he
      exact decide_eq_true hi
  · rw [if_neg hi, List.filter_eq_nil_iff]
    intro e he
    rcases List.mem_cons.mp he with rfl | he
    · simpa [concerns] using hi
    · obtain ⟨args, -, rfl⟩ := List.mem_map.mp he
      simpa [concerns] using hi

theorem accept_concerns (entry : ToolSlot) (i index : Nat) (id name : Option String) (args : String) :
    (entry.accept i id name args).2.filter (concerns index) = if i = index then (entry.accept i id name args).2 else [] := by
  have hdelta : [StreamEvent.toolCallArgsDelta i args].filter (concerns index) =
      if i = index then [.toolCallArgsDelta i args] else [] := by
    by_cases hi : i = index <;> simp [concerns, hi]
  unfold ToolSlot.accept
  dsimp only
  split
  · simp
  · split
    · exact hdelta
    · split
      · simp
      · rw [List.filter_append, declaration_concerns, hdelta]
        split <;> rfl

theorem decode_tool_call_events_eq :
    (self.decode_tool_call call).2 =
      ((slot self.tools (call_index call)).accept (tool_index (call_index call)) (call.get_str "id")
        ((call.get "function").bind (·.get_str "name")) (call_args call)).2 :=
  rfl

theorem Follows.piece (h : Follows self cues events) (hcall : call_index call < TOOL_LIMIT) :
    Follows (self.decode_tool_call call).1 (cues ++ [.piece call]) (events ++ (self.decode_tool_call call).2) := by
  refine ⟨?_, fun ti hti => ?_⟩
  · have hbound := h.bound
    change (put self.tools (call_index call) _).length ≤ TOOL_LIMIT
    rw [length_put]
    omega
  · have htracks := h.tracks ti hti
    rw [slot_decode_tool_call, decode_tool_call_events_eq, List.filter_append, accept_concerns, announcement_concat,
      cue_pieces_concat_piece]
    by_cases hsame : call_index call = ti
    · subst hsame
      rw [if_pos rfl, if_pos rfl, if_pos rfl]
      exact htracks.piece rfl
    · have hother : tool_index (call_index call) ≠ tool_index ti := fun heq => hsame (tool_index_inj hcall hti heq)
      have hunheard : (announcement ti cues).hear ti (.piece call) = announcement ti cues := by
        unfold Announcement.hear
        exact if_pos (.inr hsame)
      rw [if_neg hsame, if_neg (Ne.symm hsame), if_neg hother, hunheard, List.append_nil]
      exact htracks

/-- Among the calls that are started at the end of a choice there is each call once. -/
theorem flush_concerns (slots : List ToolSlot) {k : Nat} (hbound : k + slots.length ≤ TOOL_LIMIT) (hti : ti < TOOL_LIMIT) :
    ((slots.zipIdx k).flatMap fun (entry, tj) => if entry.undeclared then entry.declaration (tool_index tj) else []).filter
        (concerns (tool_index ti)) =
      if k ≤ ti ∧ (slot slots (ti - k)).undeclared then (slot slots (ti - k)).declaration (tool_index ti) else [] := by
  induction slots generalizing k with
  | nil => simp [slot_nil, ToolSlot.undeclared]
  | cons entry slots ih =>
    rw [List.length_cons] at hbound
    have hrest := ih (k := k + 1) (by omega)
    rw [List.zipIdx_cons, List.flatMap_cons, List.filter_append, hrest]
    have hhead : (if entry.undeclared then entry.declaration (tool_index k) else []).filter (concerns (tool_index ti)) =
        if k = ti ∧ entry.undeclared then entry.declaration (tool_index ti) else [] := by
      by_cases hentry : entry.undeclared
      · rw [if_pos hentry, declaration_concerns]
        by_cases hk : k = ti
        · rw [if_pos (congrArg tool_index hk), if_pos ⟨hk, hentry⟩, hk]
        · rw [if_neg fun heq => hk (tool_index_inj (by omega) hti heq), if_neg fun hboth => hk hboth.1]
      · rw [if_neg hentry, if_neg fun hboth => hentry hboth.2]
        rfl
    rw [hhead]
    rcases lt_trichotomy ti k with hlt | rfl | hgt
    · rw [if_neg (by omega), if_neg (by omega), if_neg (by omega)]
      rfl
    · rw [if_neg (c := ti + 1 ≤ ti ∧ _) (by omega), Nat.sub_self, List.append_nil]
      simp [slot]
    · have hslot : slot (entry :: slots) (ti - k) = slot slots (ti - (k + 1)) := by
        have hsucc : ti - k = (ti - (k + 1)) + 1 := by omega
        rw [hsucc]
        rfl
      have hle : k ≤ ti := by omega
      have hlt : k + 1 ≤ ti := by omega
      rw [if_neg (by omega), hslot, List.nil_append]
      simp only [hle, hlt, true_and]

theorem Follows.close (h : Follows self cues events) :
    Follows self.flush_undeclared_tools.1 (cues ++ [.close]) (events ++ self.flush_undeclared_tools.2) := by
  refine ⟨?_, fun ti hti => ?_⟩
  · change (self.tools.map ToolSlot.flush).length ≤ TOOL_LIMIT
    rw [List.length_map]
    exact h.bound
  · have hflushed : self.flush_undeclared_tools.2.filter (concerns (tool_index ti)) =
        if (slot self.tools ti).undeclared then (slot self.tools ti).declaration (tool_index ti) else [] := by
      have hall := flush_concerns self.tools (k := 0) (by have := h.bound; omega) hti
      simpa [flush_undeclared_tools] using hall
    have hslot : slot self.flush_undeclared_tools.1.tools ti = (slot self.tools ti).flush := slot_flush ti
    rw [List.filter_append, hflushed, hslot, announcement_concat, cue_pieces_concat_close]
    exact (h.tracks ti hti).close

/-- Only the slots of a decoder matter to its calls. -/
theorem Follows.of_tools {other : ChatStreamDecoder} (h : Follows self cues events) (htools : other.tools = self.tools) :
    Follows other cues events :=
  ⟨htools ▸ h.bound, htools ▸ h.tracks⟩

theorem Follows.calls (h : Follows self cues events) {calls : List Value} (hcalls : ∀ call ∈ calls, call_index call < TOOL_LIMIT) :
    Follows (tool_calls.advance self calls) (cues ++ calls.map .piece) (events ++ tool_calls.emit self calls) := by
  induction calls generalizing self cues events with
  | nil => simpa using h
  | cons call calls ih =>
    obtain ⟨hcall, hcalls⟩ := List.forall_mem_cons.mp hcalls
    have hrest := ih (h.piece hcall) hcalls
    rwa [List.append_assoc, List.append_assoc] at hrest

theorem decode_texts_unconcerned (delta : Value) : ∀ e ∈ decode_texts delta, ∀ index, concerns index e = false := by
  intro e he index
  simp only [decode_texts, List.mem_append, Option.mem_toList, Option.map_eq_some_iff] at he
  rcases he with ((⟨_, _, rfl⟩ | ⟨_, _, rfl⟩) | ⟨_, _, rfl⟩) | ⟨_, _, rfl⟩ <;> rfl

/-- The end of a choice, if the chunk is one. -/
theorem Follows.close_choice (h : Follows self cues events) {chunk : Value} (hchunk : chunk_error chunk = none) :
    Follows (self.close_choice chunk).1
      (cues ++ if (chunk_error chunk).isNone && ((first_choice chunk).bind (·.get_str "finish_reason")).isSome then [.close] else [])
      (events ++ (self.close_choice chunk).2) := by
  unfold ChatStreamDecoder.close_choice
  rw [hchunk]
  cases (first_choice chunk).bind (·.get_str "finish_reason") with
  | none => simpa using h
  | some reason =>
    have hclosed := h.close.extend [.stop (finish_reason_to_ir reason) none] (by simp [concerns])
    rwa [List.append_assoc] at hclosed

theorem Follows.decode_chunk (h : Follows self cues events) {chunk : Value}
    (hcalls : ∀ call ∈ chunk_calls chunk, call_index call < TOOL_LIMIT) :
    Follows (self.decode_chunk chunk).1 (cues ++ chunk_cues chunk) (events ++ (self.decode_chunk chunk).2) := by
  cases hchunk : chunk_error chunk with
  | some err =>
    have hcues : chunk_cues chunk = [] := by simp [chunk_cues, chunk_calls, hchunk]
    have hdecode : self.decode_chunk chunk = (self, [decode_error err]) := by
      unfold ChatStreamDecoder.decode_chunk
      rw [hchunk]
    rw [hdecode, hcues, List.append_nil]
    exact h.extend _ (by simp [decode_error, concerns])
  | none =>
    rw [decode_chunk_eq hchunk]
    dsimp only
    have hstart := h.extend (if self.started then [] else
      [.start ((chunk.get_str "id").getD "") ((chunk.get_str "model").getD "") none]) (by
        split <;> simp [concerns])
    have htexts := hstart.extend (((chunk_delta chunk).map decode_texts).getD []) (by
      cases chunk_delta chunk with
      | none => simp
      | some delta => exact decode_texts_unconcerned delta)
    have hstarted : Follows { self with started := true } cues _ := htexts.of_tools rfl
    have hclosed := ((hstarted.calls hcalls).close_choice hchunk).extend
      ((chunk_usage chunk).map (.usage <| parse_usage ·)).toList (by
        cases chunk_usage chunk <;> simp [concerns])
    unfold chunk_cues
    simpa only [List.append_assoc] using hclosed

/-- What one frame does to the calls. -/
theorem Follows.decode (h : Follows self cues events) {frame : SseFrame}
    (hcalls : ∀ call ∈ frame_calls serde frame, call_index call < TOOL_LIMIT) :
    Follows (self.decode serde frame).1 (cues ++ frame_cues serde frame) (events ++ (self.decode serde frame).2) := by
  cases hframe : marks_end frame with
  | true =>
    rw [(self.decode_state serde frame).2.2.2 hframe, frame_cues, if_pos hframe]
    have hdone : Follows { self with done := true } cues events := h.of_tools rfl
    have hclosed := hdone.close.extend [.done] (by simp [concerns])
    rwa [List.append_assoc] at hclosed
  | false =>
    rw [decode_eq frame hframe, frame_cues, if_neg (by simp [hframe])]
    cases hpayload : payload serde frame with
    | none => simpa using h
    | some chunk =>
      refine h.decode_chunk ?_
      intro call hcall
      refine hcalls call ?_
      rw [frame_calls, hpayload]
      exact hcall

theorem frame_cues_calls (serde : Serde) (frame : SseFrame) :
    (frame_cues serde frame).filterMap Cue.call = frame_calls serde frame := by
  unfold frame_cues frame_calls
  split
  next hframe =>
    have hnone : payload serde frame = none := by
      have hdata : trim frame.data = DONE_SENTINEL := by simpa [marks_end] using hframe
      simp [payload, hdata]
    rw [hnone]
    rfl
  next hframe =>
    cases payload serde frame with
    | none => rfl
    | some chunk =>
      have hcalls : ((chunk_calls chunk).map Cue.piece).filterMap Cue.call = chunk_calls chunk := by
        rw [List.filterMap_map]
        exact List.filterMap_some
      change (chunk_cues chunk).filterMap Cue.call = chunk_calls chunk
      rw [chunk_cues, List.filterMap_append, hcalls]
      split <;> simp [Cue.call]

end Decoder

section Runs

variable (serde : Serde)

/-- All pieces of tool calls that some frames carry. -/
def carried (frames : List SseFrame) : List Value := frames.flatMap (frame_calls serde)

/-- The cues of a whole stream. Its end is the last one. -/
def stream_cues (frames : List SseFrame) : List Cue := frames.flatMap (frame_cues serde) ++ [.close]

/-- The pieces of a call up to its start, inclusive. -/
def opening (ti : Nat) (frames : List SseFrame) : List Value := (announcement ti (stream_cues serde frames)).heard

variable {serde}

theorem follows_run {frames : List SseFrame} (hindex : ∀ call ∈ carried serde frames, call_index call < TOOL_LIMIT) :
    Follows ((stream_decoder serde).advance {} frames) (frames.flatMap (frame_cues serde)) ((stream_decoder serde).emit {} frames) := by
  let P (frames : List SseFrame) (events : List StreamEvent) (s : ChatStreamDecoder) : Prop :=
    (∀ call ∈ carried serde frames, call_index call < TOOL_LIMIT) → Follows s (frames.flatMap (frame_cues serde)) events
  refine Transducer.history (T := stream_decoder serde) (P := P) ?_ ?_ frames hindex
  · intro frames events s frame hfollows hindex
    rw [carried, List.flatMap_append, List.forall_mem_append] at hindex
    rw [stream_decoder_step, List.flatMap_append, List.flatMap_singleton]
    exact (hfollows hindex.1).decode (by simpa using hindex.2)
  · intro _
    refine ⟨Nat.zero_le _, fun ti _ => ?_⟩
    exact .waiting rfl rfl rfl rfl rfl rfl rfl

theorem stream_cues_pieces (ti : Nat) (frames : List SseFrame) :
    cue_pieces ti (stream_cues serde frames) = pieces_of ti (carried serde frames) := by
  rw [stream_cues, cue_pieces_concat_close, cue_pieces, carried, List.filterMap_flatMap]
  simp only [frame_cues_calls]

/-- A call that was heard of has started by the end of the stream. -/
theorem heard_of_not_started {ti : Nat} {frames : List SseFrame} (hwaits : (announcement ti (stream_cues serde frames)).started = false) :
    opening serde ti frames = [] := by
  unfold opening
  rw [stream_cues, announcement_concat] at hwaits ⊢
  change (if _ = [] then _ else _ : Announcement).started = false at hwaits
  change (if _ = [] then _ else _ : Announcement).heard = []
  split at hwaits
  next hnone => rw [if_pos hnone, hnone]
  next => cases hwaits

/-- What the events of a stream say of its tool calls: each has one start, first
    of all, and its arguments in full. -/
theorem Follows.reassembled {frames : List SseFrame} {events : List StreamEvent} {s : ChatStreamDecoder}
    (h : Follows s (stream_cues serde frames) events) {ti : Nat} (hti : ti < TOOL_LIMIT) :
    (pieces_of ti (carried serde frames) = [] → events.filter (concerns (tool_index ti)) = []) ∧
      (pieces_of ti (carried serde frames) ≠ [] → ∃ fragments, events.filter (concerns (tool_index ti)) =
          .toolCallStart (tool_index ti) (announced_id (opening serde ti frames)) (announced_name (opening serde ti frames)) none ::
            fragments.map (.toolCallArgsDelta (tool_index ti)) ∧
        String.join fragments = carried_args (pieces_of ti (carried serde frames))) := by
  have htracks := h.tracks ti hti
  rw [stream_cues_pieces] at htracks
  generalize hevents : events.filter (concerns (tool_index ti)) = written at htracks ⊢
  cases htracks with
  | waiting hstarted _ hheard =>
    have hnone : pieces_of ti (carried serde frames) = [] := hheard ▸ heard_of_not_started hstarted
    exact ⟨fun _ => rfl, fun hsome => absurd hnone hsome⟩
  | running fragments hpieces _ _ hargs => exact ⟨fun hnone => absurd hnone hpieces, fun _ => ⟨fragments, rfl, hargs⟩⟩

/-- The tool calls of a stream come out whole and in one piece each, whatever the
    order of their pieces, and before its end. -/
theorem tool_calls_reassembled {frames last : List SseFrame} (hframes : ∀ frame ∈ frames, marks_end frame = false)
    (hlast : last = [] ∨ ∃ frame, last = [frame] ∧ marks_end frame = true)
    (hindex : ∀ call ∈ carried serde frames, call_index call < TOOL_LIMIT) :
    EndsWith StreamEvent.is_done ((stream_decoder serde).outputs (frames ++ last)) ∧
      (∀ i j, i < TOOL_LIMIT → j < TOOL_LIMIT → i ≠ j → tool_index i ≠ tool_index j) ∧
      ∀ ti < TOOL_LIMIT,
        let events := ((stream_decoder serde).outputs (frames ++ last)).filter (concerns (tool_index ti))
        (pieces_of ti (carried serde frames) = [] → events = []) ∧
          (pieces_of ti (carried serde frames) ≠ [] → ∃ fragments, events =
              .toolCallStart (tool_index ti) (announced_id (opening serde ti frames)) (announced_name (opening serde ti frames)) none ::
                fragments.map (.toolCallArgsDelta (tool_index ti)) ∧
            String.join fragments = carried_args (pieces_of ti (carried serde frames))) := by
  have hrun := follows_run hindex
  have hcloses := stream_decoder_closes serde
  obtain ⟨hopen, hquiet⟩ := hcloses.run frames hframes
  have houtputs : (stream_decoder serde).outputs (frames ++ last) =
      (stream_decoder serde).emit {} frames ++ ((stream_decoder serde).advance {} frames).decode_done.2 := by
    rw [stream_decoder_init] at hopen
    rcases hlast with rfl | ⟨frame, rfl, hframe⟩
    · rw [List.append_nil, Transducer.outputs, stream_decoder_finish, stream_decoder_init, ChatStreamDecoder.finish]
      rw [if_neg (by simp [hopen])]
    · have hdone (s : ChatStreamDecoder) : (stream_decoder serde).step s frame = s.decode_done := by
        rw [stream_decoder_step]
        exact (s.decode_state serde frame).2.2.2 hframe
      rw [hcloses.outputs_eq hframes fun s _ => by rw [hdone]; rfl, hdone, Transducer.emit_nil, List.append_nil, stream_decoder_init]
  have hend : Follows ((stream_decoder serde).advance {} frames).decode_done.1 (stream_cues serde frames)
      ((stream_decoder serde).outputs (frames ++ last)) := by
    have hdone : Follows { (stream_decoder serde).advance {} frames with done := true } _ _ := hrun.of_tools rfl
    have hclosed := hdone.close.extend [.done] (by simp [concerns])
    rw [houtputs]
    rwa [List.append_assoc] at hclosed
  refine ⟨?_, fun i j hi hj hne heq => hne (tool_index_inj hi hj heq), fun ti hti => hend.reassembled hti⟩
  rw [houtputs]
  exact ((stream_decoder serde).advance {} frames).decode_done_endsWith.prepend hquiet

/-- A document is read as it was written. -/
theorem written_read (hserde : serde.Lawful) {v : Value} (hv : v.WellFormed) :
    marks_end (.ofData (serde.to_string v)) = false ∧ payload serde (.ofData (serde.to_string v)) = some v := by
  have hopen : serde.to_string v ≠ DONE_SENTINEL := hserde.to_string_ne_done hv
  rw [marks_end, payload, SseFrame.ofData_data, hserde.trim_to_string v hv]
  refine ⟨decide_eq_false hopen, ?_⟩
  rw [if_neg (not_or_intro (hserde.to_string_ne_empty hv) hopen), hserde.from_str_to_string v hv]

/-- A chunk with a piece of the first tool call. -/
def call_frame (call : Map) : SseFrame :=
  .ofData (Serde.compact.to_string (.object [("choices", .array [.object [("delta", .object [("tool_calls", .array [.object call])])]])]))

/-- A call whose id comes after its arguments. -/
def late_id : List SseFrame :=
  [call_frame [("index", .nat 0), ("function", .object [("name", .string "f"), ("arguments", .string "[]")])],
    call_frame [("index", .nat 0), ("id", .string "call_1")]]

theorem late_id_read :
    (∀ frame ∈ late_id, marks_end frame = false) ∧ carried Serde.compact late_id =
        [.object [("index", .nat 0), ("function", .object [("name", .string "f"), ("arguments", .string "[]")])],
          .object [("index", .nat 0), ("id", .string "call_1")]] ∧
      ((stream_decoder Serde.compact).outputs late_id).filter (concerns (tool_index 0)) =
        [.toolCallStart (tool_index 0) "" "f" none, .toolCallArgsDelta (tool_index 0) "[]"] := by
  have hread : ∀ call : Map, (Value.object call).WellFormed → marks_end (call_frame call) = false ∧
      payload Serde.compact (call_frame call) =
        some (.object [("choices", .array [.object [("delta", .object [("tool_calls", .array [.object call])])]])]) :=
    fun call hcall => written_read Serde.compact_lawful (by simpa using hcall)
  obtain ⟨hfirst, hpiece⟩ :=
    hread [("index", .nat 0), ("function", .object [("name", .string "f"), ("arguments", .string "[]")])] (by simp)
  obtain ⟨hsecond, hid⟩ := hread [("index", .nat 0), ("id", .string "call_1")] (by simp)
  refine ⟨?_, ?_, ?_⟩
  · intro frame hframe
    simp only [late_id, List.mem_cons, List.not_mem_nil, or_false] at hframe
    rcases hframe with rfl | rfl
    · exact hfirst
    · exact hsecond
  · rw [carried, late_id, List.flatMap_cons, List.flatMap_singleton, frame_calls, frame_calls, hpiece, hid]
    rfl
  · rw [Transducer.outputs, late_id, Transducer.emit_cons, Transducer.emit_cons, Transducer.advance_cons, Transducer.advance_cons,
      stream_decoder_step, decode_eq _ hfirst, decode_eq _ hsecond, hpiece, hid]
    rfl

theorem late_id_reassembled :
    EndsWith StreamEvent.is_done ((stream_decoder Serde.compact).outputs (late_id ++ [])) ∧
      (∀ i j, i < TOOL_LIMIT → j < TOOL_LIMIT → i ≠ j → tool_index i ≠ tool_index j) ∧
      ∀ ti < TOOL_LIMIT,
        let events := ((stream_decoder Serde.compact).outputs (late_id ++ [])).filter (concerns (tool_index ti))
        (pieces_of ti (carried Serde.compact late_id) = [] → events = []) ∧
          (pieces_of ti (carried Serde.compact late_id) ≠ [] → ∃ fragments, events =
              .toolCallStart (tool_index ti) (announced_id (opening Serde.compact ti late_id))
                  (announced_name (opening Serde.compact ti late_id)) none ::
                fragments.map (.toolCallArgsDelta (tool_index ti)) ∧
            String.join fragments = carried_args (pieces_of ti (carried Serde.compact late_id))) :=
  tool_calls_reassembled late_id_read.1 (.inl rfl) (by rw [late_id_read.2.1]; decide)

/-- A start does not wait for an id, so that one which comes late is lost. -/
theorem late_id_lost :
    ¬∀ frames : List SseFrame, (∀ frame ∈ frames, marks_end frame = false) →
      (∀ call ∈ carried Serde.compact frames, call_index call < TOOL_LIMIT) → ∀ ti < TOOL_LIMIT,
        pieces_of ti (carried Serde.compact frames) ≠ [] →
        ∃ fragments : List String, ((stream_decoder Serde.compact).outputs frames).filter (concerns (tool_index ti)) =
          .toolCallStart (tool_index ti) (announced_id (pieces_of ti (carried Serde.compact frames)))
              (announced_name (pieces_of ti (carried Serde.compact frames))) none ::
            fragments.map (.toolCallArgsDelta (tool_index ti)) := by
  intro hall
  obtain ⟨hopen, hcarried, houtputs⟩ := late_id_read
  obtain ⟨fragments, hevents⟩ := hall late_id hopen (by rw [hcarried]; decide) 0 (by decide) (by rw [hcarried]; decide)
  have hstart := congrArg List.head? hevents
  rw [houtputs, hcarried, List.head?_cons, List.head?_cons] at hstart
  exact absurd hstart (by decide)

end Runs

end refract.codec.chat
