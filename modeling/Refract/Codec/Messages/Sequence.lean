import Refract.Codec.Messages.Encoder
import Refract.Codec.Messages.Grammar
import Refract.Codec.Messages.Tracker

open refract.json refract.ir refract.machine refract.stream

namespace refract.codec.messages.MessagesStreamEncoder

section Tokens

variable {serde : Serde} (hserde : serde.Lawful)

include hserde

/-- A client reads a frame of the encoder as the event it was written for. -/
theorem token_frame {event : String} {map : Map}
    (hmap : (Value.object (("type", .string event) :: map)).WellFormed) :
    token serde (frame serde event map) = event_token event (.object (("type", .string event) :: map)) := by
  have htype : (Value.object (("type", .string event) :: map)).get_str "type" = some event := by simp
  simp only [token, frame, SseFrame.named_event, SseFrame.named_data,
    hserde.from_str_to_string _ hmap, htype, if_true]

theorem token_message_start (id model : String) (usage : Usage) :
    token serde (message_start_frame serde id model usage) = .messageStart := by
  rw [message_start_frame, token_frame hserde]
  · rfl
  · simp [encode_usage_wellFormed]

theorem token_block_start (index : Nat) {content_block : Map} (hblock : (Value.object content_block).WellFormed) :
    token serde (block_start_frame serde index content_block) = .blockStart index := by
  rw [block_start_frame, token_frame hserde]
  · rfl
  · simpa using hblock

theorem token_block_delta (index : Nat) {delta : Map} (hdelta : (Value.object delta).WellFormed) :
    token serde (block_delta_frame serde index delta) = .blockDelta index := by
  rw [block_delta_frame, token_frame hserde]
  · rfl
  · simpa using hdelta

theorem token_block_stop (index : Nat) : token serde (block_stop_frame serde index) = .blockStop index := by
  rw [block_stop_frame, token_frame hserde]
  · rfl
  · simp

theorem token_message_delta (reason : StopReason) (stop_sequence : Option String) (usage : Usage) :
    token serde (message_delta_frame serde reason stop_sequence usage) = .messageDelta := by
  rw [message_delta_frame, token_frame hserde]
  · rfl
  · cases stop_sequence <;> simp [encode_usage_wellFormed]

theorem token_message_stop : token serde (frame serde "message_stop" []) = .messageStop := by
  rw [token_frame hserde]
  · rfl
  · simp

theorem token_ping : token serde (frame serde "ping" []) = .ping := by
  rw [token_frame hserde]
  · rfl
  · simp

theorem token_error (message kind : String) : token serde (error_frame serde message kind) = .error := by
  rw [error_frame, token_frame hserde]
  · rfl
  · simp

end Tokens

theorem content_block_wellFormed (kind : PartKind) : (Value.object (content_block kind)).WellFormed := by
  cases kind <;> simp [content_block]

theorem tool_block_wellFormed (id name : String) :
    (Value.object [("type", .string "tool_use"), ("id", .string id), ("name", .string name),
      ("input", .object [])]).WellFormed := by
  simp

end refract.codec.messages.MessagesStreamEncoder

namespace refract.codec.messages

def start_token (started : Bool) : List Token := if started then [.messageStart] else []

/-- A block with the given number of deltas that is not closed yet. -/
def open_tokens : Option (Nat × Nat) → List Token
  | none => []
  | some (index, deltas) => .blockStart index :: List.replicate deltas (.blockDelta index)

/-- The tokens written so far are complete blocks and possibly an open one, for
    the openings the tracker has seen. -/
def Written (t : Tracker) (e : MessagesStreamEncoder) (tokens : List Token) : Prop :=
  ∃ closed current, tokens = start_token e.started ++ closed_blocks closed ++ open_tokens current ∧
    current.map Prod.fst = e.opened.map Prod.fst ∧
    closed.map Prod.fst ++ (current.map Prod.fst).toList = t.openings.map (t.mentions.idxOf ·)

/-- A running encoder numbers the mentioned indices in order, has the tracked
    block open, and has written the tracked openings. -/
structure Tracks (t : Tracker) (e : MessagesStreamEncoder) (tokens : List Token) : Prop where
  live : e.finished = false
  valid : t.Valid
  remap : e.remap = t.mentions.zipIdx
  next_index : e.next_index = t.mentions.length
  opened : e.opened = t.current.map fun b => (t.mentions.idxOf b.1, b.2)
  unstarted : e.started = false → t.openings = []
  written : Written t e tokens

namespace Tracks

open MessagesStreamEncoder

variable {serde : Serde} {t : Tracker} {e : MessagesStreamEncoder} {tokens : List Token}

/-- A change of other fields does not matter. -/
theorem congr (h : Tracks t e tokens) (other : MessagesStreamEncoder) (hfinished : other.finished = e.finished)
    (hremap : other.remap = e.remap) (hnext : other.next_index = e.next_index)
    (hopened : other.opened = e.opened) (hstarted : other.started = e.started) : Tracks t other tokens where
  live := hfinished.trans h.live
  valid := h.valid
  remap := hremap.trans h.remap
  next_index := hnext.trans h.next_index
  opened := hopened.trans h.opened
  unstarted hunstarted := h.unstarted (hstarted ▸ hunstarted)
  written := by
    obtain ⟨closed, current, htokens, hcurrent, hopenings⟩ := h.written
    exact ⟨closed, current, by rw [hstarted]; exact htokens, by rw [hopened]; exact hcurrent, hopenings⟩

theorem drawn (h : Tracks t e tokens) (drawn : Nat) : Tracks t { e with drawn } tokens :=
  h.congr { e with drawn } rfl rfl rfl rfl rfl

/-- Before the message starts nothing is written. -/
theorem tokens_of_unstarted (h : Tracks t e tokens) (hunstarted : e.started = false) : tokens = [] := by
  obtain ⟨closed, current, rfl, _, hopenings⟩ := h.written
  rw [h.unstarted hunstarted, List.map_nil, List.append_eq_nil_iff] at hopenings
  have hclosed : closed = [] := by simpa using hopenings.1
  have hcurrent : current = none := by simpa using hopenings.2
  simp [hunstarted, hclosed, hcurrent, start_token, closed_blocks, open_tokens]

section Start

variable (serde : Serde) (uuid : Nat → String) (e : MessagesStreamEncoder)

/-- What starting the message can do: nothing, or write its first frame. -/
theorem ensure_started_cases :
    (e.started = true ∧ e.ensure_started serde uuid = (e, [])) ∨
    (e.started = false ∧ ∃ id drawn, e.ensure_started serde uuid =
      ({ e with started := true, id, drawn }, [message_start_frame serde id e.model e.input_usage])) := by
  unfold ensure_started
  cases hstarted : e.started with
  | true => exact .inl ⟨rfl, rfl⟩
  | false =>
    refine .inr ⟨rfl, ?_⟩
    by_cases hid : e.id = ""
    · exact ⟨"msg_" ++ uuid e.drawn, e.drawn + 1, by simp [hid]⟩
    · exact ⟨e.id, e.drawn, by simp [hid]⟩

end Start

theorem ensure_started (uuid : Nat → String) (hserde : serde.Lawful) (h : Tracks t e tokens) :
    Tracks t (e.ensure_started serde uuid).1 (tokens ++ (e.ensure_started serde uuid).2.map (token serde)) ∧
      (e.ensure_started serde uuid).1.started = true := by
  obtain ⟨hstarted, heq⟩ | ⟨hunstarted, id, drawn, heq⟩ := ensure_started_cases serde uuid e
  · rw [heq, List.map_nil, List.append_nil]
    exact ⟨h, hstarted⟩
  · have htokens := h.tokens_of_unstarted hunstarted
    have hopenings := h.unstarted hunstarted
    rw [heq]
    refine ⟨⟨h.live, h.valid, h.remap, h.next_index, h.opened, by simp, ?_⟩, rfl⟩
    obtain ⟨closed, current, hwritten, hcurrent, hpositions⟩ := h.written
    refine ⟨closed, current, ?_, hcurrent, hpositions⟩
    rw [htokens, hunstarted] at hwritten
    simp only [start_token, Bool.false_eq_true, if_false, List.nil_append, if_true] at hwritten ⊢
    simp only [List.append_assoc, ← hwritten, htokens, List.map_cons, List.map_nil, token_message_start hserde,
      List.nil_append, List.append_nil]

/-- Asking for the written index of a block mentions it. -/
theorem anth_index (h : Tracks t e tokens) (index : Nat) :
    Tracks (t.mention index) (e.anth_index index).1 tokens ∧
      (e.anth_index index).2 = (t.mention index).mentions.idxOf index ∧
      (e.anth_index index).1.started = e.started := by
  have hlookup := lookup_zipIdx t.mentions index 0
  rw [← h.remap] at hlookup
  have hvalid := h.valid.mention index
  have hopened : e.opened = t.current.map fun b => ((note t.mentions index).idxOf b.1, b.2) := by
    rw [h.opened]
    cases hcurrent : t.current with
    | none => rfl
    | some b => simp [idxOf_note (h.valid.current b hcurrent)]
  have hpositions : t.openings.map ((note t.mentions index).idxOf ·) = t.openings.map (t.mentions.idxOf ·) :=
    List.map_congr_left fun i hi => idxOf_note (h.valid.openings i hi)
  have hwritten {other : MessagesStreamEncoder} (hstarted : other.started = e.started)
      (hopened : other.opened = e.opened) : Written (t.mention index) other tokens := by
    obtain ⟨closed, current, htokens, hcurrent, hopenings⟩ := h.written
    exact ⟨closed, current, hstarted ▸ htokens, hopened ▸ hcurrent, hopenings.trans hpositions.symm⟩
  by_cases hmem : index ∈ t.mentions
  · rw [if_pos hmem, Nat.zero_add] at hlookup
    have hnote : t.mention index = t := by simp [Tracker.mention, note_of_mem hmem]
    simp only [MessagesStreamEncoder.anth_index, hlookup]
    exact ⟨hnote.symm ▸ h, by rw [hnote], trivial⟩
  · rw [if_neg hmem] at hlookup
    simp only [MessagesStreamEncoder.anth_index, hlookup]
    refine ⟨⟨h.live, hvalid, ?_, ?_, hopened, h.unstarted, hwritten rfl rfl⟩, ?_, trivial⟩
    · simp only [Tracker.mention, zipIdx_note hmem, h.remap, h.next_index]
    · simp [Tracker.mention, note_of_not_mem hmem, h.next_index]
    · rw [Tracker.mention, idxOf_note_self hmem, h.next_index]

theorem close_open (hserde : serde.Lawful) (h : Tracks t e tokens) :
    Tracks t.close (e.close_open serde).1 (tokens ++ (e.close_open serde).2.map (token serde)) ∧
      (e.close_open serde).1.started = e.started ∧ (e.close_open serde).1.opened = none := by
  obtain ⟨closed, current, htokens, hcurrent, hopenings⟩ := h.written
  unfold MessagesStreamEncoder.close_open
  cases hopened : e.opened with
  | none =>
    have hnone : t.current = none := by
      have := h.opened
      rw [hopened] at this
      simpa using this.symm
    have hclose : t.close = t := by
      cases t
      simp_all [Tracker.close]
    simp only [hclose, List.map_nil, List.append_nil]
    exact ⟨h, trivial, hopened⟩
  | some b =>
    obtain ⟨index, kind⟩ := b
    obtain ⟨deltas, rfl⟩ : ∃ deltas, current = some (index, deltas) := by
      rw [hopened] at hcurrent
      cases current with
      | none => cases hcurrent
      | some c => exact ⟨c.2, by simp at hcurrent; rw [← hcurrent]⟩
    refine ⟨⟨h.live, h.valid.close, h.remap, h.next_index, rfl, h.unstarted, ?_⟩, rfl, rfl⟩
    refine ⟨closed ++ [(index, deltas)], none, ?_, rfl, ?_⟩
    · simp [htokens, closed_blocks, open_tokens, block, token_block_stop hserde]
    · simpa [Tracker.close] using hopenings

/-- With no block open, a mentioned one can be opened. -/
theorem start_block (hserde : serde.Lawful) (h : Tracks t e tokens) (hstarted : e.started = true)
    (hopened : e.opened = none) {index : Nat} (hindex : index ∈ t.mentions) (kind : PartKind)
    {content_block : Map} (hblock : (Value.object content_block).WellFormed) :
    Tracks (t.openAs index kind) { e with opened := some (t.mentions.idxOf index, kind) }
      (tokens ++ [token serde (block_start_frame serde (t.mentions.idxOf index) content_block)]) := by
  obtain ⟨closed, current, htokens, hcurrent, hopenings⟩ := h.written
  have hnone : current = none := by
    rw [hopened] at hcurrent
    simpa using hcurrent
  subst hnone
  refine ⟨h.live, h.valid.openAs hindex kind, h.remap, h.next_index, rfl, by simp [hstarted], ?_⟩
  refine ⟨closed, some (t.mentions.idxOf index, 0), ?_, rfl, ?_⟩
  · simp [htokens, open_tokens, token_block_start hserde _ hblock]
  · simpa [Tracker.openAs] using hopenings

/-- A delta goes to the block that is open. -/
theorem delta (hserde : serde.Lawful) (h : Tracks t e tokens) {index : Nat} {kind : PartKind}
    (hcurrent : t.current = some (index, kind)) {delta : Map} (hdelta : (Value.object delta).WellFormed) :
    Tracks t e (tokens ++ [token serde (block_delta_frame serde (t.mentions.idxOf index) delta)]) := by
  obtain ⟨closed, current, htokens, hopened, hopenings⟩ := h.written
  obtain ⟨deltas, rfl⟩ : ∃ deltas, current = some (t.mentions.idxOf index, deltas) := by
    rw [h.opened, hcurrent] at hopened
    cases current with
    | none => cases hopened
    | some c => exact ⟨c.2, by simp at hopened; rw [← hopened]⟩
  refine ⟨h.live, h.valid, h.remap, h.next_index, h.opened, h.unstarted, ?_⟩
  refine ⟨closed, some (t.mentions.idxOf index, deltas + 1), ?_, hopened, hopenings⟩
  simp [htokens, open_tokens, token_block_delta hserde _ hdelta, List.replicate_succ']

end Tracks

end refract.codec.messages
