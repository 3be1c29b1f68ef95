import Mathlib.Data.List.ReduceOption
import Refract.Codec.Responses.Steps
import Refract.Machine.Ending

open refract.json refract.ir refract.machine refract.stream

namespace refract.codec.responses

/-- The frames of a stream, numbered from some number on. -/
def numbered (serde : Serde) (first : Nat) (notices : List Notice) : List SseFrame :=
  (notices.zipIdx first).map fun (notice, seq) =>
    .named notice.1 <| serde.to_string <| .object <|
      notice.2 ++ [("type", .string notice.1), ("sequence_number", .nat seq)]

/-- The frames that open a stream. -/
def opening (response : Value) : List Notice :=
  [("response.created", [("response", response)]), ("response.in_progress", [("response", response)])]

/-- The events of which one ends a stream. -/
def ending_events : List String := ["response.completed", "response.incomplete", "response.failed", "error"]

/-- The event opens a stream that is not open yet. -/
def opens : StreamEvent → Bool
  | .contentStop _ | .usage _ | .stop _ _ | .ping => false
  | _ => true

/-- The frames of a stream that has ended: those that open it, those about its items, and the one
    that ends it. -/
structure Framed (count : Nat) (stories : Nat → Story) (last : Notice) (told : List Notice) : Prop where
  frames : ∃ response middle, told = opening response ++ middle ++ [last] ∧ Items count stories middle
  /-- No other frame ends the stream. -/
  ends : EndsWith (fun notice => decide (notice.1 ∈ ending_events)) told

/-- Every item is closed before the stream ends, and the final response has the items as they
    were told. -/
def Complete (told : List Notice) : Prop :=
  ∃ count stories status final, Framed count stories (ResponsesStreamEncoder.terminal_event status, [("response", final)]) told ∧
    (∀ index < count, (stories index).closed = true) ∧
    final.get "output" = some (.array ((List.range count).map fun index => (stories index).block.item))

/-- The stream ends with an error. -/
def Failed (told : List Notice) : Prop := ∃ count stories payload, Framed count stories ("error", payload) told

section Frames

variable {serde : Serde} {count : Nat} {stories : Nat → Story} {middle : List Notice} {last : Notice}

@[simp] theorem numbered_nil (first : Nat) : numbered serde first [] = [] := rfl

theorem numbered_append (first : Nat) (told more : List Notice) :
    numbered serde first (told ++ more) = numbered serde first told ++ numbered serde (first + told.length) more := by
  simp only [numbered, List.zipIdx_append, List.map_append]

theorem emit_eq (self : ResponsesStreamEncoder) (notices : List Notice) :
    self.emit serde notices = ({ self with seq := self.seq + notices.length }, numbered serde self.seq notices) := rfl

/-- No frame about an item ends the stream. -/
theorem Story.notices_not_ending (story : Story) : ∀ notice ∈ story.notices, notice.1 ∉ ending_events := by
  have hannouncement : ∀ notice ∈ story.first.announcement, notice.1 ∉ ending_events := by
    unfold OpenBlock.announcement ending_events
    cases story.first.kind <;> simp
  have hdelta : ∀ text, (story.first.delta text).1 ∉ ending_events := by
    unfold OpenBlock.delta ending_events
    cases story.first.kind <;> simp
  have hclosing : ∀ notice ∈ story.block.closing ++ [story.block.item_done], notice.1 ∉ ending_events := by
    unfold OpenBlock.closing OpenBlock.item_done ending_events
    cases story.block.kind <;> simp
  intro notice hnotice
  unfold Story.notices at hnotice
  split at hnotice
  · rcases List.mem_append.mp hnotice with hopen | hclosed
    · rcases List.mem_append.mp hopen with hannounced | hmapped
      · exact hannouncement notice hannounced
      · obtain ⟨text, -, rfl⟩ := List.mem_map.mp hmapped
        exact hdelta text
    · split at hclosed
      · exact hclosing notice hclosed
      · cases hclosed
  · cases hnotice

theorem Items.not_ending (h : Items count stories middle) : ∀ notice ∈ middle, notice.1 ∉ ending_events := by
  intro notice hnotice
  obtain ⟨index, hlt, hitem⟩ := h.about notice hnotice
  have hmem : notice ∈ middle.filter (item_of · = some index) := List.mem_filter.mpr ⟨hnotice, decide_eq_true hitem⟩
  rw [h.told index hlt] at hmem
  exact (stories index).notices_not_ending notice hmem

theorem Items.framed (h : Items count stories middle) (response : Value) (hlast : last.1 ∈ ending_events) :
    Framed count stories last (opening response ++ middle ++ [last]) where
  frames := ⟨response, middle, rfl, h⟩
  ends := by
    have hends : EndsWith (fun notice : Notice => decide (notice.1 ∈ ending_events)) [last] := .singleton (decide_eq_true hlast)
    refine hends.prepend ?_
    intro notice hnotice
    refine decide_eq_false ?_
    rcases List.mem_append.mp hnotice with hopening | hmiddle
    · unfold opening at hopening
      unfold ending_events
      rcases List.mem_pair.mp hopening with rfl | rfl <;> simp
    · exact h.not_ending notice hmiddle

theorem terminal_event_ends (status : String) : ResponsesStreamEncoder.terminal_event status ∈ ending_events := by
  unfold ResponsesStreamEncoder.terminal_event ending_events
  split <;> simp

end Frames

namespace ResponsesStreamEncoder

variable {self : ResponsesStreamEncoder} {told : List Notice} {stories : Nat → Story} {middle : List Notice} (uuid : String) (now : Int)

section Closing

/-- Closing blocks one after another. -/
theorem closings_continue (self : ResponsesStreamEncoder) (indices : List Nat) :
    Continues self (closings.advance self indices, closings.emit self indices) := by
  induction indices generalizing self with
  | nil => exact .refl self
  | cons index indices ih =>
    rw [Transducer.advance_cons, Transducer.emit_cons]
    exact (self.close_block_continues index).append (ih (self.close_block index).1)

theorem lookup_closings (self : ResponsesStreamEncoder) (indices : List Nat) (i : Nat) :
    (closings.advance self indices).blocks.lookup i = if i ∈ indices then none else self.blocks.lookup i := by
  induction indices generalizing self with
  | nil => rfl
  | cons index indices ih =>
    have hclosed := self.lookup_close_block index i
    rw [Transducer.advance_cons, ih, show (closings.step self index).1 = (self.close_block index).1 from rfl, hclosed]
    by_cases hi : i = index
    · simp [hi]
    · simp [hi]

theorem lookup_close_all (self : ResponsesStreamEncoder) (i : Nat) : self.close_all.1.blocks.lookup i = none := by
  refine (self.lookup_closings _ i).trans ?_
  split
  next => rfl
  next hnot => exact OrderedMap.lookup_eq_none_of_not_mem hnot

theorem reduceOption_map_some (values : List Value) : (values.map some).reduceOption = values := by
  induction values with
  | nil => rfl
  | cons value values ih => rw [List.map_cons, List.reduceOption_cons_of_some, ih]

/-- What is read of a vector is what it holds. -/
theorem reduceOption_of_slots {count : Nat} {items : List (Option Value)} {f : Nat → Value} (hroom : items.length ≤ count)
    (hslots : ∀ index < count, slot items index = some (f index)) : items.reduceOption = (List.range count).map f := by
  have hitems : items = (List.range count).map fun index => some (f index) := by
    apply List.ext_getElem?
    intro index
    rw [List.getElem?_map]
    by_cases hindex : index < count
    · have hslot := hslots index hindex
      rw [List.getElem?_range hindex, Option.map_some]
      unfold slot at hslot
      cases hget : items[index]? with
      | none =>
        rw [hget] at hslot
        cases hslot
      | some item =>
        rw [hget] at hslot
        exact congrArg some hslot
    · rw [List.getElem?_eq_none (hroom.trans (not_lt.mp hindex)), List.getElem?_eq_none (by simpa using hindex)]
      rfl
  rw [hitems, ← reduceOption_map_some ((List.range count).map f), List.map_map]
  rfl

theorem snapshot_output (self : ResponsesStreamEncoder) (status : String) :
    (self.snapshot status true).get "output" = some (.array self.items.reduceOption) := by
  simp [snapshot, List.lookup_cons]

/-- A stream that is ended has all its items closed. -/
theorem close_all_complete (h : Steady self stories middle) (reason : Option StopReason) (response : Value) :
    Complete (opening response ++ (middle ++ self.close_all.2) ++
      [(terminal_event (status_str (reason.getD .stop)),
        [("response", { self.close_all.1 with finished := true }.snapshot (status_str (reason.getD .stop)) true)])]) := by
  have hclosings := self.closings_continue (self.blocks.map Prod.fst)
  obtain ⟨more, hmore⟩ := hclosings.steady stories middle h
  have hclosed : ∀ index < self.close_all.1.next_output_index, (more index).closed = true := by
    intro index hindex
    by_contra hopen
    obtain ⟨i, hi⟩ := hmore.tells.unfinished index hindex (Bool.eq_false_iff.mpr hopen)
    cases (self.lookup_close_all i).symm.trans hi
  refine ⟨self.close_all.1.next_output_index, more, _, _, hmore.tells.toItems.framed response (terminal_event_ends _), hclosed, ?_⟩
  rw [snapshot_output]
  refine congrArg (some ∘ Value.array) (reduceOption_of_slots hmore.tells.room ?_)
  intro index hindex
  exact (hmore.tells.finished index hindex).trans (if_pos (hclosed index hindex))

end Closing

section Progress

/-- The story of an item that is not there. -/
def no_story : Story where
  first := { output_index := 0, item_id := "", kind := .text }
  block := { output_index := 0, item_id := "", kind := .text }

/-- What the client was told of a stream that has not ended. -/
inductive Progress (self : ResponsesStreamEncoder) : List Notice → Prop
  | idle (hstarted : self.started = false) (hnext : self.next_output_index = 0) (hblocks : self.blocks = []) (hitems : self.items = []) :
    Progress self []
  | underway (hstarted : self.started = true) (response : Value) (stories : Nat → Story) (middle : List Notice)
    (h : Steady self stories middle) : Progress self (opening response ++ middle)

/-- Opening a stream once. -/
theorem ensure_started_progress (h : Progress self told) :
    (self.ensure_started uuid now).1.started = true ∧ (self.ensure_started uuid now).1.seq = self.seq ∧
      (self.ensure_started uuid now).1.finished = self.finished ∧
      ∃ response stories middle, told ++ (self.ensure_started uuid now).2 = opening response ++ middle ∧
        Steady (self.ensure_started uuid now).1 stories middle := by
  unfold ensure_started
  cases h with
  | idle hstarted hnext hblocks hitems =>
    rw [hstarted]
    refine ⟨rfl, rfl, rfl, _, fun _ => no_story, [], rfl, ?_, ?_⟩
    · dsimp only [Bool.false_eq_true, if_false]
      rw [hnext, hblocks, hitems]
      exact Tells.init _
    · intro i block hblock
      dsimp only [Bool.false_eq_true, if_false] at hblock
      rw [hblocks] at hblock
      cases hblock
  | underway hstarted response stories middle h =>
    rw [if_pos hstarted]
    exact ⟨hstarted, rfl, rfl, response, stories, middle, List.append_nil _, h⟩

theorem ensure_started_idem (self : ResponsesStreamEncoder) :
    (self.ensure_started uuid now).1.ensure_started uuid now = ((self.ensure_started uuid now).1, []) := by
  have hstarted : (self.ensure_started uuid now).1.started = true := by
    unfold ensure_started
    split
    next hstarted => exact hstarted
    next => rfl
  exact ensure_started_of_started hstarted uuid now

/-- A block is ensured in a stream that is opened first. -/
theorem ensure_block_eq (self : ResponsesStreamEncoder) (index : Nat) (kind : PartKind) :
    self.ensure_block uuid now index kind =
      (((self.ensure_started uuid now).1.ensure_block uuid now index kind).1,
        (self.ensure_started uuid now).2 ++ ((self.ensure_started uuid now).1.ensure_block uuid now index kind).2) := by
  rw [ensure_block, ensure_block, ensure_started_idem]
  dsimp only
  split
  · rfl
  · split
    · exact congrArg (Prod.mk _) (List.append_nil _).symm
    · exact congrArg (Prod.mk _) (List.append_assoc _ _ _)

/-- An event that comes first is told as one that comes after the opening of the stream. -/
theorem notices_eq_of_opens {event : StreamEvent} (hopens : opens event = true) (hlive : event.is_terminal = false)
    (hstart : ∀ id model usage, event ≠ .start id model usage) :
    self.notices uuid now event =
      (((self.ensure_started uuid now).1.notices uuid now event).1,
        (self.ensure_started uuid now).2 ++ ((self.ensure_started uuid now).1.notices uuid now event).2) := by
  cases event with
  | start id model usage => exact absurd rfl (hstart id model usage)
  | contentStart index kind => exact ensure_block_eq uuid now self index kind
  | textDelta index text =>
    unfold notices write_text
    dsimp only
    rw [ensure_block_eq]
    exact congrArg (Prod.mk _) (List.append_assoc _ _ _)
  | refusalDelta index text =>
    unfold notices write_text
    dsimp only
    rw [ensure_block_eq]
    exact congrArg (Prod.mk _) (List.append_assoc _ _ _)
  | thinkingDelta index text =>
    unfold notices write_text
    dsimp only
    rw [ensure_block_eq]
    exact congrArg (Prod.mk _) (List.append_assoc _ _ _)
  | thinkingSignature index signature =>
    unfold notices write_signature
    dsimp only
    rw [ensure_block_eq]
    dsimp only
    split <;> rfl
  | toolCallStart index id name signature =>
    unfold notices start_call
    dsimp only
    rw [ensure_block_eq]
    exact congrArg (Prod.mk _) (List.append_assoc _ _ _)
  | toolCallArgsDelta index fragment =>
    unfold notices write_fragment
    dsimp only
    rw [ensure_block_eq]
    refine congrArg (Prod.mk _) ?_
    rw [List.append_assoc, List.append_assoc, List.append_assoc]
  | contentStop index => cases hopens
  | usage usage => cases hopens
  | stop reason stop_sequence => cases hopens
  | done => cases hlive
  | error message kind => cases hlive
  | ping => cases hopens

/-- An event that does not end the stream, in a stream that has not ended. -/
structure Proceeds (encoder : ResponsesStreamEncoder) (told : List Notice) (event : StreamEvent)
    (step : ResponsesStreamEncoder × List Notice) : Prop where
  seq : step.1.seq = encoder.seq
  finished : step.1.finished = encoder.finished
  started : step.1.started = (encoder.started || opens event)
  progress : Progress step.1 (told ++ step.2)

theorem Continues.proceeds {step : ResponsesStreamEncoder × List Notice} {event : StreamEvent} {response : Value}
    (h : Continues self step) (hstarted : self.started = true) (hsteady : Steady self stories middle) :
    Proceeds self (opening response ++ middle) event step := by
  have hstarted' : step.1.started = true := h.started.trans hstarted
  obtain ⟨more, hmore⟩ := h.steady stories middle hsteady
  refine ⟨h.seq, h.finished, by rw [hstarted', hstarted, Bool.true_or], ?_⟩
  rw [List.append_assoc]
  exact .underway hstarted' response more _ hmore

theorem notices_proceeds {event : StreamEvent} (hlive : event.is_terminal = false) (h : Progress self told) :
    Proceeds self told event (self.notices uuid now event) := by
  cases h with
  | underway hstarted response stories middle h => exact (notices_continues uuid now hstarted hlive).proceeds hstarted h
  | idle hstarted hnext hblocks hitems =>
    have hidle : Progress self [] := .idle hstarted hnext hblocks hitems
    by_cases hopens : opens event = true
    · by_cases hstart : ∃ id model usage, event = .start id model usage
      · obtain ⟨id, model, usage, rfl⟩ := hstart
        let named : ResponsesStreamEncoder := { self with
          id := if id = "" then self.id else id
          model := if model = "" then self.model else model
          usage := (usage.map self.usage.merge_max).getD self.usage }
        have hnamed : Progress named [] := .idle hstarted hnext hblocks hitems
        obtain ⟨hopened, hseq, hfinished, response, stories, middle, htold, hsteady⟩ := ensure_started_progress uuid now hnamed
        rw [show self.notices uuid now (.start id model usage) = named.ensure_started uuid now from rfl]
        refine ⟨hseq, hfinished, by rw [hopened, hopens, Bool.or_true], ?_⟩
        rw [htold]
        exact .underway hopened response stories middle hsteady
      · obtain ⟨hopened, hseq, hfinished, response, stories, middle, htold, hsteady⟩ := ensure_started_progress uuid now hidle
        have hproceeds : Proceeds _ (opening response ++ middle) event _ :=
          (notices_continues uuid now hopened hlive).proceeds hopened hsteady
        rw [notices_eq_of_opens uuid now hopens hlive fun id model usage heq => hstart ⟨id, model, usage, heq⟩]
        refine ⟨hproceeds.seq.trans hseq, hproceeds.finished.trans hfinished, ?_, ?_⟩
        · rw [hproceeds.started, hopened, hopens, Bool.true_or, Bool.or_true]
        · rw [← List.append_assoc, htold]
          exact hproceeds.progress
    · have hquiet : opens event = false := Bool.eq_false_iff.mpr hopens
      cases event with
      | contentStop index =>
        have hstep : self.notices uuid now (.contentStop index) = (self, []) := by
          unfold notices close_block announce
          rw [hblocks]
          dsimp only [List.lookup_nil]
          rw [hblocks]
          rfl
        rw [hstep]
        exact ⟨rfl, rfl, by rw [hquiet, Bool.or_false], hidle⟩
      | usage usage => exact ⟨rfl, rfl, by rw [hquiet, Bool.or_false]; rfl, .idle hstarted hnext hblocks hitems⟩
      | stop reason stop_sequence => exact ⟨rfl, rfl, by rw [hquiet, Bool.or_false]; rfl, .idle hstarted hnext hblocks hitems⟩
      | ping => exact ⟨rfl, rfl, by rw [hquiet, Bool.or_false]; rfl, hidle⟩
      | _ => exact absurd rfl hopens

end Progress

section Ending

theorem terminate_complete (h : Progress self told) (hlive : self.finished = false) :
    (self.terminate uuid now).1.finished = true ∧ (self.terminate uuid now).1.seq = self.seq ∧ Complete (told ++ (self.terminate uuid now).2) := by
  obtain ⟨hopened, hseq, hfinished, response, stories, middle, htold, hsteady⟩ := ensure_started_progress uuid now h
  unfold terminate
  rw [hlive, if_neg (by decide)]
  generalize self.ensure_started uuid now = started at hopened hseq hfinished htold hsteady
  obtain ⟨encoder, notices⟩ := started
  dsimp only at hopened hseq hfinished htold hsteady ⊢
  refine ⟨rfl, ?_, ?_⟩
  · exact (encoder.closings_continue (encoder.blocks.map Prod.fst)).seq.trans hseq
  · rw [← List.append_assoc, ← List.append_assoc, htold, List.append_assoc (opening response)]
    exact close_all_complete hsteady encoder.close_all.1.stop_reason response

theorem error_failed (h : Progress self told) (message kind : String) :
    (self.notices uuid now (.error message kind)).1.finished = true ∧ (self.notices uuid now (.error message kind)).1.seq = self.seq ∧
      Failed (told ++ (self.notices uuid now (.error message kind)).2) := by
  obtain ⟨hopened, hseq, hfinished, response, stories, middle, htold, hsteady⟩ := ensure_started_progress uuid now h
  unfold notices
  generalize self.ensure_started uuid now = started at hopened hseq hfinished htold hsteady
  obtain ⟨encoder, notices⟩ := started
  dsimp only at hopened hseq hfinished htold hsteady ⊢
  refine ⟨rfl, hseq, ?_⟩
  rw [← List.append_assoc, htold]
  have hends : "error" ∈ ending_events := by simp [ending_events]
  exact ⟨_, _, _, hsteady.tells.toItems.framed response hends⟩

end Ending

/-- How far a stream has come with its events. -/
inductive Stage (events : List StreamEvent) (self : ResponsesStreamEncoder) (told : List Notice) : Prop
  | live (hnone : events.find? StreamEvent.is_terminal = none) (hfinished : self.finished = false)
    (hstarted : self.started = events.any opens) (h : Progress self told)
  | complete (hdone : events.find? StreamEvent.is_terminal = some .done) (hfinished : self.finished = true) (h : Complete told)
  | failed (message kind : String) (herror : events.find? StreamEvent.is_terminal = some (.error message kind))
    (hfinished : self.finished = true) (h : Failed told)

/-- The numbers of the frames say nothing of the stream. -/
theorem Stage.renumber {events : List StreamEvent} (h : Stage events self told) (seq : Nat) : Stage events { self with seq } told := by
  cases h with
  | complete hdone hfinished h => exact .complete hdone hfinished h
  | failed message kind herror hfinished h => exact .failed message kind herror hfinished h
  | live hnone hfinished hstarted h =>
    refine .live hnone hfinished hstarted ?_
    cases h with
    | idle hstarted hnext hblocks hitems => exact @Progress.idle { self with seq } hstarted hnext hblocks hitems
    | underway hstarted response stories middle h => exact @Progress.underway { self with seq } hstarted response stories middle ⟨h.tells, h.loud⟩

theorem Stage.encode {events : List StreamEvent} (h : Stage events self told) (event : StreamEvent) :
    ∃ step : ResponsesStreamEncoder × List Notice, step.1.seq = self.seq ∧ Stage (events ++ [event]) step.1 (told ++ step.2) ∧
      ∀ serde, self.encode serde uuid now event = step.1.emit serde step.2 := by
  have hended : self.finished = true → ∀ serde, self.encode serde uuid now event = self.emit serde [] := by
    intro hfinished serde
    exact if_pos hfinished
  cases h with
  | complete hdone hfinished h =>
    refine ⟨(self, []), rfl, .complete ?_ hfinished (by rwa [List.append_nil]), hended hfinished⟩
    rw [List.find?_append, hdone]
    rfl
  | failed message kind herror hfinished h =>
    refine ⟨(self, []), rfl, .failed message kind ?_ hfinished (by rwa [List.append_nil]), hended hfinished⟩
    rw [List.find?_append, herror]
    rfl
  | live hnone hfinished hstarted h =>
    have hencode : ∀ serde, self.encode serde uuid now event = (self.notices uuid now event).1.emit serde (self.notices uuid now event).2 := by
      intro serde
      unfold ResponsesStreamEncoder.encode
      rw [hfinished]
      rfl
    have hfind : (events ++ [event]).find? StreamEvent.is_terminal = [event].find? StreamEvent.is_terminal := by
      rw [List.find?_append, hnone, Option.none_or]
    by_cases hlive : event.is_terminal = false
    · have hproceeds := notices_proceeds uuid now hlive h
      refine ⟨_, hproceeds.seq, .live ?_ (hproceeds.finished.trans hfinished) ?_ hproceeds.progress, hencode⟩
      · rw [hfind, List.find?_cons_of_neg (by rw [hlive]; decide)]
        rfl
      · rw [hproceeds.started, hstarted, List.any_append]
        simp
    · cases event with
      | done =>
        obtain ⟨hfinished', hseq, hcomplete⟩ := terminate_complete uuid now h hfinished
        exact ⟨_, hseq, .complete hfind hfinished' hcomplete, hencode⟩
      | error message kind =>
        obtain ⟨hfinished', hseq, hfailed⟩ := error_failed uuid now h message kind
        exact ⟨_, hseq, .failed message kind hfind hfinished' hfailed, hencode⟩
      | _ => exact absurd rfl hlive

end ResponsesStreamEncoder

open ResponsesStreamEncoder

/-- The frames of a stream are numbered from zero on, and tell of it in the order that the protocol asks
    for: a stream that is opened and does not end with an error tells every item from its beginning to its end,
    and closes with all of them. -/
theorem stream_encoder_protocol (serde : Serde) (uuid : String) (now : Int) (events : List StreamEvent) :
    ∃ told, (stream_encoder serde uuid now).outputs events = numbered serde 0 told ∧
      (events.any opens = false → told = []) ∧
      ((events.find? StreamEvent.is_terminal).any StreamEvent.is_error = true → Failed told) ∧
      (events.any opens = true → (events.find? StreamEvent.is_terminal).any StreamEvent.is_error = false → Complete told) := by
  have hrun := Transducer.history (T := stream_encoder serde uuid now)
    (P := fun events frames self => ∃ told, frames = numbered serde 0 told ∧ self.seq = told.length ∧ Stage events self told) ?_
    (s := {}) ⟨[], rfl, rfl, .live rfl rfl rfl (.idle rfl rfl rfl rfl)⟩ events
  · obtain ⟨told, hframes, hseq, hstage⟩ := hrun
    unfold Transducer.outputs
    rw [show (stream_encoder serde uuid now).init = {} from rfl, hframes]
    generalize (stream_encoder serde uuid now).advance {} events = self at hseq hstage
    rw [show (stream_encoder serde uuid now).finish self = self.finish serde uuid now from rfl, ResponsesStreamEncoder.finish]
    cases hstage with
    | complete hdone hfinished h =>
      refine ⟨told, ?_, ?_, ?_, fun _ _ => h⟩
      · rw [hfinished]
        exact List.append_nil _
      · intro hquiet
        have hopens := List.any_eq_false.mp hquiet _ (List.mem_of_find?_eq_some hdone)
        exact absurd rfl hopens
      · intro herror
        rw [hdone] at herror
        cases herror
    | failed message kind herror hfinished h =>
      refine ⟨told, ?_, ?_, fun _ => h, ?_⟩
      · rw [hfinished]
        exact List.append_nil _
      · intro hquiet
        have hopens := List.any_eq_false.mp hquiet _ (List.mem_of_find?_eq_some herror)
        exact absurd rfl hopens
      · intro _ hdone
        rw [herror] at hdone
        cases hdone
    | live hnone hfinished hstarted h =>
      by_cases hopened : self.started = true
      · obtain ⟨-, hsame, hcomplete⟩ := terminate_complete uuid now h hfinished
        refine ⟨told ++ (self.terminate uuid now).2, ?_, ?_, ?_, fun _ _ => hcomplete⟩
        · have hframes : ((self.terminate uuid now).1.emit serde (self.terminate uuid now).2).2 =
              numbered serde self.seq (self.terminate uuid now).2 := by rw [emit_eq, hsame]
          rw [hfinished, hopened, numbered_append, Nat.zero_add, ← hseq, ← hframes]
          rfl
        · intro hquiet
          rw [← hstarted, hopened] at hquiet
          cases hquiet
        · intro herror
          rw [hnone] at herror
          cases herror
      · have hidle : told = [] := by
          cases h with
          | idle => rfl
          | underway hstarted' => exact absurd hstarted' hopened
        refine ⟨told, ?_, fun _ => hidle, ?_, ?_⟩
        · rw [Bool.eq_false_iff.mpr hopened, Bool.and_false]
          exact List.append_nil _
        · intro herror
          rw [hnone] at herror
          cases herror
        · intro hany
          exact absurd (hstarted.trans hany) hopened
  · rintro events frames self event ⟨told, hframes, hseq, hstage⟩
    obtain ⟨step, hseq', hstage', hencode⟩ := hstage.encode uuid now event
    rw [show (stream_encoder serde uuid now).step self event = self.encode serde uuid now event from rfl, hencode serde, emit_eq]
    refine ⟨told ++ step.2, ?_, ?_, ?_⟩
    · rw [hframes, numbered_append, Nat.zero_add, hseq', hseq]
    · rw [hseq', hseq, List.length_append]
    · exact hstage'.renumber _

/-- Where no event opens the stream, nothing ends it. -/
theorem unopened_stream_not_ended :
    ¬ ∃ told, (stream_encoder ⟨fun _ => none, fun _ => ""⟩ "0" 0).outputs [.ping] = numbered ⟨fun _ => none, fun _ => ""⟩ 0 told ∧
      EndsWith (fun notice => decide (notice.1 ∈ ending_events)) told := by
  rintro ⟨told, houtputs, others, last, rfl, -, -⟩
  have hnone : (stream_encoder ⟨fun _ => none, fun _ => ""⟩ "0" 0).outputs [.ping] = [] := rfl
  have hlength := congrArg List.length (hnone.symm.trans houtputs)
  simp [numbered] at hlength

end refract.codec.responses
