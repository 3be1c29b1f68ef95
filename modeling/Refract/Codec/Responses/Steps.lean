import Refract.Codec.Responses.Story

open refract.json refract.ir refract.machine refract.stream

namespace refract.codec.responses.ResponsesStreamEncoder

/-- What the client was told of the items, as the encoder knows them. All but the calls are announced
    as soon as they are there. -/
structure Steady (encoder : ResponsesStreamEncoder) (stories : Nat → Story) (middle : List Notice) : Prop where
  tells : Tells encoder.next_output_index encoder.blocks encoder.items stories middle
  loud : ∀ i block, encoder.blocks.lookup i = some block → block.kind ≠ .toolUse → block.announced = true

/-- A step tells more of the items, and leaves alone what else there is. -/
structure Continues (encoder : ResponsesStreamEncoder) (step : ResponsesStreamEncoder × List Notice) : Prop where
  seq : step.1.seq = encoder.seq
  started : step.1.started = encoder.started
  finished : step.1.finished = encoder.finished
  steady : ∀ stories middle, Steady encoder stories middle → ∃ more, Steady step.1 more (middle ++ step.2)

variable {self : ResponsesStreamEncoder} {step next : ResponsesStreamEncoder × List Notice} {index i : Nat} {block : OpenBlock}
  {stories : Nat → Story} {middle : List Notice}

theorem Continues.refl (self : ResponsesStreamEncoder) : Continues self (self, []) where
  seq := rfl
  started := rfl
  finished := rfl
  steady := by
    intro stories middle h
    exact ⟨stories, by rwa [List.append_nil]⟩

/-- What is no item may change without that anything is told. -/
theorem Continues.aside {other : ResponsesStreamEncoder} (hseq : other.seq = self.seq) (hstarted : other.started = self.started)
    (hfinished : other.finished = self.finished) (hnext : other.next_output_index = self.next_output_index)
    (hblocks : other.blocks = self.blocks) (hitems : other.items = self.items) : Continues self (other, []) where
  seq := hseq
  started := hstarted
  finished := hfinished
  steady := by
    intro stories middle h
    refine ⟨stories, ?_, ?_⟩
    · rw [hnext, hblocks, hitems, List.append_nil]
      exact h.tells
    · rw [hblocks]
      exact h.loud

theorem Continues.append (h : Continues self step) (h' : Continues step.1 next) : Continues self (next.1, step.2 ++ next.2) where
  seq := h'.seq.trans h.seq
  started := h'.started.trans h.started
  finished := h'.finished.trans h.finished
  steady := by
    intro stories middle hsteady
    obtain ⟨between, hbetween⟩ := h.steady stories middle hsteady
    obtain ⟨more, hmore⟩ := h'.steady between _ hbetween
    exact ⟨more, by rwa [List.append_assoc] at hmore⟩

section Announcing

theorem lookup_announce (self : ResponsesStreamEncoder) (index i : Nat) :
    (self.announce index).1.blocks.lookup i =
      if i = index then (self.blocks.lookup index).map fun block => { block with announced := true } else self.blocks.lookup i := by
  unfold announce
  cases hblock : self.blocks.lookup index with
  | none =>
    by_cases hi : i = index
    · rw [if_pos hi, hi, hblock]
      rfl
    · rw [if_neg hi]
  | some block =>
    by_cases hannounced : block.announced = true
    · have hsame : { block with announced := true } = block := by
        cases block
        cases hannounced
        rfl
      by_cases hi : i = index
      · rw [if_pos hi, hi, Option.map_some, hsame]
        simpa [hannounced] using hblock
      · rw [if_neg hi]
        simp [hannounced]
    · simp only [hannounced, Bool.false_eq_true, if_false, OrderedMap.lookup_insert, Option.map_some]

theorem announce_tells (h : Tells self.next_output_index self.blocks self.items stories middle) (index : Nat) :
    ∃ more, Tells (self.announce index).1.next_output_index (self.announce index).1.blocks (self.announce index).1.items more
      (middle ++ (self.announce index).2) := by
  unfold announce
  cases hblock : self.blocks.lookup index with
  | none => exact ⟨stories, by rwa [List.append_nil]⟩
  | some block =>
    dsimp only
    split
    next => exact ⟨stories, by rwa [List.append_nil]⟩
    next hsilent =>
      obtain ⟨hlt, hopen, hsame⟩ := h.written index block hblock
      have hvalid := h.valid block.output_index hlt
      have hdeltas : (stories block.output_index).deltas = [] := hvalid.silent (by rw [hsame]; exact Bool.eq_false_iff.mpr hsilent)
      have htold : block.told = String.join [] := by rw [← hdeltas, ← hvalid.told, hsame]
      let story : Story := { first := block, block := { block with announced := true } }
      have hstory : story.Valid block.output_index := ⟨rfl, ⟨rfl, rfl, rfl⟩, htold, nofun, fun _ => rfl⟩
      refine ⟨_, h.tell hblock hstory rfl ?_⟩
      have hbefore : (stories block.output_index).notices = [] := if_neg (by rw [hsame]; exact hsilent)
      have hafter : story.notices = block.announcement := by simp [story, Story.notices]
      rw [hbefore, hafter]
      rfl

theorem announce_continues (self : ResponsesStreamEncoder) (index : Nat) : Continues self (self.announce index) := by
  have hfields : (self.announce index).1.seq = self.seq ∧ (self.announce index).1.started = self.started ∧
      (self.announce index).1.finished = self.finished := by
    unfold announce
    split
    · exact ⟨rfl, rfl, rfl⟩
    · split <;> exact ⟨rfl, rfl, rfl⟩
  refine ⟨hfields.1, hfields.2.1, hfields.2.2, ?_⟩
  intro stories middle h
  obtain ⟨more, hmore⟩ := announce_tells h.tells index
  refine ⟨more, hmore, ?_⟩
  intro i block hblock hkind
  rw [lookup_announce] at hblock
  split at hblock
  · obtain ⟨before, -, rfl⟩ := Option.map_eq_some_iff.mp hblock
    rfl
  · exact h.loud i block hblock hkind

end Announcing

section Closing

theorem lookup_close_block (self : ResponsesStreamEncoder) (index i : Nat) :
    (self.close_block index).1.blocks.lookup i = if i = index then none else self.blocks.lookup i := by
  have hannounced := self.lookup_announce index
  unfold close_block
  dsimp only
  cases hblock : (self.announce index).1.blocks.lookup index with
  | none =>
    by_cases hi : i = index
    · rw [if_pos hi, hi]
      exact hblock
    · rw [if_neg hi]
      exact (hannounced i).trans (if_neg hi)
  | some block =>
    refine (OrderedMap.lookup_remove (self.announce index).1.blocks index i).trans ?_
    by_cases hi : i = index
    · rw [if_pos hi, if_pos hi]
    · rw [if_neg hi, if_neg hi, hannounced, if_neg hi]

/-- A block is announced before it is closed. -/
theorem close_block_continues (self : ResponsesStreamEncoder) (index : Nat) : Continues self (self.close_block index) := by
  have hannounce := self.announce_continues index
  have hannounced : ∀ block, (self.announce index).1.blocks.lookup index = some block → block.announced = true := by
    intro block hblock
    rw [lookup_announce, if_pos rfl] at hblock
    obtain ⟨before, -, rfl⟩ := Option.map_eq_some_iff.mp hblock
    rfl
  unfold close_block
  dsimp only
  generalize self.announce index = announced at hannounce hannounced
  obtain ⟨encoder, notices⟩ := announced
  dsimp only at hannounce hannounced ⊢
  cases hblock : encoder.blocks.lookup index with
  | none => exact hannounce
  | some block =>
    refine hannounce.append ?_
    refine ⟨rfl, rfl, rfl, ?_⟩
    intro stories middle h
    refine ⟨_, h.tells.close hblock (hannounced block hblock), ?_⟩
    intro i other hother hkind
    refine h.loud i other ?_ hkind
    rw [finish_block, OrderedMap.lookup_remove] at hother
    split at hother
    · cases hother
    · exact hother

end Closing

section Opening

/-- A block of the kind is being written at the index. -/
def Holds (self : ResponsesStreamEncoder) (index : Nat) (kind : PartKind) : Prop :=
  ∃ block, self.blocks.lookup index = some block ∧ block.kind = kind

variable {kind : PartKind}

theorem new_block_continues (hfree : self.blocks.lookup index = none) (kind : PartKind) :
    Continues self (self.new_block index kind) ∧ (self.new_block index kind).1.Holds index kind := by
  unfold new_block
  extract_lets block encoder
  have htells : ∀ stories middle, Steady self stories middle →
      ∃ more, Tells encoder.next_output_index encoder.blocks encoder.items more middle := by
    intro stories middle h
    refine ⟨_, h.tells.add hfree rfl rfl ?_⟩
    unfold OpenBlock.told
    split <;> rfl
  have hlookup : ∀ i, encoder.blocks.lookup i = if i = index then some block else self.blocks.lookup i :=
    fun i => OrderedMap.lookup_insert self.blocks index i block
  split
  next htool =>
    refine ⟨⟨rfl, rfl, rfl, ?_⟩, block, (hlookup index).trans (if_pos rfl), rfl⟩
    intro stories middle h
    obtain ⟨more, hmore⟩ := htells stories middle h
    refine ⟨more, by rwa [List.append_nil], ?_⟩
    intro i other hother hkind
    rw [hlookup] at hother
    split at hother
    · obtain rfl := Option.some.inj hother
      exact absurd htool hkind
    · exact h.loud i other hother hkind
  next =>
    have hfields := encoder.announce_continues index
    refine ⟨⟨hfields.seq, hfields.started, hfields.finished, ?_⟩, ?_⟩
    · intro stories middle h
      obtain ⟨between, hbetween⟩ := htells stories middle h
      obtain ⟨more, hmore⟩ := announce_tells hbetween index
      refine ⟨more, hmore, ?_⟩
      intro i other hother hkind
      rw [lookup_announce, hlookup, hlookup] at hother
      split at hother
      · obtain ⟨before, -, rfl⟩ := Option.map_eq_some_iff.mp hother
        rfl
      · exact h.loud i other hother hkind
    · refine ⟨{ block with announced := true }, ?_, rfl⟩
      rw [lookup_announce, if_pos rfl, hlookup, if_pos rfl]
      rfl

theorem ensure_started_of_started (hstarted : self.started = true) (uuid : String) (now : Int) : self.ensure_started uuid now = (self, []) :=
  if_pos hstarted

variable (uuid : String) (now : Int)

theorem ensure_block_continues (hstarted : self.started = true) (index : Nat) (kind : PartKind) :
    Continues self (self.ensure_block uuid now index kind) ∧ (self.ensure_block uuid now index kind).1.Holds index kind := by
  unfold ensure_block
  rw [ensure_started_of_started hstarted]
  dsimp only
  cases hblock : self.blocks.lookup index with
  | none => exact new_block_continues hblock kind
  | some existing =>
    dsimp only
    split
    next hkind => exact ⟨.refl self, existing, hblock, hkind⟩
    next =>
      have hclosed := self.close_block_continues index
      obtain ⟨hnew, hholds⟩ := new_block_continues ((self.lookup_close_block index index).trans (if_pos rfl)) kind
      exact ⟨hclosed.append hnew, hholds⟩

end Opening

section Writing

/-- A block that is being written changes, and a delta may be told of it. -/
theorem insert_continues (hblock : self.blocks.lookup index = some block) {after : OpenBlock} (hsame : block.Same after)
    (hannounced : after.announced = block.announced) {texts : List String} (htold : after.told = block.told ++ String.join texts)
    (hloud : texts ≠ [] → block.kind ≠ .toolUse ∨ block.announced = true) :
    Continues self ({ self with blocks := self.blocks.insert index after }, texts.map block.delta) := by
  refine ⟨rfl, rfl, rfl, ?_⟩
  intro stories middle h
  obtain ⟨hlt, hopen, hkept⟩ := h.tells.written index block hblock
  have hvalid := h.tells.valid block.output_index hlt
  have hspoken : texts ≠ [] → block.announced = true := fun htexts =>
    (hloud htexts).elim (h.loud index block hblock) fun hannounced => hannounced
  have hsilent : block.announced = false → texts = [] := by
    intro hsilent
    by_contra htexts
    rw [hspoken htexts] at hsilent
    cases hsilent
  let before := stories block.output_index
  let story : Story := { before with block := after, deltas := before.deltas ++ texts }
  have hbefore : before.block = block := hkept
  have hfirst : before.first.Same block := hbefore ▸ hvalid.same
  have hstory : story.Valid block.output_index := by
    refine ⟨hvalid.output_index, hfirst.trans hsame, ?_, ?_, ?_⟩
    · rw [htold, String.join_append, ← hvalid.told, hkept]
    · intro hclosed
      exact absurd (hopen.symm.trans hclosed) (by decide)
    · intro hquiet
      have hquiet' : block.announced = false := hannounced.symm.trans hquiet
      rw [show story.deltas = before.deltas ++ texts from rfl, hsilent hquiet', List.append_nil]
      exact hvalid.silent (by rw [hkept]; exact hquiet')
  refine ⟨_, h.tells.tell hblock hstory hopen ?_, ?_⟩
  · have hdeltas : texts.map before.first.delta = texts.map block.delta := List.map_congr_left fun text _ => (hfirst.delta text).symm
    unfold Story.notices
    rw [hkept, show story.block = after from rfl, hannounced, show story.closed = false from hopen]
    split
    next => simp [story, before, hdeltas]
    next hquiet =>
      rw [hsilent (Bool.eq_false_iff.mpr hquiet)]
      rfl
  · intro i other hother hkind
    rw [OrderedMap.lookup_insert] at hother
    split at hother
    · obtain rfl := Option.some.inj hother
      exact hannounced.trans (h.loud index block hblock (hsame.kind ▸ hkind))
    · exact h.loud i other hother hkind

variable {kind : PartKind}

theorem write_delta_continues (hholds : self.Holds index kind) {event text : String} {update : OpenBlock → OpenBlock} {delta : Map}
    (hsame : ∀ block : OpenBlock, block.Same (update block)) (hannounced : ∀ block, (update block).announced = block.announced)
    (htold : ∀ block : OpenBlock, block.kind = kind → (update block).told = block.told ++ text)
    (hdelta : ∀ block : OpenBlock, block.kind = kind → (event, block.place delta) = block.delta text)
    (hloud : kind ≠ .toolUse ∨ ∀ block, self.blocks.lookup index = some block → block.announced = true) :
    Continues self (self.write_delta index event update delta) := by
  obtain ⟨block, hblock, hkind⟩ := hholds
  have hstep : self.write_delta index event update delta =
      ({ self with blocks := self.blocks.insert index (update block) }, [text].map block.delta) := by
    rw [write_delta, hblock, List.map_singleton, ← hdelta block hkind]
  rw [hstep]
  refine insert_continues hblock (hsame block) (hannounced block) ?_ ?_
  · rw [htold block hkind, String.join_cons, String.join_nil, String.append_empty]
  · intro _
    exact hloud.imp (fun hne => hkind ▸ hne) fun hall => hall block hblock

/-- What is known of a block changes without that anything is told of it. -/
theorem revise_continues (hblock : self.blocks.lookup index = some block) {after : OpenBlock} (hsame : block.Same after)
    (hannounced : after.announced = block.announced) (htold : after.told = block.told) :
    Continues self ({ self with blocks := self.blocks.insert index after }, []) := by
  refine @insert_continues self index block hblock after hsame hannounced [] ?_ fun hne => absurd rfl hne
  rw [htold, String.join_nil, String.append_empty]

variable (uuid : String) (now : Int) (hstarted : self.started = true)

include hstarted

theorem write_text_continues (index : Nat) {kind : PartKind} (hkind : kind ≠ .toolUse) {event text : String} {delta : Map}
    (hdelta : ∀ block : OpenBlock, block.kind = kind → (event, block.place delta) = block.delta text) :
    Continues self (self.write_text uuid now index kind event text delta) := by
  obtain ⟨hopening, hholds⟩ := ensure_block_continues uuid now hstarted index kind
  unfold write_text
  refine hopening.append (write_delta_continues hholds ?_ ?_ ?_ hdelta (.inl hkind))
  · exact fun block => ⟨rfl, rfl, rfl⟩
  · exact fun block => rfl
  · intro block hblock
    cases kind with
    | toolUse => exact absurd rfl hkind
    | _ =>
      unfold OpenBlock.told
      rw [hblock]

theorem write_signature_continues (index : Nat) (signature : String) :
    Continues self (self.write_signature uuid now index signature) := by
  obtain ⟨hopening, block, hblock, hkind⟩ := ensure_block_continues uuid now hstarted index .thinking
  unfold write_signature
  generalize self.ensure_block uuid now index .thinking = opened at hopening hblock
  obtain ⟨encoder, notices⟩ := opened
  dsimp only at hopening hblock ⊢
  rw [hblock]
  have hrevised := @revise_continues encoder index block hblock { block with signature := some signature } ⟨rfl, rfl, rfl⟩ rfl rfl
  simpa only [List.append_nil] using hopening.append hrevised

theorem start_call_continues (index : Nat) (id name : String) : Continues self (self.start_call uuid now index id name) := by
  obtain ⟨hopening, block, hblock, hkind⟩ := ensure_block_continues uuid now hstarted index .toolUse
  unfold start_call
  generalize self.ensure_block uuid now index .toolUse = opened at hopening hblock
  obtain ⟨encoder, notices⟩ := opened
  dsimp only at hopening hblock ⊢
  rw [hblock]
  dsimp only
  let called : OpenBlock := { block with
    tool_id := if id = "" then block.tool_id else id
    tool_name := if name = "" then block.tool_name else name }
  have hrevised := @revise_continues encoder index block hblock called ⟨rfl, rfl, rfl⟩ rfl rfl
  have hannounced := announce_continues { encoder with blocks := encoder.blocks.insert index called } index
  simpa only [List.append_nil] using (hopening.append hrevised).append hannounced

theorem write_fragment_continues (index : Nat) (fragment : String) : Continues self (self.write_fragment uuid now index fragment) := by
  obtain ⟨hopening, block, hblock, hkind⟩ := ensure_block_continues uuid now hstarted index .toolUse
  unfold write_fragment
  generalize self.ensure_block uuid now index .toolUse = opened at hopening hblock
  obtain ⟨encoder, notices⟩ := opened
  dsimp only at hopening hblock ⊢
  have hannounced := encoder.announce_continues index
  have hlookup : (encoder.announce index).1.blocks.lookup index = some { block with announced := true } := by
    rw [lookup_announce, if_pos rfl, hblock]
    rfl
  have hholds : (encoder.announce index).1.Holds index .toolUse := ⟨_, hlookup, hkind⟩
  refine (hopening.append hannounced).append (@write_delta_continues _ _ _ hholds _ fragment _ _ ?_ ?_ ?_ ?_ ?_)
  · exact fun block => ⟨rfl, rfl, rfl⟩
  · exact fun block => rfl
  · intro block hkind
    unfold OpenBlock.told
    rw [hkind]
  · intro block hkind
    rw [OpenBlock.delta, hkind]
  · right
    intro block hblock
    obtain rfl := Option.some.inj (hlookup.symm.trans hblock)
    rfl

/-- An event that does not end the stream tells more of the items. -/
theorem notices_continues {event : StreamEvent} (hevent : event.is_terminal = false) : Continues self (self.notices uuid now event) := by
  cases event with
  | start id model usage =>
    have hstep : self.notices uuid now (.start id model usage) =
        ({ self with
          id := if id = "" then self.id else id
          model := if model = "" then self.model else model
          usage := (usage.map self.usage.merge_max).getD self.usage }, []) := if_pos hstarted
    rw [hstep]
    exact .aside rfl rfl rfl rfl rfl rfl
  | contentStart index kind => exact (ensure_block_continues uuid now hstarted index kind).1
  | textDelta index text =>
    have hkind : PartKind.text ≠ .toolUse := by decide
    refine write_text_continues uuid now hstarted index hkind fun block hkind => ?_
    rw [OpenBlock.delta, hkind]
  | refusalDelta index text =>
    have hkind : PartKind.refusal ≠ .toolUse := by decide
    refine write_text_continues uuid now hstarted index hkind fun block hkind => ?_
    rw [OpenBlock.delta, hkind]
  | thinkingDelta index text =>
    have hkind : PartKind.thinking ≠ .toolUse := by decide
    refine write_text_continues uuid now hstarted index hkind fun block hkind => ?_
    rw [OpenBlock.delta, hkind]
  | thinkingSignature index signature => exact write_signature_continues uuid now hstarted index signature
  | toolCallStart index id name signature => exact start_call_continues uuid now hstarted index id name
  | toolCallArgsDelta index fragment => exact write_fragment_continues uuid now hstarted index fragment
  | contentStop index => exact self.close_block_continues index
  | usage usage => exact .aside rfl rfl rfl rfl rfl rfl
  | stop reason stop_sequence => exact .aside rfl rfl rfl rfl rfl rfl
  | done => cases hevent
  | error message kind => cases hevent
  | ping => exact .refl self

end Writing

end refract.codec.responses.ResponsesStreamEncoder
