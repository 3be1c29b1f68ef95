import Mathlib.Data.List.Induction
import Refract.Codec.Gemini.Response
import Refract.Ir.Content
import Refract.Stream.Aggregator

open refract.core refract.json refract.ir refract.stream refract.machine

namespace refract.codec.gemini

open GeminiStreamDecoder ContentPart

/-- What a stream delivers. Media and results of calls make no sense in one. -/
def is_delivered : ContentPart → Bool
  | .text _ | .thinking _ _ | .toolUse _ _ _ _ => true
  | _ => false

/-- The block in which a piece of content comes in. -/
def block_of (serde : Serde) : ContentPart → BlockAccum
  | .text s => .text s
  | .thinking s signature => .thinking s signature
  | .toolUse id name input signature => .toolUse id name (serde.to_string input) signature
  | .refusal s => .refusal s
  | _ => .text ""

/-- Text comes in blocks of text alone. -/
theorem eq_text_of_kind {serde : Serde} {part : ContentPart} (hdelivered : is_delivered part = true)
    (hkind : (block_of serde part).kind = .text) : ∃ s, part = .text s := by
  cases part with
  | text s => exact ⟨s, rfl⟩
  | thinking _ _ | toolUse _ _ _ _ | refusal _ => cases hkind
  | _ => cases hdelivered

/-- Thoughts come in blocks of thoughts alone. -/
theorem eq_thinking_of_kind {serde : Serde} {part : ContentPart}
    (hkind : (block_of serde part).kind = .thinking) : ∃ s signature, part = .thinking s signature := by
  cases part with
  | thinking s signature => exact ⟨s, signature, rfl⟩
  | _ => cases hkind

/-- Content as blocks that are numbered from zero. -/
def laid (serde : Serde) (content : List ContentPart) : Blocks :=
  content.zipIdx.map fun entry => (entry.2, block_of serde entry.1)

section Laid

variable (serde : Serde) (content : List ContentPart) (part : ContentPart)

theorem laid_concat : laid serde (content ++ [part]) = laid serde content ++ [(content.length, block_of serde part)] := by
  simp [laid, List.zipIdx_append]

theorem laid_below : (laid serde content).Below content.length := by
  intro entry hentry
  obtain ⟨⟨part, i⟩, hmem, rfl⟩ := List.mem_map.mp hentry
  exact (List.mem_zipIdx' hmem).1

theorem laid_ordered : (laid serde content).Pairwise fun a b => a.1 ≤ b.1 := by
  induction content using List.reverseRecOn with
  | nil => exact List.Pairwise.nil
  | append_singleton content part ih =>
    rw [laid_concat]
    refine List.pairwise_append.mpr ⟨ih, List.pairwise_singleton _ _, ?_⟩
    intro a ha b hb
    rw [List.mem_singleton.mp hb]
    exact (laid_below serde content a ha).le

/-- The input of a call can be read back from its text. -/
def Readable : ContentPart → Prop
  | .toolUse _ _ input _ => input.WellFormed
  | _ => True

variable {serde} {part}

theorem render_block_of (hserde : serde.Lawful) (hdelivered : is_delivered part = true) (hreadable : Readable part) :
    (block_of serde part).render serde = if part.is_present then some part else none := by
  cases part with
  | text s => by_cases hs : s = "" <;> simp [block_of, BlockAccum.render, is_present, hs]
  | thinking s signature =>
    by_cases hs : s = "" <;> cases signature <;> simp [block_of, BlockAccum.render, is_present, hs]
  | toolUse id name input signature =>
    have htrim : trim (serde.to_string input) ≠ "" := by
      rw [hserde.trim_to_string input hreadable]
      exact hserde.to_string_ne_empty hreadable
    simp [block_of, BlockAccum.render, is_present, htrim, hserde.from_str_to_string input hreadable]
  | _ => cases hdelivered

/-- Delivered content is read back from its blocks, except for what says nothing. -/
theorem laid_into_content (hserde : serde.Lawful) {content : List ContentPart}
    (hdelivered : ∀ part ∈ content, is_delivered part = true) (hreadable : ∀ part ∈ content, Readable part) :
    (laid serde content).into_content serde = content.filter is_present := by
  rw [Blocks.into_content_of_ordered serde (laid_ordered serde content), laid, List.filterMap_map]
  have hfst : content.zipIdx.filterMap ((fun entry => entry.2.render serde) ∘ fun entry => (entry.2, block_of serde entry.1)) =
      content.filterMap fun part => (block_of serde part).render serde := by
    conv_rhs => rw [← List.zipIdx_map_fst 0 content, List.filterMap_map]
    rfl
  rw [hfst, ← List.filterMap_eq_filter]
  apply List.filterMap_congr
  intro part hpart
  rw [render_block_of hserde (hdelivered part hpart) (hreadable part hpart), Option.guard]

end Laid

namespace GeminiStreamDecoder

/-- What the blocks hold is the content so far, and the decoder knows its place
    in it. -/
structure Told (serde : Serde) (content : List ContentPart) (blocks : Blocks) (decoder : GeminiStreamDecoder) : Prop where
  blocks_eq : blocks = laid serde content
  saw_eq : decoder.saw_tool_call = content.any ContentPart.is_tool_use
  delivered : ∀ part ∈ content, is_delivered part = true
  closed : decoder.opened = none → decoder.index = content.length ∧ ∀ last, content.getLast? = some last → last.is_tool_use = true
  opened : ∀ kind, decoder.opened = some kind → kind ≠ .toolUse ∧
    ∃ before last, content = before ++ [last] ∧ decoder.index = before.length ∧ (block_of serde last).kind = kind

section Told

variable {serde : Serde} {content : List ContentPart} {blocks : Blocks} {self : GeminiStreamDecoder}

/-- Pieces of one kind go on in the block that is open. -/
theorem switch_same {kind : PartKind} (hopened : self.opened = some kind) (hkind : kind ≠ .toolUse) :
    self.switch kind = (self, []) := by
  simp [switch, hopened, hkind]

/-- Any other piece gets a block after all others. -/
theorem Told.switch_other (h : Told serde content blocks self) (hroom : content.length < 4294967296) {kind : PartKind}
    (hother : self.opened ≠ some kind ∨ kind = .toolUse) :
    (self.switch kind).1 = { self with index := content.length, opened := some kind } ∧
      (self.switch kind).2.foldl Blocks.absorb blocks = laid serde content ++ [(content.length, .fresh kind)] := by
  have hbelow := laid_below serde content
  cases hopened : self.opened with
  | none =>
    obtain ⟨hindex, -⟩ := h.closed hopened
    simp [switch, hopened, ← hindex, Blocks.absorb, h.blocks_eq]
    rw [hindex, hbelow.edit]
    rfl
  | some current =>
    obtain ⟨-, before, last, rfl, hindex, -⟩ := h.opened current hopened
    have hne : ¬ (current = kind ∧ kind ≠ .toolUse) := by
      rintro ⟨rfl, hkind⟩
      exact hother.elim (· hopened) hkind
    have hnext : (self.index + 1) % 4294967296 = (before ++ [last]).length := by
      rw [List.length_append, List.length_singleton] at hroom ⊢
      rw [hindex, Nat.mod_eq_of_lt hroom]
    simp only [switch, hopened, if_neg hne, hnext, List.foldl_cons, List.foldl_nil, Blocks.absorb, h.blocks_eq, hbelow.edit]
    exact ⟨trivial, rfl⟩

/-- A piece that is not joined to the last one has a block of its own. -/
theorem Told.append (h : Told serde content blocks self) {part : ContentPart} {next : GeminiStreamDecoder}
    (hdelivered : is_delivered part = true) (hjoin : ∀ last, content.getLast? = some last → last.join part = none)
    (hsaw : next.saw_tool_call = (self.saw_tool_call || part.is_tool_use))
    (hclosed : next.opened = none → next.index = content.length + 1 ∧ part.is_tool_use = true)
    (hopened : ∀ kind, next.opened = some kind → kind ≠ .toolUse ∧ next.index = content.length ∧
      (block_of serde part).kind = kind) :
    Told serde (add content part) (laid serde content ++ [(content.length, block_of serde part)]) next := by
  rw [add_of_join_eq_none hjoin]
  refine ⟨(laid_concat serde content part).symm, ?_, ?_, ?_, ?_⟩
  · simp [hsaw, h.saw_eq]
  · intro p hp
    rcases List.mem_append.mp hp with hp | hp
    · exact h.delivered p hp
    · exact List.mem_singleton.mp hp ▸ hdelivered
  · intro hnone
    obtain ⟨hindex, htool⟩ := hclosed hnone
    simpa [hindex] using htool
  · intro kind hsome
    obtain ⟨hkind, hindex, hblock⟩ := hopened kind hsome
    exact ⟨hkind, content, part, rfl, hindex, hblock⟩

/-- A piece that is joined to the last one goes on in its block. -/
theorem Told.join {before : List ContentPart} {last part joined : ContentPart}
    (h : Told serde (before ++ [last]) blocks self) {kind : PartKind} (hopened : self.opened = some kind)
    (hjoin : last.join part = some joined) (hkind : (block_of serde joined).kind = (block_of serde last).kind)
    (hdelivered : is_delivered joined = true) (htool : joined.is_tool_use = last.is_tool_use) :
    Told serde (add (before ++ [last]) part) (laid serde before ++ [(before.length, block_of serde joined)]) self := by
  rw [add_of_join_eq_some hjoin]
  refine ⟨(laid_concat serde before joined).symm, ?_, ?_, ?_, ?_⟩
  · simp [h.saw_eq, htool]
  · intro p hp
    rcases List.mem_append.mp hp with hp | hp
    · exact h.delivered p (List.mem_append_left _ hp)
    · exact List.mem_singleton.mp hp ▸ hdelivered
  · intro hnone
    rw [hopened] at hnone
    cases hnone
  · intro other hsome
    obtain ⟨hne, before', last', heq, hindex, hblock⟩ := h.opened other hsome
    obtain ⟨rfl, hlast⟩ := List.append_inj' heq rfl
    obtain rfl := List.singleton_inj.mp hlast
    exact ⟨hne, before, joined, rfl, hindex, hkind.trans hblock⟩

/-- What stands last before a block of another kind is not joined to it. -/
theorem Told.join_none (h : Told serde content blocks self) {part : ContentPart}
    (hother : self.opened ≠ some (block_of serde part).kind) (hdelivered : is_delivered part = true) :
    ∀ last, content.getLast? = some last → last.join part = none := by
  intro last hlast
  have hmem : last ∈ content := List.mem_of_getLast? hlast
  have hkind : ∀ kind, self.opened = some kind → (block_of serde last).kind = kind := by
    intro kind hopened
    obtain ⟨-, before, other, rfl, -, hblock⟩ := h.opened kind hopened
    rw [List.getLast?_concat] at hlast
    exact Option.some.inj hlast ▸ hblock
  cases hopened : self.opened with
  | none =>
    have htool := (h.closed hopened).2 last hlast
    cases last <;> first | rfl | cases htool
  | some current =>
    have hcurrent := hkind current hopened
    have hne : (block_of serde last).kind ≠ (block_of serde part).kind := by
      rw [hcurrent]
      exact fun heq => hother (heq ▸ hopened)
    cases last <;> cases part <;> first | rfl | exact absurd rfl hne

/-- A piece of text goes on in the open block or gets one of its own. -/
theorem Told.text (h : Told serde content blocks self) (hroom : content.length < 4294967296) (s : String) :
    Told serde (add content (.text s)) ((self.decode_content serde (.text s)).2.foldl Blocks.absorb blocks)
      (self.decode_content serde (.text s)).1 := by
  by_cases hsame : self.opened = some .text
  · obtain ⟨-, before, last, rfl, hindex, hkind⟩ := h.opened .text hsame
    obtain ⟨t, rfl⟩ := eq_text_of_kind (h.delivered last (by simp)) hkind
    have hblocks : (self.decode_content serde (.text s)).2.foldl Blocks.absorb blocks =
        laid serde before ++ [(before.length, block_of serde (.text (t ++ s)))] := by
      simp only [decode_content, switch_same hsame (by decide), List.nil_append, List.foldl_cons, List.foldl_nil,
        Blocks.absorb, h.blocks_eq, laid_concat, hindex]
      exact (laid_below serde before).edit_last rfl
    have hstate : (self.decode_content serde (.text s)).1 = self := by
      simp only [decode_content, switch_same hsame (by decide)]
    rw [hblocks, hstate]
    exact h.join hsame rfl rfl rfl rfl
  · obtain ⟨hstate, hmoved⟩ := h.switch_other hroom (.inl hsame)
    have hblocks : (self.decode_content serde (.text s)).2.foldl Blocks.absorb blocks =
        laid serde content ++ [(content.length, block_of serde (.text s))] := by
      simp only [decode_content, List.foldl_append, hmoved, hstate, List.foldl_cons, List.foldl_nil, Blocks.absorb]
      refine ((laid_below serde content).edit_last (BlockAccum.kind_fresh .text)).trans ?_
      simp [BlockAccum.fresh, BlockAccum.push_str, block_of]
    have hnext : (self.decode_content serde (.text s)).1 = { self with index := content.length, opened := some .text } := hstate
    rw [hblocks, hnext]
    exact h.append rfl (h.join_none hsame rfl) (by simp [is_tool_use]) (by simp)
      (by rintro kind ⟨⟩; exact ⟨by decide, rfl, rfl⟩)

/-- A thought goes on in the open block or gets one of its own. -/
theorem Told.thinking (h : Told serde content blocks self) (hroom : content.length < 4294967296) (s : String)
    (signature : Option String) :
    Told serde (add content (.thinking s signature))
      ((self.decode_content serde (.thinking s signature)).2.foldl Blocks.absorb blocks)
      (self.decode_content serde (.thinking s signature)).1 := by
  have hsign : ∀ (before : Blocks) (index : Nat) (t : String) (old : Option String), before.Below index →
      (signature.map (StreamEvent.thinkingSignature index)).toList.foldl Blocks.absorb (before ++ [(index, .thinking t old)]) =
        before ++ [(index, .thinking t (signature.or old))] := by
    intro before index t old hbelow
    cases signature with
    | none => rfl
    | some signature => exact hbelow.edit_last rfl
  by_cases hsame : self.opened = some .thinking
  · obtain ⟨-, before, last, rfl, hindex, hkind⟩ := h.opened .thinking hsame
    obtain ⟨t, old, rfl⟩ := eq_thinking_of_kind hkind
    have hblocks : (self.decode_content serde (.thinking s signature)).2.foldl Blocks.absorb blocks =
        laid serde before ++ [(before.length, block_of serde (.thinking (t ++ s) (signature.or old)))] := by
      have hbelow := laid_below serde before
      have hdelta : Blocks.absorb (laid serde before ++ [(before.length, .thinking t old)]) (.thinkingDelta before.length s) =
          laid serde before ++ [(before.length, .thinking (t ++ s) old)] := hbelow.edit_last rfl
      simp only [decode_content, switch_same hsame (by decide), List.nil_append, List.foldl_append, List.foldl_cons,
        List.foldl_nil, h.blocks_eq, laid_concat, hindex, block_of, hdelta]
      exact hsign _ _ _ _ hbelow
    have hstate : (self.decode_content serde (.thinking s signature)).1 = self := by
      simp only [decode_content, switch_same hsame (by decide)]
    rw [hblocks, hstate]
    exact h.join hsame rfl rfl rfl rfl
  · obtain ⟨hstate, hmoved⟩ := h.switch_other hroom (.inl hsame)
    have hblocks : (self.decode_content serde (.thinking s signature)).2.foldl Blocks.absorb blocks =
        laid serde content ++ [(content.length, block_of serde (.thinking s signature))] := by
      have hbelow := laid_below serde content
      have hdelta : Blocks.absorb (laid serde content ++ [(content.length, .fresh .thinking)]) (.thinkingDelta content.length s) =
          laid serde content ++ [(content.length, .thinking ("" ++ s) none)] := hbelow.edit_last rfl
      simp only [decode_content, List.foldl_append, hmoved, hstate, List.foldl_cons, List.foldl_nil, hdelta]
      rw [hsign _ _ _ _ hbelow]
      simp [block_of]
    have hnext : (self.decode_content serde (.thinking s signature)).1 =
        { self with index := content.length, opened := some .thinking } := hstate
    rw [hblocks, hnext]
    exact h.append rfl (h.join_none hsame rfl) (by simp [is_tool_use]) (by simp)
      (by rintro kind ⟨⟩; exact ⟨by decide, rfl, rfl⟩)

/-- A call always gets a block of its own. -/
theorem Told.toolUse (h : Told serde content blocks self) (hroom : content.length + 1 < 4294967296) (id name : String)
    (input : Value) (signature : Option String) :
    Told serde (add content (.toolUse id name input signature))
      ((self.decode_content serde (.toolUse id name input signature)).2.foldl Blocks.absorb blocks)
      (self.decode_content serde (.toolUse id name input signature)).1 := by
  have hcounted : Told serde content blocks { self with tool_index := min (self.tool_index + 1) 18446744073709551615 } :=
    ⟨h.blocks_eq, h.saw_eq, h.delivered, h.closed, h.opened⟩
  obtain ⟨hstate, hmoved⟩ := hcounted.switch_other (Nat.lt_of_succ_lt hroom) (.inr rfl)
  have hbelow := laid_below serde content
  have hannounce : Blocks.absorb (laid serde content ++ [(content.length, .fresh .toolUse)])
      (.toolCallStart content.length id name signature) =
        laid serde content ++ [(content.length, .toolUse id name "" signature)] := by
    refine (hbelow.edit_last (BlockAccum.kind_fresh .toolUse)).trans ?_
    by_cases hid : id = "" <;> by_cases hname : name = "" <;> simp [BlockAccum.announce, BlockAccum.fresh, hid, hname]
  have hargs : Blocks.absorb (laid serde content ++ [(content.length, .toolUse id name "" signature)])
      (.toolCallArgsDelta content.length (serde.to_string input)) =
        laid serde content ++ [(content.length, .toolUse id name (serde.to_string input) signature)] := by
    have hkind : (BlockAccum.toolUse id name "" signature).kind = .toolUse := rfl
    refine (hbelow.edit_last hkind).trans ?_
    simp [BlockAccum.push_str]
  have hblocks : (self.decode_content serde (.toolUse id name input signature)).2.foldl Blocks.absorb blocks =
      laid serde content ++ [(content.length, block_of serde (.toolUse id name input signature))] := by
    simp only [decode_content, List.foldl_append, hmoved, hstate, List.foldl_cons, List.foldl_nil, hannounce, hargs]
    rfl
  have hnext : (self.decode_content serde (.toolUse id name input signature)).1 =
      { self with
        tool_index := min (self.tool_index + 1) 18446744073709551615
        opened := none
        index := content.length + 1
        saw_tool_call := true } := by
    simp only [decode_content, hstate, Nat.mod_eq_of_lt hroom]
  rw [hblocks, hnext]
  refine h.append rfl ?_ (by simp [is_tool_use]) (fun _ => ⟨rfl, rfl⟩) (by rintro kind ⟨⟩)
  intro last hlast
  cases last <;> rfl

/-- A piece of content that is delivered is added to the content. -/
theorem Told.decode_content (h : Told serde content blocks self) (hroom : content.length + 1 < 4294967296)
    (part : ContentPart) :
    Told serde (if is_delivered part then add content part else content)
      ((self.decode_content serde part).2.foldl Blocks.absorb blocks) (self.decode_content serde part).1 := by
  cases part with
  | text s => exact h.text (Nat.lt_of_succ_lt hroom) s
  | thinking s signature => exact h.thinking (Nat.lt_of_succ_lt hroom) s signature
  | toolUse id name input signature => exact h.toolUse hroom id name input signature
  | _ => exact h

end Told

theorem decode_content_tool_index (serde : Serde) (self : GeminiStreamDecoder) (part : ContentPart) :
    (self.decode_content serde part).1.tool_index =
      if part.is_tool_use then min (self.tool_index + 1) 18446744073709551615 else self.tool_index := by
  have hswitch : ∀ (decoder : GeminiStreamDecoder) (kind : PartKind), (decoder.switch kind).1.tool_index = decoder.tool_index := by
    intro decoder kind
    unfold switch
    split
    · split <;> rfl
    · rfl
  cases part <;> simp [GeminiStreamDecoder.decode_content, hswitch, is_tool_use]

end GeminiStreamDecoder

section Parts

variable (serde : Serde)

/-- What counts in the numbering of calls is a call. -/
def CountsCall (part : Value) : Prop :=
  is_tool part = true → ∀ tool_index, (decode_part serde part tool_index).any ContentPart.is_tool_use = true

/-- A call counts in the numbering of calls. -/
theorem is_tool_of_call {part : Value} {tool_index : Nat} {piece : ContentPart}
    (hpiece : decode_part serde part tool_index = some piece) (hcall : piece.is_tool_use = true) : is_tool part = true := by
  cases part with
  | object obj =>
    cases hfield : (field obj "functionCall" "function_call") with
    | some value => simp [is_tool, hfield]
    | none =>
      simp only [decode_part, hfield, Option.bind_none] at hpiece
      have hmedia : ∀ source mime, (media_part source mime).is_tool_use = false := by
        intro source mime
        unfold media_part
        dsimp only
        split
        · rfl
        · split <;> rfl
      repeat' split at hpiece
      all_goals
        obtain rfl := Option.some.inj hpiece
        first | cases hcall | rw [hmedia] at hcall; cases hcall
  | _ => cases hpiece

/-- The parts of a second list are numbered after those of the first. -/
theorem decode_parts_from_append (n : Nat) (first second : List Value) :
    decode_parts_from serde n (first ++ second) =
      decode_parts_from serde n first ++ decode_parts_from serde (n + first.countP is_tool) second := by
  induction first generalizing n with
  | nil => simp [decode_parts_from]
  | cons part first ih =>
    rw [List.cons_append, decode_parts_from, decode_parts_from, ih, List.append_assoc, List.countP_cons]
    have hcount : (if is_tool part then n + 1 else n) + first.countP is_tool =
        n + (first.countP is_tool + if is_tool part then 1 else 0) := by
      split <;> omega
    rw [hcount]

theorem length_add_le (content : List ContentPart) (part : ContentPart) : (add content part).length ≤ content.length + 1 := by
  unfold add
  split
  · simp only [List.length_append, List.length_dropLast, List.length_singleton]
    omega
  · simp

/-- A run over parts delivers the content that a reading of the parts finds. -/
theorem told_parts {values : List Value} (hcounts : ∀ part ∈ values, CountsCall serde part) {content : List ContentPart}
    {blocks : Blocks} {self : GeminiStreamDecoder} (h : Told serde content blocks self)
    (hroom : content.length + values.length < 4294967296) (htools : self.tool_index + values.length < 4294967296) :
    Told serde (((decode_parts_from serde self.tool_index values).filter is_delivered).foldl add content)
        (((parts serde).emit self values).foldl Blocks.absorb blocks) ((parts serde).advance self values) ∧
      ((parts serde).advance self values).tool_index = self.tool_index + values.countP is_tool := by
  induction values generalizing content blocks self with
  | nil => exact ⟨h, rfl⟩
  | cons part values ih =>
    obtain ⟨hpart, hrest⟩ := List.forall_mem_cons.mp hcounts
    rw [List.length_cons] at hroom htools
    rw [Transducer.emit_cons, Transducer.advance_cons, List.foldl_append, decode_parts_from]
    change Told _ _ (((parts serde).emit (self.step_part serde part).1 values).foldl _
      ((self.step_part serde part).2.foldl _ blocks)) ((parts serde).advance (self.step_part serde part).1 values) ∧
      ((parts serde).advance (self.step_part serde part).1 values).tool_index = _
    cases hpiece : decode_part serde part self.tool_index with
    | none =>
      have hstep : self.step_part serde part = (self, []) := by rw [step_part, hpiece]
      have htool : is_tool part = false := by
        by_contra hnot
        have hcall := hpart (Bool.eq_true_of_not_eq_false hnot) self.tool_index
        rw [hpiece] at hcall
        cases hcall
      rw [hstep, List.countP_cons]
      simp only [htool, Option.toList_none, List.nil_append, List.foldl_nil]
      exact ih hrest h (by omega) (by omega)
    | some piece =>
      have hstep : self.step_part serde part = self.decode_content serde piece := by rw [step_part, hpiece]
      have htold := h.decode_content (by omega) piece
      have hindex := decode_content_tool_index serde self piece
      have htool : is_tool part = piece.is_tool_use := by
        cases hcall : piece.is_tool_use with
        | true => exact is_tool_of_call serde hpiece hcall
        | false =>
          by_contra hnot
          have hall := hpart (Bool.eq_true_of_not_eq_false hnot) self.tool_index
          rw [hpiece, Option.any_some, hcall] at hall
          cases hall
      have hnext : (self.decode_content serde piece).1.tool_index =
          if is_tool part then self.tool_index + 1 else self.tool_index := by
        rw [hindex, htool]
        split
        · omega
        · rfl
      have hlength : (if is_delivered piece then add content piece else content).length ≤ content.length + 1 := by
        split
        · exact length_add_le content piece
        · omega
      have hsmall : (self.decode_content serde piece).1.tool_index ≤ self.tool_index + 1 := by
        rw [hnext]
        split <;> omega
      obtain ⟨hresult, hcount⟩ := ih hrest htold (by omega) (by omega)
      rw [hnext] at hresult hcount
      rw [hstep, Option.toList_some, List.singleton_append, List.filter_cons, List.countP_cons]
      constructor
      · cases hdelivered : is_delivered piece with
        | true => simpa only [hdelivered, if_true, List.foldl_cons] using hresult
        | false => simpa only [hdelivered, Bool.false_eq_true, if_false] using hresult
      · rw [hcount]
        split <;> omega

end Parts

end refract.codec.gemini
