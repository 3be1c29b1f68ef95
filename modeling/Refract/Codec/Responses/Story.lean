import Mathlib.Logic.Function.Basic
import Refract.Codec.Responses.Encoder

open refract.json refract.ir refract.machine refract.stream

namespace refract.codec.responses

/-- The item that a frame is about. -/
def item_of (notice : Notice) : Option Nat :=
  match notice.2.lookup "output_index" with
  | some (.number (.int (.ofNat index))) => some index
  | _ => none

theorem item_of_eq {notice : Notice} {index : Nat} (h : notice.2.lookup "output_index" = some (.nat index)) :
    item_of notice = some index := by
  rw [item_of, h]
  rfl

namespace OpenBlock

variable (block : OpenBlock)

/-- The frame of a delta. -/
def delta (text : String) : Notice :=
  match block.kind with
  | .text =>
    ("response.output_text.delta", block.place [("content_index", .nat 0), ("delta", .string text), ("logprobs", .array [])])
  | .refusal => ("response.refusal.delta", block.place [("content_index", .nat 0), ("delta", .string text)])
  | .thinking => ("response.reasoning_summary_text.delta", block.place [("summary_index", .nat 0), ("delta", .string text)])
  | .toolUse => ("response.function_call_arguments.delta", block.place [("delta", .string text)])

/-- What the closing frames of an item say of it as a whole. -/
def told : String :=
  match block.kind with
  | .toolUse => block.args
  | .text | .refusal | .thinking => block.text

/-- The two are one item, maybe at different times. -/
structure Same (other : OpenBlock) : Prop where
  output_index : other.output_index = block.output_index
  item_id : other.item_id = block.item_id
  kind : other.kind = block.kind

theorem Same.refl : block.Same block := ⟨rfl, rfl, rfl⟩

variable {block} {other last : OpenBlock}

theorem Same.trans (h : block.Same other) (h' : other.Same last) : block.Same last :=
  ⟨h'.output_index.trans h.output_index, h'.item_id.trans h.item_id, h'.kind.trans h.kind⟩

theorem Same.place (h : block.Same other) (more : Map) : other.place more = block.place more := by
  rw [OpenBlock.place, OpenBlock.place, h.item_id, h.output_index]

theorem Same.delta (h : block.Same other) (text : String) : other.delta text = block.delta text := by
  unfold OpenBlock.delta
  rw [h.kind, h.place, h.place, h.place, h.place]

theorem item_of_place (event : String) (more : Map) : item_of (event, block.place more) = some block.output_index :=
  item_of_eq (by simp [place, List.lookup_cons])

/-- The frames that announce and close an item as a whole have the item with its index. -/
theorem item_of_item (event : String) (item : Value) :
    item_of (event, [("output_index", .nat block.output_index), ("item", item)]) = some block.output_index :=
  item_of_eq (by simp)

theorem item_of_delta (text : String) : item_of (block.delta text) = some block.output_index := by
  unfold OpenBlock.delta
  cases block.kind <;> exact item_of_place _ _

theorem item_of_announcement : ∀ notice ∈ block.announcement, item_of notice = some block.output_index := by
  unfold announcement
  intro notice hnotice
  rcases List.mem_cons.mp hnotice with rfl | hpart
  · exact item_of_item _ _
  · cases hkind : block.kind with
    | toolUse =>
      rw [hkind] at hpart
      cases hpart
    | _ =>
      rw [hkind] at hpart
      rw [List.mem_singleton.mp hpart]
      exact item_of_place _ _

theorem item_of_closing : ∀ notice ∈ block.closing ++ [block.item_done], item_of notice = some block.output_index := by
  unfold closing
  intro notice hnotice
  rcases List.mem_append.mp hnotice with hclosing | hdone
  · cases hkind : block.kind with
    | toolUse =>
      rw [hkind] at hclosing
      rw [List.mem_singleton.mp hclosing]
      exact item_of_place _ _
    | _ =>
      rw [hkind] at hclosing
      rcases List.mem_pair.mp hclosing with rfl | rfl
      · exact item_of_place _ _
      · exact item_of_place _ _
  · rw [List.mem_singleton.mp hdone]
    exact item_of_item _ _

end OpenBlock

/-- What a client is told of an item. -/
structure Story where
  /-- The item as it is announced. -/
  first : OpenBlock
  /-- The item as it is known last. -/
  block : OpenBlock
  deltas : List String := []
  closed : Bool := false

namespace Story

variable (story : Story)

/-- An item is announced with its part, then come its deltas, and then its part and the item
    are closed. -/
def notices : List Notice :=
  if story.block.announced then
    story.first.announcement ++ story.deltas.map story.first.delta ++
      if story.closed then story.block.closing ++ [story.block.item_done] else []
  else []

/-- The story of the item at an index. -/
structure Valid (index : Nat) : Prop where
  output_index : story.first.output_index = index
  same : story.first.Same story.block
  /-- The item is told as a whole as it was told in parts. -/
  told : story.block.told = String.join story.deltas
  announced : story.closed = true → story.block.announced = true
  /-- Nothing is told of an item before it is announced. -/
  silent : story.block.announced = false → story.deltas = []

variable {story} {index : Nat}

theorem Valid.block_output_index (h : story.Valid index) : story.block.output_index = index :=
  h.same.output_index.trans h.output_index

theorem Valid.item_of_notices (h : story.Valid index) : ∀ notice ∈ story.notices, item_of notice = some index := by
  intro notice hnotice
  unfold notices at hnotice
  split at hnotice
  · rcases List.mem_append.mp hnotice with hopen | hclosing
    · rcases List.mem_append.mp hopen with hannounced | hdelta
      · rw [OpenBlock.item_of_announcement notice hannounced, h.output_index]
      · obtain ⟨text, -, rfl⟩ := List.mem_map.mp hdelta
        rw [OpenBlock.item_of_delta, h.output_index]
    · split at hclosing
      · rw [OpenBlock.item_of_closing notice hclosing, h.block_output_index]
      · cases hclosing
  · cases hnotice

end Story

/-- The frames about some items, numbered from zero. -/
structure Items (count : Nat) (stories : Nat → Story) (middle : List Notice) : Prop where
  about : ∀ notice ∈ middle, ∃ index < count, item_of notice = some index
  told : ∀ index < count, middle.filter (item_of · = some index) = (stories index).notices
  valid : ∀ index < count, (stories index).Valid index

/-- The frames about the items, and what is known of the items: those that are being written by the
    index of their block, and the others by their own. -/
structure Tells (count : Nat) (blocks : OrderedMap Nat OpenBlock) (items : List (Option Value)) (stories : Nat → Story)
    (middle : List Notice) : Prop extends Items count stories middle where
  written : ∀ i block, blocks.lookup i = some block →
    block.output_index < count ∧ (stories block.output_index).closed = false ∧ (stories block.output_index).block = block
  unfinished : ∀ index < count, (stories index).closed = false → ∃ i, blocks.lookup i = some (stories index).block
  unique : ∀ i j block other, blocks.lookup i = some block → blocks.lookup j = some other →
    block.output_index = other.output_index → i = j
  room : items.length ≤ count
  finished : ∀ index < count, slot items index = if (stories index).closed then some (stories index).block.item else none

section Telling

variable {count : Nat} {blocks : OrderedMap Nat OpenBlock} {items : List (Option Value)} {stories : Nat → Story} {middle extra : List Notice}
  {story : Story} {block : OpenBlock} {i index : Nat}

theorem Items.init (stories : Nat → Story) : Items 0 stories [] where
  about := by
    intro notice hnotice
    cases hnotice
  told := by
    intro index hindex
    cases hindex
  valid := by
    intro index hindex
    cases hindex

/-- More is told of one item, and nothing else of the others. -/
theorem Items.tell (h : Items count stories middle) (hindex : index < count) (hvalid : story.Valid index)
    (hnotices : story.notices = (stories index).notices ++ extra) : Items count (Function.update stories index story) (middle ++ extra) where
  about := by
    intro notice hnotice
    rcases List.mem_append.mp hnotice with hbefore | hextra
    · exact h.about notice hbefore
    · exact ⟨index, hindex, hvalid.item_of_notices notice (hnotices ▸ List.mem_append_right _ hextra)⟩
  told := by
    have hextra : ∀ notice ∈ extra, item_of notice = some index := fun notice hnotice =>
      hvalid.item_of_notices notice (hnotices ▸ List.mem_append_right _ hnotice)
    intro other hother
    rw [List.filter_append, h.told other hother, Function.update_apply]
    split
    next heq =>
      have hall : extra.filter (item_of · = some other) = extra :=
        List.filter_eq_self.mpr fun notice hnotice => decide_eq_true (heq ▸ hextra notice hnotice)
      rw [hall, hnotices, heq]
    next hne =>
      have hnone : extra.filter (item_of · = some other) = [] := by
        refine List.filter_eq_nil_iff.mpr fun notice hnotice => ?_
        rw [hextra notice hnotice, decide_eq_true_eq, Option.some_inj]
        exact Ne.symm hne
      rw [hnone, List.append_nil]
  valid := by
    intro other hother
    rw [Function.update_apply]
    split
    next heq => exact heq ▸ hvalid
    next => exact h.valid other hother

/-- A new item takes the next number. -/
theorem Items.add (h : Items count stories middle) (hvalid : story.Valid count) (hsilent : story.notices = []) :
    Items (count + 1) (Function.update stories count story) middle where
  about := by
    intro notice hnotice
    obtain ⟨index, hlt, hitem⟩ := h.about notice hnotice
    exact ⟨index, hlt.trans (Nat.lt_succ_self count), hitem⟩
  told := by
    intro index hindex
    rw [Function.update_apply]
    split
    next heq =>
      rw [hsilent]
      refine List.filter_eq_nil_iff.mpr fun notice hnotice => ?_
      obtain ⟨other, hlt, hitem⟩ := h.about notice hnotice
      rw [hitem, decide_eq_true_eq, Option.some_inj]
      omega
    next hne => exact h.told index (by omega)
  valid := by
    intro index hindex
    rw [Function.update_apply]
    split
    next heq => exact heq ▸ hvalid
    next hne => exact h.valid index (by omega)

theorem Tells.init (stories : Nat → Story) : Tells 0 [] [] stories [] where
  toItems := Items.init stories
  written := by
    intro i block hblock
    cases hblock
  unfinished := by
    intro index hindex
    cases hindex
  unique := by
    intro i j block other hblock
    cases hblock
  room := Nat.le_refl 0
  finished := by
    intro index hindex
    cases hindex

/-- More is told of an item that is being written. -/
theorem Tells.tell (h : Tells count blocks items stories middle) (hblock : blocks.lookup i = some block)
    (hvalid : story.Valid block.output_index) (hopen : story.closed = false)
    (hnotices : story.notices = (stories block.output_index).notices ++ extra) :
    Tells count (blocks.insert i story.block) items (Function.update stories block.output_index story) (middle ++ extra) where
  toItems := h.toItems.tell (h.written i block hblock).1 hvalid hnotices
  written := by
    intro j other hother
    rw [OrderedMap.lookup_insert] at hother
    split at hother
    next =>
      obtain rfl := Option.some.inj hother
      rw [hvalid.block_output_index, Function.update_self]
      exact ⟨(h.written i block hblock).1, hopen, rfl⟩
    next hne =>
      have hdistinct : other.output_index ≠ block.output_index := fun heq => hne (h.unique j i other block hother hblock heq)
      rw [Function.update_of_ne hdistinct]
      exact h.written j other hother
  unfinished := by
    intro index hindex hunfinished
    rw [Function.update_apply] at hunfinished ⊢
    split
    next => exact ⟨i, OrderedMap.lookup_insert_self blocks i story.block⟩
    next hne =>
      rw [if_neg hne] at hunfinished
      obtain ⟨j, hj⟩ := h.unfinished index hindex hunfinished
      refine ⟨j, ?_⟩
      rw [OrderedMap.lookup_insert, if_neg, hj]
      rintro rfl
      rw [hblock] at hj
      obtain rfl := Option.some.inj hj
      exact hne (h.valid index hindex).block_output_index.symm
  unique := by
    have hindex := hvalid.block_output_index
    intro j k first second hj hk heq
    rw [OrderedMap.lookup_insert] at hj hk
    split at hj
    next hji =>
      split at hk
      next hki => exact hji.trans hki.symm
      next =>
        obtain rfl := Option.some.inj hj
        exact hji.trans (h.unique i k block second hblock hk (hindex.symm.trans heq))
    next =>
      split at hk
      next hki =>
        obtain rfl := Option.some.inj hk
        exact (h.unique j i first block hj hblock (heq.trans hindex)).trans hki.symm
      next => exact h.unique j k first second hj hk heq
  room := h.room
  finished := by
    intro index hindex
    rw [h.finished index hindex, Function.update_apply]
    by_cases heq : index = block.output_index
    · rw [if_pos heq, hopen, heq, (h.written i block hblock).2.1]
      rfl
    · rw [if_neg heq]

/-- An item that was announced is closed. -/
theorem Tells.close (h : Tells count blocks items stories middle) (hblock : blocks.lookup i = some block) (hannounced : block.announced = true) :
    Tells count (blocks.remove i) (put items block.output_index (some block.item))
      (Function.update stories block.output_index { stories block.output_index with closed := true })
      (middle ++ (block.closing ++ [block.item_done])) := by
  obtain ⟨hlt, hunfinished, hsame⟩ := h.written i block hblock
  have hvalid := h.valid block.output_index hlt
  refine ⟨h.toItems.tell hlt ?_ ?_, ?_, ?_, ?_, ?_, ?_⟩
  · exact ⟨hvalid.output_index, hvalid.same, hvalid.told, fun _ => by rw [hsame, hannounced], hvalid.silent⟩
  · unfold Story.notices
    rw [hsame, if_pos hannounced, if_pos hannounced, hunfinished]
    simp
  · intro j other hother
    rw [OrderedMap.lookup_remove] at hother
    split at hother
    · cases hother
    next hne =>
      have hdistinct : other.output_index ≠ block.output_index := fun heq => hne (h.unique j i other block hother hblock heq)
      rw [Function.update_of_ne hdistinct]
      exact h.written j other hother
  · intro index hindex hopen
    rw [Function.update_apply] at hopen ⊢
    split at hopen
    · cases hopen
    next hne =>
      obtain ⟨j, hj⟩ := h.unfinished index hindex hopen
      refine ⟨j, ?_⟩
      rw [if_neg hne, OrderedMap.lookup_remove, if_neg, hj]
      rintro rfl
      rw [hblock] at hj
      obtain rfl := Option.some.inj hj
      exact hne (h.valid index hindex).block_output_index.symm
  · intro j k first second hj hk heq
    rw [OrderedMap.lookup_remove] at hj hk
    split at hj
    · cases hj
    · split at hk
      · cases hk
      · exact h.unique j k first second hj hk heq
  · rw [length_put]
    exact Nat.max_le.mpr ⟨h.room, hlt⟩
  · intro index hindex
    rw [slot_put, Function.update_apply]
    split
    next => rw [if_pos rfl, hsame]
    next => exact h.finished index hindex

/-- An item is begun at the index of a block where none is being written. -/
theorem Tells.add (h : Tells count blocks items stories middle) (hfree : blocks.lookup i = none) (hindex : block.output_index = count)
    (hsilent : block.announced = false) (hempty : block.told = "") :
    Tells (count + 1) (blocks.insert i block) items (Function.update stories count { first := block, block }) middle := by
  refine ⟨h.toItems.add ?_ ?_, ?_, ?_, ?_, ?_, ?_⟩
  · exact ⟨hindex, OpenBlock.Same.refl block, hempty, nofun, fun _ => rfl⟩
  · exact if_neg (by rw [hsilent]; decide)
  · intro j other hother
    rw [OrderedMap.lookup_insert] at hother
    split at hother
    next =>
      obtain rfl := Option.some.inj hother
      rw [hindex, Function.update_self]
      exact ⟨Nat.lt_succ_self count, rfl, rfl⟩
    next =>
      obtain ⟨hlt, hwritten⟩ := h.written j other hother
      rw [Function.update_of_ne hlt.ne]
      exact ⟨hlt.trans (Nat.lt_succ_self count), hwritten⟩
  · intro index hlt hopen
    rw [Function.update_apply] at hopen ⊢
    split
    next => exact ⟨i, OrderedMap.lookup_insert_self blocks i block⟩
    next hne =>
      rw [if_neg hne] at hopen
      obtain ⟨j, hj⟩ := h.unfinished index (by omega) hopen
      refine ⟨j, ?_⟩
      rw [OrderedMap.lookup_insert, if_neg, hj]
      rintro rfl
      rw [hfree] at hj
      cases hj
  · intro j k first second hj hk heq
    rw [OrderedMap.lookup_insert] at hj hk
    split at hj
    next hji =>
      split at hk
      next hki => exact hji.trans hki.symm
      next =>
        obtain rfl := Option.some.inj hj
        exact absurd (h.written k second hk).1 (by omega)
    next =>
      split at hk
      next =>
        obtain rfl := Option.some.inj hk
        exact absurd (h.written j first hj).1 (by omega)
      next => exact h.unique j k first second hj hk heq
  · exact h.room.trans (Nat.le_succ count)
  · intro index hlt
    rw [Function.update_apply]
    split
    next heq => exact slot_of_length_le items index (heq ▸ h.room)
    next hne => exact h.finished index (by omega)

end Telling

end refract.codec.responses
