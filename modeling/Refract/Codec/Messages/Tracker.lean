import Refract.Machine.Numbering
import Refract.Stream.Event

open refract.machine refract.stream

namespace refract.codec.messages

/-- What a list of events says about blocks: the indices mentioned so far in
    order of first mention, the index and kind of the block being written, and
    the index of every block opened. -/
structure Tracker where
  mentions : List Nat := []
  current : Option (Nat × PartKind) := none
  openings : List Nat := []

namespace Tracker

def mention (self : Tracker) (index : Nat) : Tracker := { self with mentions := note self.mentions index }

def close (self : Tracker) : Tracker := { self with current := none }

/-- Opens a new block. -/
def openAs (self : Tracker) (index : Nat) (kind : PartKind) : Tracker :=
  { self with current := some (index, kind), openings := self.openings ++ [index] }

/-- Goes on writing the current block if index and kind agree with it, and
    opens a new one otherwise. -/
def continueAs (self : Tracker) (index : Nat) (kind : PartKind) : Tracker :=
  if self.current = some (index, kind) then self else self.close.openAs index kind

def step (self : Tracker) : StreamEvent → Tracker
  | .contentStart index kind =>
    if kind = .toolUse then self else (self.mention index).continueAs index kind
  | .textDelta index _ => (self.mention index).continueAs index .text
  | .refusalDelta index _ => (self.mention index).continueAs index .refusal
  | .thinkingDelta index _ | .thinkingSignature index _ => (self.mention index).continueAs index .thinking
  | .toolCallStart index _ _ _ => (self.mention index).close.openAs index .toolUse
  | .toolCallArgsDelta index _ => (self.mention index).continueAs index .toolUse
  | .contentStop index =>
    if self.current.map Prod.fst = some index then (self.mention index).close else self.mention index
  | _ => self

@[simp] theorem close_mentions (t : Tracker) : t.close.mentions = t.mentions := rfl

@[simp] theorem openAs_mentions (t : Tracker) (index : Nat) (kind : PartKind) :
    (t.openAs index kind).mentions = t.mentions := rfl

@[simp] theorem mention_mention (t : Tracker) (index : Nat) : (t.mention index).mention index = t.mention index := by
  simp [mention]

theorem continueAs_current (t : Tracker) (index : Nat) (kind : PartKind) :
    (t.continueAs index kind).current = some (index, kind) := by
  unfold continueAs
  split
  · assumption
  · rfl

@[simp] theorem continueAs_mentions (t : Tracker) (index : Nat) (kind : PartKind) :
    (t.continueAs index kind).mentions = t.mentions := by
  unfold continueAs
  split <;> rfl

/-- The indices on record are mentioned ones. -/
structure Valid (t : Tracker) : Prop where
  nodup : t.mentions.Nodup
  current : ∀ b, t.current = some b → b.1 ∈ t.mentions
  openings : ∀ index ∈ t.openings, index ∈ t.mentions

variable {t : Tracker}

theorem Valid.mention (hvalid : t.Valid) (index : Nat) : (t.mention index).Valid where
  nodup := nodup_note hvalid.nodup
  current b hb := mem_note_of_mem (hvalid.current b hb)
  openings i hi := mem_note_of_mem (hvalid.openings i hi)

theorem Valid.close (hvalid : t.Valid) : t.close.Valid where
  nodup := hvalid.nodup
  current b hb := by cases hb
  openings := hvalid.openings

theorem Valid.openAs (hvalid : t.Valid) {index : Nat} (hindex : index ∈ t.mentions) (kind : PartKind) :
    (t.openAs index kind).Valid where
  nodup := hvalid.nodup
  current b hb := by
    cases hb
    exact hindex
  openings i hi := by
    rcases List.mem_append.mp hi with hi | hi
    · exact hvalid.openings i hi
    · rw [List.mem_singleton] at hi
      exact hi ▸ hindex

end Tracker

def track (es : List StreamEvent) : Tracker := es.foldl Tracker.step {}

@[simp] theorem track_nil : track [] = {} := rfl

@[simp] theorem track_append_singleton (es : List StreamEvent) (e : StreamEvent) :
    track (es ++ [e]) = (track es).step e := by
  simp [track, List.foldl_append]

/-- The blocks are opened in the order in which their indices are mentioned,
    and none is opened twice: the indices of the opened blocks are an initial
    part of the mentioned ones. -/
def BlocksInOrder (es : List StreamEvent) : Prop :=
  (track (live es)).openings <+: (track (live es)).mentions

instance decidableBlocksInOrder (es : List StreamEvent) : Decidable (BlocksInOrder es) := inferInstanceAs (Decidable (_ <+: _))

end refract.codec.messages
