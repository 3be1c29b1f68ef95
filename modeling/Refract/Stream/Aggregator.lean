import Refract.Json.Text
import Refract.Machine.Numbering
import Refract.Stream.Event

open refract.json refract.ir refract.machine

namespace refract.stream

/-- A content block while it comes in. -/
inductive BlockAccum where
  | text (text : String)
  | thinking (text : String) (signature : Option String)
  | toolUse (id name args : String) (signature : Option String)
  | refusal (text : String)
  deriving DecidableEq, Repr

namespace BlockAccum

def kind : BlockAccum → PartKind
  | .text _ => .text
  | .thinking _ _ => .thinking
  | .toolUse _ _ _ _ => .toolUse
  | .refusal _ => .refusal

/-- An empty block. -/
def fresh : PartKind → BlockAccum
  | .text => .text ""
  | .thinking => .thinking "" none
  | .toolUse => .toolUse "" "" "" none
  | .refusal => .refusal ""

@[simp] theorem kind_fresh (kind : PartKind) : (fresh kind).kind = kind := by cases kind <;> rfl

def push_str (fragment : String) : BlockAccum → BlockAccum
  | .text s => .text (s ++ fragment)
  | .thinking s signature => .thinking (s ++ fragment) signature
  | .toolUse id name args signature => .toolUse id name (args ++ fragment) signature
  | .refusal s => .refusal (s ++ fragment)

def sign (signature : String) : BlockAccum → BlockAccum
  | .thinking s _ => .thinking s (some signature)
  | block => block

/-- Takes over what is known of a call by now. -/
def announce (id name : String) (signature : Option String) : BlockAccum → BlockAccum
  | .toolUse old_id old_name args old_signature =>
    .toolUse (if id = "" then old_id else id) (if name = "" then old_name else name) args (signature.or old_signature)
  | block => block

variable (block : BlockAccum)

@[simp] theorem kind_push_str (fragment : String) : (block.push_str fragment).kind = block.kind := by cases block <;> rfl

@[simp] theorem kind_sign (signature : String) : (block.sign signature).kind = block.kind := by cases block <;> rfl

@[simp] theorem kind_announce (id name : String) (signature : Option String) :
    (block.announce id name signature).kind = block.kind := by
  cases block <;> rfl

/-- The content a block comes to, if it comes to any. Arguments that are no JSON
    are kept as text. -/
def render (serde : Serde) : BlockAccum → Option ContentPart
  | .text s => if s = "" then none else some (.text s)
  | .thinking s signature => if s = "" ∧ signature = none then none else some (.thinking s signature)
  | .toolUse id name args signature =>
    let input := if trim args = "" then .object [] else (serde.from_str args).getD (.string args)
    some (.toolUse id name input signature)
  | .refusal s => if s = "" then none else some (.refusal s)

end BlockAccum

/-- The blocks of a stream, each under its index and its kind. -/
abbrev Blocks := List (Nat × BlockAccum)

namespace Blocks

def key (entry : Nat × BlockAccum) : Nat × PartKind := (entry.1, entry.2.kind)

/-- Changes the block of an index and a kind, which is opened if there is none. -/
def edit (blocks : Blocks) (index : Nat) (kind : PartKind) (f : BlockAccum → BlockAccum) : Blocks :=
  upsert key (index, kind) (index, .fresh kind) (fun entry => (entry.1, f entry.2)) blocks

/-- What an event adds to the blocks. -/
def absorb (blocks : Blocks) : StreamEvent → Blocks
  | .contentStart index kind => blocks.edit index kind id
  | .textDelta index text => blocks.edit index .text (·.push_str text)
  | .thinkingDelta index text => blocks.edit index .thinking (·.push_str text)
  | .thinkingSignature index signature => blocks.edit index .thinking (·.sign signature)
  | .refusalDelta index text => blocks.edit index .refusal (·.push_str text)
  | .toolCallStart index id name signature => blocks.edit index .toolUse (·.announce id name signature)
  | .toolCallArgsDelta index fragment => blocks.edit index .toolUse (·.push_str fragment)
  | _ => blocks

/-- The content of the blocks: by index, and in the order of their coming under
    one index. -/
def into_content (serde : Serde) (blocks : Blocks) : List ContentPart :=
  (blocks.mergeSort fun a b => a.1 ≤ b.1).filterMap (·.2.render serde)

/-- Every block lies below an index. -/
def Below (blocks : Blocks) (index : Nat) : Prop := ∀ entry ∈ blocks, entry.1 < index

variable {blocks : Blocks} {index : Nat} {kind : PartKind} {f : BlockAccum → BlockAccum}

theorem Below.key_ne (h : blocks.Below index) : ∀ entry ∈ blocks, key entry ≠ (index, kind) := by
  intro entry hentry heq
  have hlt := h entry hentry
  have hindex : entry.1 = index := congrArg Prod.fst heq
  omega

theorem Below.edit (h : blocks.Below index) : blocks.edit index kind f = blocks ++ [(index, f (.fresh kind))] :=
  upsert_absent h.key_ne

theorem Below.edit_last (h : blocks.Below index) {block : BlockAccum} (hkind : block.kind = kind) :
    Blocks.edit (blocks ++ [(index, block)]) index kind f = blocks ++ [(index, f block)] :=
  upsert_last (a := (index, block)) h.key_ne (by rw [key, hkind])

/-- Blocks whose indices never fall are rendered in their order. -/
theorem into_content_of_ordered (serde : Serde) (h : blocks.Pairwise fun a b => a.1 ≤ b.1) :
    blocks.into_content serde = blocks.filterMap (·.2.render serde) := by
  rw [into_content, List.mergeSort_of_pairwise (by simpa using h)]

end Blocks

namespace StreamEvent

/-- The reason a stop gives. -/
def stop_reason : StreamEvent → Option StopReason
  | .stop reason _ => some reason
  | _ => none

/-- The counts an event reports. -/
def snapshot : StreamEvent → Option Usage
  | .start _ _ counts => counts
  | .usage counts => some counts
  | _ => none

/-- An event of a block says nothing about the stream as a whole. -/
theorem of_index {event : StreamEvent} (h : event.index.isSome = true) : event.stop_reason = none ∧ event.snapshot = none := by
  cases event <;> first | cases h; done | exact ⟨rfl, rfl⟩

end StreamEvent

/-- What a stream has said so far. -/
structure StreamAggregator where
  id : String := ""
  model : String := ""
  stop_reason : Option StopReason := none
  stop_sequence : Option String := none
  usage : Usage := {}
  blocks : Blocks := []

namespace StreamAggregator

/-- Takes an event in. Of the counts every snapshot leaves the larger one. -/
def absorb (self : StreamAggregator) (event : StreamEvent) : StreamAggregator :=
  let self := { self with blocks := self.blocks.absorb event }
  match event with
  | .start id model usage => { self with id, model, usage := self.usage.merge_max (usage.getD {}) }
  | .usage usage => { self with usage := self.usage.merge_max usage }
  | .stop reason stop_sequence =>
    { self with stop_reason := some reason, stop_sequence := stop_sequence.or self.stop_sequence }
  | _ => self

/-- What a list of events says. -/
def absorb_all (self : StreamAggregator) (events : List StreamEvent) : StreamAggregator := events.foldl absorb self

def into_content (serde : Serde) (self : StreamAggregator) : List ContentPart := self.blocks.into_content serde

variable (self : StreamAggregator) (event : StreamEvent) (events : List StreamEvent)

@[simp] theorem absorb_blocks : (self.absorb event).blocks = self.blocks.absorb event := by
  cases event <;> rfl

@[simp] theorem absorb_all_nil : self.absorb_all [] = self := rfl

@[simp] theorem absorb_all_cons : self.absorb_all (event :: events) = (self.absorb event).absorb_all events := rfl

/-- The blocks are made of the events alone. -/
theorem absorb_all_blocks : (self.absorb_all events).blocks = events.foldl Blocks.absorb self.blocks := by
  induction events generalizing self with
  | nil => rfl
  | cons event events ih => rw [absorb_all_cons, ih, absorb_blocks, List.foldl_cons]

/-- The reason of the last stop counts. -/
theorem absorb_all_stop_reason :
    (self.absorb_all events).stop_reason =
      (events.filterMap StreamEvent.stop_reason).getLast?.or self.stop_reason := by
  induction events generalizing self with
  | nil => rfl
  | cons event events ih =>
    rw [absorb_all_cons, ih]
    cases event with
    | stop reason stop_sequence =>
      simp only [absorb, List.filterMap_cons, StreamEvent.stop_reason, List.getLast?_cons]
      cases (events.filterMap StreamEvent.stop_reason).getLast? <;> rfl
    | _ => rfl

/-- The counts of a stream are the largest it reported. -/
theorem absorb_all_usage :
    (self.absorb_all events).usage =
      (events.filterMap StreamEvent.snapshot).foldl Usage.merge_max self.usage := by
  induction events generalizing self with
  | nil => rfl
  | cons event events ih =>
    rw [absorb_all_cons, ih]
    cases event with
    | start id model counts => cases counts <;> simp [absorb, List.filterMap_cons, StreamEvent.snapshot]
    | usage usage => rfl
    | _ => rfl

end StreamAggregator

end refract.stream
