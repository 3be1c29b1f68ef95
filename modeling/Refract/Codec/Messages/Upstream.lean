import Refract.Codec.Messages.Decoder
import Refract.Codec.Messages.Response
import Refract.Codec.Responses.Agreement
import Refract.Machine.Vec

open refract.json refract.ir refract.machine refract.stream
open refract.codec.responses (StreamedBlock block_events fragment_event absorb_blocks into_content_of_numbered)

namespace refract.codec.messages

/-- What a frame says: the name of its event, and the members of its payload. -/
abbrev Notice := String × Map

/-- The payload of a frame. -/
def payload (notice : Notice) : Value := .object (("type", .string notice.1) :: notice.2)

/-- A frame says a notice, under the name of its event or under none. -/
structure Bears (serde : Serde) (frame : SseFrame) (notice : Notice) : Prop where
  event : frame.event = none ∨ frame.event = some notice.1
  payload : serde.from_str (trim frame.data) = some (payload notice)

/-- A block as an upstream streams it: what its start carries already, and what comes after that. -/
inductive SentBlock where
  | text (carried : String) (fragments : List String)
  | thinking (carried : String) (signed : Option String) (fragments : List String) (signature : Option String)
  | redacted (data : String)
  | toolUse (id name : String) (carried : Map) (fragments : List String)

/-- The delta of a fragment. -/
def fragment_delta (kind : PartKind) (text : String) : Map :=
  match kind with
  | .text | .refusal => [("type", .string "text_delta"), ("text", .string text)]
  | .thinking => [("type", .string "thinking_delta"), ("thinking", .string text)]
  | .toolUse => [("type", .string "input_json_delta"), ("partial_json", .string text)]

def signature_delta (signature : String) : Map := [("type", .string "signature_delta"), ("signature", .string signature)]

def start_notice (index : Nat) (content_block : Map) : Notice :=
  ("content_block_start", [("index", .nat index), ("content_block", .object content_block)])

def delta_notice (index : Nat) (delta : Map) : Notice :=
  ("content_block_delta", [("index", .nat index), ("delta", .object delta)])

def stop_notice (index : Nat) : Notice := ("content_block_stop", [("index", .nat index)])

namespace SentBlock

def kind : SentBlock → PartKind
  | .text _ _ => .text
  | .thinking _ _ _ _ | .redacted _ => .thinking
  | .toolUse _ _ _ _ => .toolUse

/-- The block as its start has it, in the form of a block of a response. -/
def content_block : SentBlock → Map
  | .text carried _ => [("type", .string "text"), ("text", .string carried)]
  | .thinking carried signed _ _ =>
    [("type", .string "thinking"), ("thinking", .string carried)] ++ optional_str "signature" signed
  | .redacted data => [("type", .string "redacted_thinking"), ("data", .string data)]
  | .toolUse id name carried _ =>
    [("type", .string "tool_use"), ("id", .string id), ("name", .string name), ("input", .object carried)]

def fragments : SentBlock → List String
  | .text _ fragments | .thinking _ _ fragments _ | .toolUse _ _ _ fragments => fragments
  | .redacted _ => []

def signature : SentBlock → Option String
  | .thinking _ _ _ signature => signature
  | _ => none

variable (block : SentBlock) (index : Nat)

/-- The deltas of a block: its fragments, and its signature after them. -/
def deltas : List Map :=
  block.fragments.map (fragment_delta block.kind) ++ (block.signature.map signature_delta).toList

/-- The frames that tell of a block. -/
def notices : List Notice :=
  start_notice index block.content_block :: block.deltas.map (delta_notice index) ++ [stop_notice index]

end SentBlock

/-- The frames that tell of some blocks. -/
def block_notices (blocks : List SentBlock) (first : Nat) : List Notice :=
  (blocks.zipIdx first).flatMap fun (block, index) => block.notices index

/-- The frames of a stream: it starts, its blocks come one after another, and it ends. -/
def upstream (opening : Map) (blocks : List SentBlock) (ending : Map) : List Notice :=
  ("message_start", opening) :: block_notices blocks 0 ++ [("message_delta", ending), ("message_stop", [])]

/-- A block sends a part of an answer whole. What the deltas say of a signature or an input replaces what the
    start says. -/
inductive Sends (serde : Serde) : SentBlock → ContentPart → Prop
  | text (carried : String) (fragments : List String) :
    Sends serde (.text carried fragments) (.text (carried ++ String.join fragments))
  | thinking (carried : String) (signed : Option String) (fragments : List String) (signature : Option String) :
    Sends serde (.thinking carried signed fragments signature)
      (.thinking (carried ++ String.join fragments) (signature.or (signed.filter (· ≠ ""))))
  | redacted (data : String) : Sends serde (.redacted data) (.redactedThinking data)
  | toolUse (id name : String) (carried : Map) (fragments : List String) (input : Value)
      (h : trim (String.join fragments) = "" ∧ input = .object carried ∨ serde.from_str (String.join fragments) = some input) :
    Sends serde (.toolUse id name carried fragments) (.toolUse id name input none)

/-- The block says something, and its start carries nothing but text that no delta tells. -/
def SentBlock.Kept : SentBlock → Prop
  | .text carried fragments => carried ++ String.join fragments ≠ ""
  | .thinking carried signed fragments signature =>
    signature = none → signed.filter (· ≠ "") = none ∧ carried ++ String.join fragments ≠ ""
  | .redacted _ => False
  | .toolUse _ _ carried fragments => carried = [] ∨ trim (String.join fragments) ≠ ""

namespace SentBlock

/-- The text that a start carries, as a first fragment. -/
def opening : SentBlock → List String
  | .text carried _ | .thinking carried _ _ _ => if carried = "" then [] else [carried]
  | _ => []

/-- What the decoder hears of a block: of all that a start carries, it takes the text alone. -/
def heard (block : SentBlock) : StreamedBlock :=
  match block with
  | .text _ fragments => .text (block.opening ++ fragments)
  | .thinking _ _ fragments signature => .thinking (block.opening ++ fragments) signature
  | .redacted _ => .thinking [] none
  | .toolUse id name _ fragments => .toolUse id name fragments

variable (block : SentBlock)

theorem kind_heard : block.heard.kind = block.kind := by cases block <;> rfl

theorem fragments_heard : block.heard.fragments = block.opening ++ block.fragments := by cases block <;> rfl

theorem signature_heard : block.heard.signature = block.signature := by cases block <;> rfl

end SentBlock

namespace MessagesStreamDecoder

/-- The decoder of what frames say. -/
def notice_decoder : Transducer MessagesStreamDecoder Notice StreamEvent where
  init := {}
  step self notice := self.decode_event notice.1 (payload notice)
  finish := finish

/-- A frame is decoded by what it says. -/
theorem decode_of_bears {serde : Serde} (hserde : serde.Lawful) (self : MessagesStreamDecoder) {frame : SseFrame} {notice : Notice}
    (h : Bears serde frame notice) : self.decode serde frame = self.decode_event notice.1 (payload notice) := by
  obtain ⟨hevent, hpayload⟩ := h
  have hsaid : ∀ text, serde.from_str text = none → trim frame.data ≠ text := by
    intro text htext heq
    rw [heq, htext] at hpayload
    cases hpayload
  have hname : event_name frame (payload notice) = notice.1 := by
    rcases hevent with hevent | hevent
    · rw [event_name, hevent]
      rfl
    · rw [event_name, hevent]
      rfl
  rw [decode, if_neg (hsaid "" hserde.from_str_empty), if_neg (hsaid "[DONE]" hserde.from_str_done), hpayload]
  dsimp only
  rw [hname]

/-- A decoder that has read of some blocks. -/
def reading (count : Nat) : MessagesStreamDecoder where
  started := List.range count

theorem block_index_eq {value : Value} {index : Nat} (h : value.get "index" = some (.nat index)) (hroom : index < 4294967296) :
    block_index value = index := by
  rw [block_index, h, Option.bind_some, Value.as_u64_nat_of_lt (by omega), Option.getD_some]
  exact Nat.min_eq_left (show index ≤ 4294967295 by omega)

section Blocks

variable {index : Nat} (hroom : index < 4294967296)

include hroom

/-- A start is read as the start of its block, with the text it carries. -/
theorem reads_start (block : SentBlock) :
    notice_decoder.Passes (reading index) [start_notice index block.content_block]
      (.contentStart index block.kind :: block.heard.call_events index ++ block.opening.map (fragment_event block.kind index))
      (reading (index + 1)) := by
  have hindex : block_index (payload (start_notice index block.content_block)) = index := block_index_eq rfl hroom
  have hnew : index ∉ List.range index := by simp
  have hstarted : (if index ∈ (reading index).started then (reading index).started else (reading index).started ++ [index]) =
      (reading (index + 1)).started := by
    rw [reading, if_neg hnew, reading, List.range_succ]
  refine .single ?_
  change (reading index).decode_content_block_start (payload (start_notice index block.content_block)) = _
  unfold decode_content_block_start
  rw [hindex]
  dsimp only
  rw [hstarted]
  refine Prod.ext rfl ?_
  have hopening : ∀ (carried : String) (event : String → StreamEvent),
      (((some carried).filter (· ≠ "")).map event).toList = (if carried = "" then [] else [carried]).map event := by
    intro carried event
    by_cases hempty : carried = "" <;> simp [Option.filter, hempty]
  cases block with
  | text carried fragments =>
    refine (List.append_nil _).trans ?_
    exact congrArg (StreamEvent.contentStart index .text :: ·) (hopening carried (StreamEvent.textDelta index))
  | thinking carried signed fragments signature =>
    refine congrArg (StreamEvent.contentStart index .thinking :: ·) (Eq.trans ?_ (hopening carried (StreamEvent.thinkingDelta index)))
    cases signed with
    | none => rfl
    | some signature => rfl
  | redacted data => rfl
  | toolUse id name carried fragments => rfl

/-- A delta of a block whose start is known is read as one event. -/
theorem reads_delta {delta : Map} {kind : PartKind} {event : Nat → StreamEvent}
    (hdelta : ∀ (self : MessagesStreamDecoder) (index : Nat), self.decode_content_block_delta (payload (delta_notice index delta)) =
      let place := block_index (payload (delta_notice index delta))
      ((self.ensure_started place kind).1, (self.ensure_started place kind).2 ++ [event place])) :
    notice_decoder.Passes (reading (index + 1)) [delta_notice index delta] [event index] (reading (index + 1)) := by
  have hknown : index ∈ (reading (index + 1)).started := List.mem_range.mpr (Nat.lt_succ_self index)
  have hindex : block_index (payload (delta_notice index delta)) = index := block_index_eq rfl hroom
  have hensured : (reading (index + 1)).ensure_started index kind = (reading (index + 1), []) := if_pos hknown
  refine .single ((hdelta _ index).trans ?_)
  rw [hindex]
  dsimp only
  rw [hensured]
  rfl

/-- Fragments are read one after another. -/
theorem reads_fragments {kind : PartKind} (hkind : kind ≠ .refusal) (fragments : List String) :
    notice_decoder.Passes (reading (index + 1)) ((fragments.map (fragment_delta kind)).map (delta_notice index))
      (fragments.map (fragment_event kind index)) (reading (index + 1)) := by
  have hone : ∀ text, notice_decoder.Passes (reading (index + 1)) [delta_notice index (fragment_delta kind text)]
      [fragment_event kind index text] (reading (index + 1)) := by
    intro text
    refine @reads_delta index hroom _ kind (fragment_event kind · text) fun self index => ?_
    cases kind with
    | refusal => exact absurd rfl hkind
    | _ => rfl
  induction fragments with
  | nil => exact .nil _ _
  | cons text fragments ih => exact (hone text).append ih

/-- So is a signature. -/
theorem reads_signature (signature : Option String) :
    notice_decoder.Passes (reading (index + 1)) ((signature.map signature_delta).toList.map (delta_notice index))
      (signature.map (.thinkingSignature index)).toList (reading (index + 1)) := by
  cases signature with
  | none => exact .nil _ _
  | some signature => exact @reads_delta index hroom _ .thinking (.thinkingSignature · signature) fun _ _ => rfl

/-- The frames of a block are read as its events. -/
theorem reads_block (block : SentBlock) :
    notice_decoder.Passes (reading index) (block.notices index) (block.heard.events index) (reading (index + 1)) := by
  have hkind : block.kind ≠ .refusal := by cases block <;> exact fun h => PartKind.noConfusion h
  have hstop : notice_decoder.Passes (reading (index + 1)) [stop_notice index] [.contentStop index] (reading (index + 1)) := by
    have hindex : block_index (payload (stop_notice index)) = index := block_index_eq rfl hroom
    exact .single (congrArg (fun place => (reading (index + 1), [StreamEvent.contentStop place])) hindex)
  have hall := (((reads_start hroom block).append (reads_fragments hroom hkind block.fragments)).append
    (reads_signature hroom block.signature)).append hstop
  rw [StreamedBlock.events, block.kind_heard, block.fragments_heard, block.signature_heard, SentBlock.notices, SentBlock.deltas,
    List.map_append, List.map_append]
  simp only [List.cons_append, List.append_assoc, List.nil_append] at hall ⊢
  exact hall

end Blocks

/-- The frames of some blocks are read as their events. -/
theorem reads_blocks (blocks : List SentBlock) (count : Nat) (hroom : count + blocks.length ≤ 4294967296) :
    notice_decoder.Passes (reading count) (block_notices blocks count) (block_events (blocks.map SentBlock.heard) count)
      (reading (count + blocks.length)) := by
  induction blocks generalizing count with
  | nil => exact .nil _ _
  | cons block blocks ih =>
    rw [List.length_cons] at hroom
    have hrest := ih (count + 1) (by omega)
    rw [Nat.add_assoc, Nat.add_comm 1] at hrest
    exact (reads_block (by omega) block).append hrest

/-- A stream is read as its start, the events of its blocks, and its end. -/
theorem outputs_upstream {serde : Serde} (hserde : serde.Lawful) {opening ending : Map} {blocks : List SentBlock} {frames : List SseFrame}
    (hframes : List.Forall₂ (Bears serde) frames (upstream opening blocks ending)) (hroom : blocks.length ≤ 4294967296) :
    (stream_decoder serde).outputs frames =
      decode_message_start (payload ("message_start", opening)) ++ block_events (blocks.map SentBlock.heard) 0 ++
        decode_message_delta (payload ("message_delta", ending)) ++ [.done] := by
  have hopening : notice_decoder.Passes {} [("message_start", opening)] (decode_message_start (payload ("message_start", opening)))
      (reading 0) := .single rfl
  have hblocks := reads_blocks blocks 0 (by omega)
  have hending : ∀ count, notice_decoder.Passes (reading count) [("message_delta", ending), ("message_stop", [])]
      (decode_message_delta (payload ("message_delta", ending)) ++ [.done]) { reading count with done := true } := fun count =>
    (Transducer.Passes.single rfl).append (.single rfl)
  have hall := (hopening.append hblocks).append (hending _)
  have hstep : ∀ (self : MessagesStreamDecoder) (frame : SseFrame) (notice : Notice), Bears serde frame notice →
      (stream_decoder serde).step self frame = notice_decoder.step self notice := by
    intro self frame notice h
    rw [stream_decoder_step]
    exact decode_of_bears hserde self h
  have hsame : (stream_decoder serde).outputs frames = notice_decoder.outputs (upstream opening blocks ending) :=
    Transducer.outputs_related rfl rfl hstep hframes
  rw [hsame]
  refine (Transducer.Passes.outputs hall).trans ?_
  rw [List.append_assoc _ (decode_message_delta _)]
  exact List.append_nil _

end MessagesStreamDecoder

/-- What an aggregator makes of the frames of a stream. -/
def aggregated (serde : Serde) (frames : List SseFrame) : StreamAggregator :=
  ({} : StreamAggregator).absorb_all ((stream_decoder serde).outputs frames)

section Upstream

variable {serde : Serde} {opening ending : Map} {blocks : List SentBlock} {frames : List SseFrame}

/-- What comes before and after its blocks adds nothing to the content of a stream. -/
theorem content_aggregated (hserde : serde.Lawful) (hframes : List.Forall₂ (Bears serde) frames (upstream opening blocks ending))
    (hroom : blocks.length ≤ 4294967296) :
    (aggregated serde frames).into_content serde = blocks.filterMap fun block => block.heard.accum.render serde := by
  have hbelow : Blocks.Below [] 0 := by
    intro entry hentry
    cases hentry
  have hending : ∀ others : Blocks, (MessagesStreamDecoder.decode_message_delta (payload ("message_delta", ending))).foldl Blocks.absorb others =
      others := by
    intro others
    unfold MessagesStreamDecoder.decode_message_delta
    rw [List.foldl_append]
    cases (payload ("message_delta", ending)).get "usage" <;>
      cases ((payload ("message_delta", ending)).get "delta").bind (·.get_str "stop_reason") <;> rfl
  rw [aggregated, StreamAggregator.into_content, StreamAggregator.absorb_all_blocks,
    MessagesStreamDecoder.outputs_upstream hserde hframes hroom, List.foldl_append, List.foldl_append, List.foldl_append, hending]
  refine (congrArg (Blocks.into_content serde) (absorb_blocks hbelow (blocks.map SentBlock.heard))).trans ?_
  rw [List.nil_append, into_content_of_numbered, List.filterMap_map]
  rfl

theorem join_opening (carried : String) (fragments : List String) :
    String.join ((if carried = "" then [] else [carried]) ++ fragments) = carried ++ String.join fragments := by
  split
  next hempty => rw [hempty, List.nil_append, String.empty_append]
  next => rw [List.singleton_append, String.join_cons]

/-- The input of a call is heard as the deltas tell it, and is empty where they do not. -/
theorem input_heard (hblank : serde.RejectsBlank) {carried : Map} {text : String} {input : Value}
    (h : trim text = "" ∧ input = .object carried ∨ serde.from_str text = some input) :
    (if trim text = "" then .object [] else (serde.from_str text).getD (.string text)) = input ↔ carried = [] ∨ trim text ≠ "" := by
  rcases h with ⟨hempty, rfl⟩ | hread
  · rw [if_pos hempty, Value.object.injEq]
    exact ⟨fun heq => .inl heq.symm, fun h => h.elim Eq.symm fun hne => absurd hempty hne⟩
  · have hne : trim text ≠ "" := by
      intro hempty
      rw [hblank text hempty] at hread
      cases hread
    rw [if_neg hne, hread]
    exact ⟨fun _ => .inr hne, fun _ => rfl⟩

/-- A part that a block sends is heard exactly where the block is kept. -/
theorem Sends.render_iff (hblank : serde.RejectsBlank) {block : SentBlock} {part : ContentPart} (h : Sends serde block part) :
    block.heard.accum.render serde = some part ↔ block.Kept := by
  cases h with
  | text carried fragments =>
    have htext : (SentBlock.text carried fragments).heard.accum = .text (carried ++ String.join fragments) :=
      congrArg BlockAccum.text (join_opening carried fragments)
    rw [htext, BlockAccum.render, SentBlock.Kept]
    split
    next hempty => exact ⟨fun hrender => (by cases hrender), fun hne => absurd hempty hne⟩
    next hne => exact ⟨fun _ => hne, fun _ => rfl⟩
  | thinking carried signed fragments signature =>
    have htext : (SentBlock.thinking carried signed fragments signature).heard.accum =
        .thinking (carried ++ String.join fragments) signature :=
      congrArg (BlockAccum.thinking · signature) (join_opening carried fragments)
    rw [htext, BlockAccum.render, SentBlock.Kept]
    cases signature with
    | some signature =>
      rw [if_neg fun hsilent => by cases hsilent.2]
      exact ⟨fun _ hnone => (by cases hnone), fun _ => rfl⟩
    | none =>
      rw [Option.none_or]
      constructor
      · intro hrender _
        split at hrender
        next => cases hrender
        next hne =>
          obtain ⟨-, hsigned⟩ := ContentPart.thinking.inj (Option.some.inj hrender)
          exact ⟨hsigned.symm, fun hempty => hne ⟨hempty, rfl⟩⟩
      · intro hkept
        obtain ⟨hsigned, htold⟩ := hkept rfl
        rw [if_neg fun h => htold h.1, hsigned]
  | redacted data => exact ⟨fun hrender => (by cases hrender), False.elim⟩
  | toolUse id name carried fragments input h =>
    rw [SentBlock.Kept, ← input_heard hblank h]
    constructor
    · intro hrender
      exact (ContentPart.toolUse.inj (Option.some.inj hrender)).2.2.1
    · intro hinput
      exact congrArg (fun input => some (ContentPart.toolUse id name input none)) hinput

/-- A stream loses nothing exactly where all its blocks are kept. -/
theorem content_aggregated_iff (hserde : serde.Lawful) (hblank : serde.RejectsBlank) {parts : List ContentPart}
    (hsends : List.Forall₂ (Sends serde) blocks parts) (hroom : blocks.length ≤ 4294967296)
    (hframes : List.Forall₂ (Bears serde) frames (upstream opening blocks ending)) :
    (aggregated serde frames).into_content serde = parts ↔ ∀ block ∈ blocks, block.Kept := by
  rw [content_aggregated hserde hframes hroom, filterMap_eq_iff hsends.length_eq]
  exact forall₂_iff_forall hsends fun block part h => h.render_iff hblank

end Upstream

end refract.codec.messages
