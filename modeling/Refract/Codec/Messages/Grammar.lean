import Refract.Json.Text
import Refract.Stream.Event

open refract.json refract.stream

namespace refract.codec.messages

/-- What a client reads off a frame of the stream: the kind of its event, and
    the block it names. -/
inductive Token where
  | messageStart
  | blockStart (index : Nat)
  | blockDelta (index : Nat)
  | blockStop (index : Nat)
  | messageDelta
  | messageStop
  | ping
  | error
  | unknown
  deriving DecidableEq, Repr

/-- The token of a block event, unknown when the payload has no index. -/
def block_token (make : Nat → Token) (value : Value) : Token :=
  match value.get "index" with
  | some (.number (.int (.ofNat index))) => make index
  | _ => .unknown

def event_token (event : String) (value : Value) : Token :=
  match event with
  | "message_start" => .messageStart
  | "content_block_start" => block_token .blockStart value
  | "content_block_delta" => block_token .blockDelta value
  | "content_block_stop" => block_token .blockStop value
  | "message_delta" => .messageDelta
  | "message_stop" => .messageStop
  | "ping" => .ping
  | "error" => .error
  | _ => .unknown

/-- The name of a frame and the type of its payload must agree. -/
def token (serde : Serde) (frame : SseFrame) : Token :=
  match frame.event, serde.from_str frame.data with
  | some event, some value => if value.get_str "type" = some event then event_token event value else .unknown
  | _, _ => .unknown

/-- A block with the given number of deltas. -/
def block (index deltas : Nat) : List Token :=
  .blockStart index :: List.replicate deltas (.blockDelta index) ++ [.blockStop index]

/-- The blocks of a message, numbered from zero. -/
def message_blocks (deltas : List Nat) : List Token :=
  deltas.zipIdx.flatMap fun (count, index) => block index count

/-- The sequence a client accepts:
    `message_start (content_block_start(i) content_block_delta(i)* content_block_stop(i))*
    message_delta message_stop` with the blocks numbered `0, 1, 2, ...`. -/
def WellFormed (tokens : List Token) : Prop :=
  ∃ deltas, tokens = .messageStart :: message_blocks deltas ++ [.messageDelta, .messageStop]

/-- Tokens that stand outside the sequence. -/
def Token.is_aside : Token → Bool
  | .ping | .error => true
  | _ => false

def sequence (tokens : List Token) : List Token := tokens.filter (!·.is_aside)

@[simp] theorem sequence_append (tokens more : List Token) :
    sequence (tokens ++ more) = sequence tokens ++ sequence more := List.filter_append _ _

/-- The index a token opens. -/
def Token.opens : Token → Option Nat
  | .blockStart index => some index
  | _ => none

section Opening

theorem filterMap_opens_block (index deltas : Nat) : (block index deltas).filterMap Token.opens = [index] := by
  have hdeltas : (List.replicate deltas (Token.blockDelta index)).filterMap Token.opens = [] := by
    rw [List.filterMap_eq_nil_iff]
    intro t ht
    rw [List.eq_of_mem_replicate ht]
    rfl
  simp [block, List.filterMap_append, hdeltas, Token.opens]

/-- The blocks of a list of indices and delta counts, one after the other. -/
def closed_blocks (closed : List (Nat × Nat)) : List Token := closed.flatMap fun b => block b.1 b.2

theorem filterMap_opens_closed (closed : List (Nat × Nat)) :
    (closed_blocks closed).filterMap Token.opens = closed.map Prod.fst := by
  induction closed with
  | nil => rfl
  | cons b closed ih =>
    rw [closed_blocks, List.flatMap_cons, List.filterMap_append, filterMap_opens_block]
    simpa [closed_blocks] using ih

theorem message_blocks_eq (deltas : List Nat) :
    message_blocks deltas = closed_blocks (deltas.zipIdx.map Prod.swap) := by
  simp [message_blocks, closed_blocks, List.flatMap_map]

/-- A well-formed message opens its blocks in order, starting from zero. -/
theorem WellFormed.opens {tokens : List Token} (h : WellFormed tokens) :
    ∃ n, tokens.filterMap Token.opens = List.range n := by
  obtain ⟨deltas, rfl⟩ := h
  refine ⟨deltas.length, ?_⟩
  have hsnd : deltas.zipIdx.map (Prod.fst ∘ Prod.swap) = List.range deltas.length := by
    have hcomp : (Prod.fst ∘ Prod.swap : Nat × Nat → Nat) = Prod.snd := rfl
    rw [hcomp, List.zipIdx_map_snd, List.range_eq_range']
  simp only [message_blocks_eq, List.cons_append, List.filterMap_cons, List.filterMap_append,
    filterMap_opens_closed, Token.opens, List.filterMap_nil, List.append_nil, List.map_map, hsnd]

/-- A message whose blocks are complete is well formed exactly when the blocks
    are numbered in order. -/
theorem wellFormed_closed (closed : List (Nat × Nat)) :
    WellFormed (.messageStart :: closed_blocks closed ++ [.messageDelta, .messageStop]) ↔
      closed.map Prod.fst = List.range closed.length := by
  constructor
  · intro h
    obtain ⟨n, hopens⟩ := h.opens
    simp only [List.cons_append, List.filterMap_cons, List.filterMap_append, filterMap_opens_closed,
      Token.opens, List.filterMap_nil, List.append_nil] at hopens
    have hlength := congrArg List.length hopens
    rw [List.length_map, List.length_range] at hlength
    rw [hopens, hlength]
  · intro hrange
    refine ⟨closed.map Prod.snd, ?_⟩
    rw [message_blocks_eq]
    have hclosed : (closed.map Prod.snd).zipIdx.map Prod.swap = closed := by
      apply List.ext_getElem
      · simp
      · intro i hi hi'
        have hfst := congrArg (·[i]?) hrange
        simp [hi'] at hfst
        simp [Prod.ext_iff, hfst]
    rw [hclosed]

end Opening

end refract.codec.messages
