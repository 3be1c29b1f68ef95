import Refract.Codec.Counts
import Refract.Json.Text
import Refract.Machine.Transducer
import Refract.Stream.Event

open refract.json refract.ir refract.stream

namespace refract.codec.messages

/-- The encoder's state. The last field counts the identifiers drawn so far. -/
structure MessagesStreamEncoder where
  started : Bool := false
  id : String := ""
  model : String := ""
  input_usage : Usage := {}
  /-- Block indices of the events and the indices written for them. -/
  remap : List (Nat × Nat) := []
  /-- The block now open in the output, with its kind. -/
  opened : Option (Nat × PartKind) := none
  next_index : Nat := 0
  usage : Usage := {}
  stop_reason : Option StopReason := none
  stop_sequence : Option String := none
  finished : Bool := false
  drawn : Nat := 0

namespace MessagesStreamEncoder

section Frames

variable (serde : Serde)

def frame (event : String) (map : Map) : SseFrame :=
  .named event (serde.to_string (.object (("type", .string event) :: map)))

def message_start_frame (id model : String) (usage : Usage) : SseFrame :=
  frame serde "message_start"
    [("message", .object
      [("id", .string id), ("type", .string "message"), ("role", .string "assistant"),
        ("model", .string model), ("content", .array []), ("stop_reason", .null),
        ("stop_sequence", .null), ("usage", encode_usage usage)])]

def block_start_frame (index : Nat) (content_block : Map) : SseFrame :=
  frame serde "content_block_start" [("index", .nat index), ("content_block", .object content_block)]

def block_delta_frame (index : Nat) (delta : Map) : SseFrame :=
  frame serde "content_block_delta" [("index", .nat index), ("delta", .object delta)]

def block_stop_frame (index : Nat) : SseFrame :=
  frame serde "content_block_stop" [("index", .nat index)]

def message_delta_frame (reason : StopReason) (stop_sequence : Option String) (usage : Usage) : SseFrame :=
  frame serde "message_delta"
    [("delta", .object
      [("stop_reason", .string (encode_stop_reason reason)),
        ("stop_sequence", (stop_sequence.map .string).getD .null)]),
      ("usage", encode_usage usage)]

def error_frame (message kind : String) : SseFrame :=
  frame serde "error" [("error", .object [("type", .string kind), ("message", .string message)])]

end Frames

/-- The empty `content_block` object of a kind. -/
def content_block : PartKind → Map
  | .text => [("type", .string "text"), ("text", .string "")]
  | .thinking => [("type", .string "thinking"), ("thinking", .string ""), ("signature", .string "")]
  | .refusal => [("type", .string "text"), ("text", .string "")]
  | .toolUse => [("type", .string "tool_use"), ("id", .string ""), ("name", .string ""), ("input", .object [])]

section Steps

variable (serde : Serde) (uuid : Nat → String) (self : MessagesStreamEncoder)

/-- Writes `message_start` once, inventing an identifier if none came. -/
def ensure_started : MessagesStreamEncoder × List SseFrame :=
  if self.started then (self, [])
  else if self.id = "" then
    let id := "msg_" ++ uuid self.drawn
    ({ self with started := true, id, drawn := self.drawn + 1 },
      [message_start_frame serde id self.model self.input_usage])
  else
    ({ self with started := true }, [message_start_frame serde self.id self.model self.input_usage])

/-- The written index of a block, the next free one when it is new. -/
def anth_index (ir_index : Nat) : MessagesStreamEncoder × Nat :=
  match self.remap.lookup ir_index with
  | some mapped => (self, mapped)
  | none =>
    ({ self with remap := self.remap ++ [(ir_index, self.next_index)], next_index := self.next_index + 1 },
      self.next_index)

def close_open : MessagesStreamEncoder × List SseFrame :=
  match self.opened with
  | some (index, _) => ({ self with opened := none }, [block_stop_frame serde index])
  | none => (self, [])

/-- Leaves a block of the given kind open, closing any other first. -/
def open_block (ir_index : Nat) (kind : PartKind) : MessagesStreamEncoder × Nat × List SseFrame :=
  let (self, opening) := self.ensure_started serde uuid
  let (self, index) := self.anth_index ir_index
  if self.opened = some (index, kind) then (self, index, opening)
  else
    let (self, closing) := self.close_open serde
    ({ self with opened := some (index, kind) }, index,
      opening ++ closing ++ [block_start_frame serde index (content_block kind)])

/-- Opens a tool block with its identifier and name, closing any open block,
    one of the same index included. -/
def open_tool_block (ir_index : Nat) (id name : String) : MessagesStreamEncoder × Nat × List SseFrame :=
  let (self, opening) := self.ensure_started serde uuid
  let (self, index) := self.anth_index ir_index
  let (self, closing) := self.close_open serde
  let (self, id) :=
    if id = "" then ({ self with drawn := self.drawn + 1 }, "toolu_" ++ uuid self.drawn) else (self, id)
  ({ self with opened := some (index, .toolUse) }, index,
    opening ++ closing ++ [block_start_frame serde index
      [("type", .string "tool_use"), ("id", .string id), ("name", .string name), ("input", .object [])]])

/-- Closes the open block and ends the message. -/
def wrap_up : MessagesStreamEncoder × List SseFrame :=
  if self.finished then (self, [])
  else
    let (self, opening) := { self with finished := true }.ensure_started serde uuid
    let (self, closing) := self.close_open serde
    (self, opening ++ closing ++
      [message_delta_frame serde (self.stop_reason.getD .stop) self.stop_sequence self.usage,
        frame serde "message_stop" []])

/-- Writes one delta into a block of the given kind. -/
def write_delta (ir_index : Nat) (kind : PartKind) (delta : Map) : MessagesStreamEncoder × List SseFrame :=
  let (self, index, frames) := self.open_block serde uuid ir_index kind
  (self, frames ++ [block_delta_frame serde index delta])

/-- A fragment without its call start opens a block without a name. -/
def write_fragment (ir_index : Nat) (fragment : String) : MessagesStreamEncoder × List SseFrame :=
  let (self, mapped) := self.anth_index ir_index
  let delta : Map := [("type", .string "input_json_delta"), ("partial_json", .string fragment)]
  if self.opened = some (mapped, .toolUse) then (self, [block_delta_frame serde mapped delta])
  else
    let (self, index, frames) := self.open_tool_block serde uuid ir_index "" ""
    (self, frames ++ [block_delta_frame serde index delta])

def stop_block (ir_index : Nat) : MessagesStreamEncoder × List SseFrame :=
  let (self, index) := self.anth_index ir_index
  if self.opened.map Prod.fst = some index then self.close_open serde else (self, [])

/-- Nothing is written once the message has ended. -/
def encode (event : StreamEvent) : MessagesStreamEncoder × List SseFrame :=
  if self.finished then (self, [])
  else
    match event with
    | .start id model usage =>
      let self := if self.started then self
        else { self with
          id, model
          input_usage := usage.getD self.input_usage
          usage := usage.getD self.usage }
      self.ensure_started serde uuid
    | .contentStart index kind =>
      if kind = .toolUse then (self, [])
      else
        let (self, _, frames) := self.open_block serde uuid index kind
        (self, frames)
    | .textDelta index text =>
      self.write_delta serde uuid index .text [("type", .string "text_delta"), ("text", .string text)]
    | .refusalDelta index text =>
      self.write_delta serde uuid index .refusal [("type", .string "text_delta"), ("text", .string text)]
    | .thinkingDelta index text =>
      self.write_delta serde uuid index .thinking [("type", .string "thinking_delta"), ("thinking", .string text)]
    | .thinkingSignature index signature =>
      self.write_delta serde uuid index .thinking
        [("type", .string "signature_delta"), ("signature", .string signature)]
    | .toolCallStart index id name _ =>
      let (self, _, frames) := self.open_tool_block serde uuid index id name
      (self, frames)
    | .toolCallArgsDelta index fragment => self.write_fragment serde uuid index fragment
    | .contentStop index => self.stop_block serde index
    | .usage usage => ({ self with usage := self.usage.merge_max usage }, [])
    | .stop reason stop_sequence =>
      ({ self with stop_reason := some reason, stop_sequence := stop_sequence.or self.stop_sequence }, [])
    | .done => self.wrap_up serde uuid
    | .ping => (self, [frame serde "ping" []])
    | .error message kind => ({ self with finished := true }, [error_frame serde message kind])

end Steps

end MessagesStreamEncoder

def stream_encoder (serde : Serde) (uuid : Nat → String) :
    machine.Transducer MessagesStreamEncoder StreamEvent SseFrame where
  init := {}
  step := MessagesStreamEncoder.encode serde uuid
  finish := MessagesStreamEncoder.wrap_up serde uuid

end refract.codec.messages
