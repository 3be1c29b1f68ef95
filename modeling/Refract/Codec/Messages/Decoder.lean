import Refract.Codec.Counts
import Refract.Json.Text
import Refract.Machine.Transducer
import Refract.Stream.Event

open refract.json refract.ir refract.stream

namespace refract.codec.messages

/-- The decoder's state: the blocks it has announced, and whether it has
    reported the end. -/
structure MessagesStreamDecoder where
  started : List Nat := []
  done : Bool := false

/-- The block index of a payload, clamped to a `u32`. -/
def block_index (value : Value) : Nat :=
  min (((value.get "index").bind Value.as_u64).getD 0).val 4294967295

namespace MessagesStreamDecoder

/-- Announces a block whose start the upstream left out. -/
def ensure_started (self : MessagesStreamDecoder) (index : Nat) (kind : PartKind) :
    MessagesStreamDecoder × List StreamEvent :=
  if index ∈ self.started then (self, [])
  else ({ self with started := self.started ++ [index] }, [.contentStart index kind])

def decode_message_start (value : Value) : List StreamEvent :=
  let msg := value.get "message"
  [.start ((msg.bind (·.get_str "id")).getD "") ((msg.bind (·.get_str "model")).getD "")
    ((msg.bind (·.get "usage")).map decode_usage)]

/-- The kind of block a `content_block` object opens. -/
def start_kind (block : Option Value) : PartKind :=
  match block.bind (·.get_str "type") with
  | some "thinking" | some "redacted_thinking" => .thinking
  | some "tool_use" | some "server_tool_use" => .toolUse
  | _ => .text

/-- A block start may already carry text, which becomes a first delta. -/
def decode_content_block_start (self : MessagesStreamDecoder) (value : Value) :
    MessagesStreamDecoder × List StreamEvent :=
  let index := block_index value
  let block := value.get "content_block"
  let kind := start_kind block
  let started := if index ∈ self.started then self.started else self.started ++ [index]
  let call := if kind = .toolUse then
    [.toolCallStart index ((block.bind (·.get_str "id")).getD "") ((block.bind (·.get_str "name")).getD "") none]
    else []
  let text := (((block.bind (·.get_str "text")).filter (· ≠ "")).map (.textDelta index)).toList
  let thinking := (((block.bind (·.get_str "thinking")).filter (· ≠ "")).map (.thinkingDelta index)).toList
  ({ self with started }, .contentStart index kind :: call ++ text ++ thinking)

def decode_content_block_delta (self : MessagesStreamDecoder) (value : Value) :
    MessagesStreamDecoder × List StreamEvent :=
  let index := block_index value
  let delta := value.get "delta"
  let field (key : String) : String := (delta.bind (·.get_str key)).getD ""
  match field "type" with
  | "text_delta" =>
    let (self, opening) := self.ensure_started index .text
    (self, opening ++ [.textDelta index (field "text")])
  | "thinking_delta" =>
    let (self, opening) := self.ensure_started index .thinking
    (self, opening ++ [.thinkingDelta index (field "thinking")])
  | "signature_delta" =>
    let (self, opening) := self.ensure_started index .thinking
    (self, opening ++ [.thinkingSignature index (field "signature")])
  | "input_json_delta" =>
    let (self, opening) := self.ensure_started index .toolUse
    (self, opening ++ [.toolCallArgsDelta index (field "partial_json")])
  | _ => (self, [])

def decode_message_delta (value : Value) : List StreamEvent :=
  let delta := value.get "delta"
  ((value.get "usage").map (.usage <| decode_usage ·)).toList ++
    ((delta.bind (·.get_str "stop_reason")).map fun reason =>
      .stop (decode_stop_reason reason) (delta.bind (·.get_str "stop_sequence"))).toList

def decode_error (value : Value) : StreamEvent :=
  let err := value.get "error"
  .error ((err.bind (·.get_str "message")).getD "upstream stream error")
    ((err.bind (·.get_str "type")).getD "api_error")

/-- The events of a payload, by the name of its event. -/
def decode_event (self : MessagesStreamDecoder) (event : String) (value : Value) :
    MessagesStreamDecoder × List StreamEvent :=
  match event with
  | "message_start" => (self, decode_message_start value)
  | "content_block_start" => self.decode_content_block_start value
  | "content_block_delta" => self.decode_content_block_delta value
  | "content_block_stop" => (self, [.contentStop (block_index value)])
  | "message_delta" => (self, decode_message_delta value)
  | "message_stop" => ({ self with done := true }, [.done])
  | "ping" => (self, [.ping])
  | "error" => (self, [decode_error value])
  | _ => (self, [])

/-- The name of a frame's event: the frame's own, or else the payload's type. -/
def event_name (frame : SseFrame) (value : Value) : String :=
  (frame.event.or (value.get_str "type")).getD ""

/-- Decodes one frame. A frame that is no JSON document is skipped. -/
def decode (serde : Serde) (self : MessagesStreamDecoder) (frame : SseFrame) :
    MessagesStreamDecoder × List StreamEvent :=
  let data := trim frame.data
  if data = "" then (self, [])
  else if data = "[DONE]" then
    if self.done then (self, []) else ({ self with done := true }, [.done])
  else
    match serde.from_str data with
    | none => (self, [])
    | some value => self.decode_event (event_name frame value) value

/-- An upstream that breaks off without an end still gets one. -/
def finish (self : MessagesStreamDecoder) : MessagesStreamDecoder × List StreamEvent :=
  if self.done then (self, []) else ({ self with done := true }, [.done])

end MessagesStreamDecoder

def stream_decoder (serde : Serde) : machine.Transducer MessagesStreamDecoder SseFrame StreamEvent where
  init := {}
  step := MessagesStreamDecoder.decode serde
  finish := MessagesStreamDecoder.finish

section Steps

variable (serde : Serde)

theorem stream_decoder_init : (stream_decoder serde).init = {} := by simp only [stream_decoder]

theorem stream_decoder_step : (stream_decoder serde).step = MessagesStreamDecoder.decode serde := by simp only [stream_decoder]

theorem stream_decoder_finish : (stream_decoder serde).finish = MessagesStreamDecoder.finish := by simp only [stream_decoder]

end Steps

end refract.codec.messages
