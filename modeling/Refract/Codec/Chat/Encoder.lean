import Refract.Codec.Chat.Decoder

open refract.json refract.ir refract.machine refract.stream

namespace refract.codec.chat

structure ChatStreamEncoder where
  id : String
  model : String := ""
  created : Int
  /-- The opening chunk with the role is written. -/
  opened : Bool := false
  /-- A chunk with a finish reason is written. -/
  finished : Bool := false
  /-- The sentinel is written. -/
  done : Bool := false
  usage_sent : Bool := false
  usage : Usage := {}
  /-- Block indices of the tool calls, in order of arrival. -/
  tool_slots : List Nat := []

namespace ChatStreamEncoder

/-- The uuid and the time of the encoder's creation name its stream. -/
def new (uuid : String) (now : Int) : ChatStreamEncoder := { id := "chatcmpl-" ++ uuid, created := now }

section Frames

variable (serde : Serde) (self : ChatStreamEncoder)

/-- The members that every chunk starts with. -/
def chunk_head : Map :=
  [("id", .string self.id), ("object", .string "chat.completion.chunk"), ("created", .number (.int self.created)),
    ("model", .string self.model)]

def chunk (delta : Map) (finish : Option String) : SseFrame :=
  .ofData <| serde.to_string <| .object <| self.chunk_head ++
    [("choices", .array [.object [("index", .nat 0), ("delta", .object delta),
      ("finish_reason", (finish.map .string).getD .null)]])]

def usage_frame : SseFrame :=
  .ofData <| serde.to_string <| .object <| self.chunk_head ++
    [("choices", .array []), ("usage", usage_json self.usage)]

def done_frame : SseFrame := .ofData DONE_SENTINEL

def error_frame (message kind : String) : SseFrame :=
  .ofData <| serde.to_string <| .object
    [("error", .object [("message", .string message), ("type", .string kind)])]

end Frames

section Steps

variable (serde : Serde) (self : ChatStreamEncoder)

/-- Writes the opening chunk once. -/
def openStream : ChatStreamEncoder × List SseFrame :=
  if self.opened then (self, [])
  else
    ({ self with opened := true },
      [self.chunk serde [("role", .string "assistant"), ("content", .string "")] none])

/-- The number of a tool call in order of arrival. -/
def tool_slot (ir_index : Nat) : ChatStreamEncoder × Nat :=
  if ir_index ∈ self.tool_slots then (self, self.tool_slots.idxOf ir_index)
  else ({ self with tool_slots := self.tool_slots ++ [ir_index] }, self.tool_slots.length)

def merge_usage (usage : Usage) : ChatStreamEncoder := { self with usage := self.usage.merge_max usage }

/-- Writes what is missing at the end: a finish reason, the usage, the sentinel. -/
def wrap_up : ChatStreamEncoder × List SseFrame :=
  if self.done then (self, [])
  else
    let closes := self.opened && !self.finished
    let reports := !self.usage_sent && !self.usage.is_empty
    ({ self with
        done := true
        finished := self.finished || closes
        usage_sent := self.usage_sent || reports },
      (if closes then [self.chunk serde [] (some "stop")] else []) ++
        (if reports then [self.usage_frame serde] else []) ++ [done_frame])

/-- Writes a chunk with a delta, after the opening one. -/
def write_delta (delta : Map) : ChatStreamEncoder × List SseFrame :=
  let (self, opening) := self.openStream serde
  (self, opening ++ [self.chunk serde delta none])

/-- Writes a chunk about a tool call. -/
def write_tool_call (ir_index : Nat) (call : Map) : ChatStreamEncoder × List SseFrame :=
  let (self, opening) := self.openStream serde
  let (self, ti) := self.tool_slot ir_index
  (self, opening ++
    [self.chunk serde [("tool_calls", .array [.object (("index", .nat ti) :: call)])] none])

def encode (event : StreamEvent) : ChatStreamEncoder × List SseFrame :=
  match event with
  | .start id model usage =>
    let self := { self with
      id := if id = "" then self.id else id
      model := if model = "" then self.model else model
      usage := (usage.map self.usage.merge_max).getD self.usage }
    self.openStream serde
  | .textDelta _ text => self.write_delta serde [("content", .string text)]
  | .thinkingDelta _ text => self.write_delta serde [("reasoning_content", .string text)]
  | .thinkingSignature _ signature => self.write_delta serde [("reasoning_signature", .string signature)]
  | .refusalDelta _ text => self.write_delta serde [("refusal", .string text)]
  | .toolCallStart index id name _ =>
    self.write_tool_call serde index
      [("id", .string id), ("type", .string "function"),
        ("function", .object [("name", .string name), ("arguments", .string "")])]
  | .toolCallArgsDelta index fragment =>
    self.write_tool_call serde index [("function", .object [("arguments", .string fragment)])]
  | .usage usage => (self.merge_usage usage, [])
  | .stop reason _ =>
    let (self, opening) := self.openStream serde
    ({ self with finished := true }, opening ++ [self.chunk serde [] (some (stop_reason_to_finish reason))])
  | .done => self.wrap_up serde
  | .error message kind =>
    ({ self with done := true },
      error_frame serde message kind :: if self.done then [] else [done_frame])
  | .contentStart _ _ | .contentStop _ | .ping => (self, [])

end Steps

end ChatStreamEncoder

def stream_encoder (serde : Serde) (uuid : String) (now : Int) :
    Transducer ChatStreamEncoder StreamEvent SseFrame where
  init := .new uuid now
  step := ChatStreamEncoder.encode serde
  finish := ChatStreamEncoder.wrap_up serde

end refract.codec.chat
