import Refract.Codec.Counts
import Refract.Json.Text
import Refract.Machine.OrderedMap
import Refract.Machine.Numbering
import Refract.Machine.Transducer
import Refract.Stream.Event

open refract.json refract.ir refract.machine refract.stream

namespace refract.codec.responses

/-- An item being written. -/
structure OpenBlock where
  output_index : Nat
  item_id : String
  kind : PartKind
  /-- Its `output_item.added` is written. A tool call waits for its name. -/
  announced : Bool := false
  text : String := ""
  signature : Option String := none
  tool_id : String := ""
  tool_name : String := ""
  args : String := ""

structure ResponsesStreamEncoder where
  seq : Nat := 0
  id : String := ""
  model : String := ""
  created : Int := 0
  started : Bool := false
  finished : Bool := false
  /-- The items being written, by block index. -/
  blocks : OrderedMap Nat OpenBlock := []
  next_output_index : Nat := 0
  /-- The finished items, by output index. -/
  items : List (Option Value) := []
  usage : Usage := {}
  stop_reason : Option StopReason := none

/-- A frame before it is numbered: the name of its event and its payload. -/
abbrev Notice := String × Map

namespace OpenBlock

variable (block : OpenBlock)

/-- The members that place an event in its item. -/
def place (more : Map) : Map :=
  ("item_id", .string block.item_id) :: ("output_index", .nat block.output_index) :: more

/-- The item as it is first announced. -/
def added_item : Value :=
  .object <|
    match block.kind with
    | .toolUse =>
      [("type", .string "function_call"), ("id", .string block.item_id), ("call_id", .string block.tool_id),
        ("name", .string block.tool_name), ("arguments", .string ""), ("status", .string "in_progress")]
    | .thinking => [("type", .string "reasoning"), ("id", .string block.item_id), ("summary", .array [])]
    | .text | .refusal =>
      [("type", .string "message"), ("id", .string block.item_id), ("status", .string "in_progress"),
        ("role", .string "assistant"), ("content", .array [])]

def text_part (text : String) : Value :=
  .object [("type", .string "output_text"), ("text", .string text), ("annotations", .array [])]

def refusal_part (text : String) : Value := .object [("type", .string "refusal"), ("refusal", .string text)]

def summary_part (text : String) : Value := .object [("type", .string "summary_text"), ("text", .string text)]

/-- An item is announced together with its only part. -/
def announcement : List Notice :=
  ("response.output_item.added", [("output_index", .nat block.output_index), ("item", block.added_item)]) ::
    match block.kind with
    | .text =>
      [("response.content_part.added", block.place [("content_index", .nat 0), ("part", text_part "")])]
    | .refusal =>
      [("response.content_part.added", block.place [("content_index", .nat 0), ("part", refusal_part "")])]
    | .thinking =>
      [("response.reasoning_summary_part.added",
        block.place [("summary_index", .nat 0), ("part", summary_part "")])]
    | .toolUse => []

def message_item (part : Value) : Value :=
  .object
    [("type", .string "message"), ("id", .string block.item_id), ("status", .string "completed"),
      ("role", .string "assistant"), ("content", .array [part])]

/-- The finished item. -/
def item : Value :=
  match block.kind with
  | .text => block.message_item (text_part block.text)
  | .refusal => block.message_item (refusal_part block.text)
  | .thinking =>
    .object <|
      [("type", .string "reasoning"), ("id", .string block.item_id),
        ("summary", .array [summary_part block.text])] ++
      (block.signature.map fun sig => ("encrypted_content", .string sig)).toList
  | .toolUse =>
    .object
      [("type", .string "function_call"), ("id", .string block.item_id), ("call_id", .string block.tool_id),
        ("name", .string block.tool_name), ("arguments", .string block.args), ("status", .string "completed")]

/-- The events that close an item's part. -/
def closing : List Notice :=
  match block.kind with
  | .text =>
    [("response.output_text.done",
        block.place [("content_index", .nat 0), ("text", .string block.text), ("logprobs", .array [])]),
      ("response.content_part.done",
        block.place [("content_index", .nat 0), ("part", text_part block.text)])]
  | .refusal =>
    [("response.refusal.done", block.place [("content_index", .nat 0), ("refusal", .string block.text)]),
      ("response.content_part.done",
        block.place [("content_index", .nat 0), ("part", refusal_part block.text)])]
  | .thinking =>
    [("response.reasoning_summary_text.done",
        block.place [("summary_index", .nat 0), ("text", .string block.text)]),
      ("response.reasoning_summary_part.done",
        block.place [("summary_index", .nat 0), ("part", summary_part block.text)])]
  | .toolUse =>
    [("response.function_call_arguments.done",
        block.place [("name", .string block.tool_name), ("arguments", .string block.args)])]

def item_done : Notice :=
  ("response.output_item.done", [("output_index", .nat block.output_index), ("item", block.item)])

end OpenBlock

namespace ResponsesStreamEncoder

/-- Numbers frames and names their type. No payload has these members itself,
    so they come last. -/
def emit (serde : Serde) (self : ResponsesStreamEncoder) (notices : List Notice) :
    ResponsesStreamEncoder × List SseFrame :=
  ({ self with seq := self.seq + notices.length },
    (notices.zipIdx self.seq).map fun (notice, seq) =>
      .named notice.1 <| serde.to_string <| .object <|
        notice.2 ++ [("type", .string notice.1), ("sequence_number", .nat seq)])

section Snapshot

/-- The text of the messages among the items. -/
def output_text (output : List Value) : String :=
  let messages := output.filter fun item => item.get_str "type" = some "message"
  let parts := (messages.filterMap fun item => (item.get "content").bind Value.as_array).flatten
  String.join <| (parts.filter fun part => part.get_str "type" = some "output_text").filterMap (·.get_str "text")

/-- The response object. Only the final one has output and usage. -/
def snapshot (self : ResponsesStreamEncoder) (status : String) (terminal : Bool) : Value :=
  let output := if terminal then self.items.reduceOption else []
  .object
    [("id", .string self.id), ("object", .string "response"), ("created_at", .number (.int self.created)),
      ("model", .string self.model), ("status", .string status), ("output", .array output),
      ("output_text", .string (output_text output)), ("parallel_tool_calls", .bool true),
      ("tool_choice", .string "auto"), ("tools", .array []), ("error", .null),
      ("incomplete_details", (self.stop_reason.bind incomplete_details).getD .null),
      ("usage", if terminal then encode_usage self.usage else .null)]

end Snapshot

section Steps

variable (uuid : String) (now : Int) (self : ResponsesStreamEncoder)

/-- Opens the stream once, inventing an identifier if none came. -/
def ensure_started : ResponsesStreamEncoder × List Notice :=
  if self.started then (self, [])
  else
    let self := { self with
      started := true
      id := if self.id = "" then "resp_" ++ uuid else self.id
      created := if self.created = 0 then now else self.created }
    let created := self.snapshot "in_progress" false
    (self, [("response.created", [("response", created)]), ("response.in_progress", [("response", created)])])

/-- Announces a block once. -/
def announce (index : Nat) : ResponsesStreamEncoder × List Notice :=
  match self.blocks.lookup index with
  | none => (self, [])
  | some block =>
    if block.announced then (self, [])
    else
      ({ self with blocks := self.blocks.insert index { block with announced := true } }, block.announcement)

/-- Closes the part and the item of a block, and keeps the finished item. -/
def finish_block (block : OpenBlock) : ResponsesStreamEncoder × List Notice :=
  ({ self with items := put self.items block.output_index (some block.item) },
    block.closing ++ [block.item_done])

/-- A block that was never announced is announced before it is closed. -/
def close_block (index : Nat) : ResponsesStreamEncoder × List Notice :=
  let (self, announced) := self.announce index
  match self.blocks.lookup index with
  | none => (self, announced)
  | some block =>
    let (self, closed) := { self with blocks := self.blocks.remove index }.finish_block block
    (self, announced ++ closed)

def item_prefix : PartKind → String
  | .toolUse => "fc"
  | .thinking => "rs"
  | .text | .refusal => "msg"

/-- Starts a new item at a block index. -/
def new_block (index : Nat) (kind : PartKind) : ResponsesStreamEncoder × List Notice :=
  let block : OpenBlock :=
    { output_index := self.next_output_index
      item_id := item_prefix kind ++ "_" ++ self.id ++ "_" ++ toString self.next_output_index
      kind }
  let self := { self with
    next_output_index := self.next_output_index + 1
    blocks := self.blocks.insert index block }
  if kind = .toolUse then (self, []) else self.announce index

/-- Makes sure that a block of the given kind is being written. One of another
    kind at the same index is closed first. -/
def ensure_block (index : Nat) (kind : PartKind) : ResponsesStreamEncoder × List Notice :=
  let (self, opening) := self.ensure_started uuid now
  match self.blocks.lookup index with
  | none =>
    let (self, added) := self.new_block index kind
    (self, opening ++ added)
  | some existing =>
    if existing.kind = kind then (self, opening)
    else
      let (self, closed) := self.close_block index
      let (self, added) := self.new_block index kind
      (self, opening ++ closed ++ added)

def closings : Transducer ResponsesStreamEncoder Nat Notice where
  init := {}
  step := close_block
  finish self := (self, [])

/-- Closes every block that is still open, in index order. -/
def close_all : ResponsesStreamEncoder × List Notice :=
  let open_indices := self.blocks.map Prod.fst
  (closings.advance self open_indices, closings.emit self open_indices)

def terminal_event (status : String) : String :=
  match status with
  | "incomplete" => "response.incomplete"
  | "failed" => "response.failed"
  | _ => "response.completed"

/-- Ends the stream with the complete response. -/
def terminate : ResponsesStreamEncoder × List Notice :=
  if self.finished then (self, [])
  else
    let (self, opening) := self.ensure_started uuid now
    let (self, closed) := self.close_all
    let self := { self with finished := true }
    let status := status_str (self.stop_reason.getD .stop)
    (self, opening ++ closed ++ [(terminal_event status, [("response", self.snapshot status true)])])

/-- Applies an update to a block and writes a delta for it. -/
def write_delta (index : Nat) (event : String) (update : OpenBlock → OpenBlock) (delta : Map) :
    ResponsesStreamEncoder × List Notice :=
  match self.blocks.lookup index with
  | none => (self, [])
  | some block => ({ self with blocks := self.blocks.insert index (update block) }, [(event, block.place delta)])

/-- Writes a delta of a text, a refusal or a reasoning. -/
def write_text (index : Nat) (kind : PartKind) (event : String) (text : String) (delta : Map) :
    ResponsesStreamEncoder × List Notice :=
  let (self, opening) := self.ensure_block uuid now index kind
  let (self, written) := self.write_delta index event (fun b => { b with text := b.text ++ text }) delta
  (self, opening ++ written)

def write_signature (index : Nat) (signature : String) : ResponsesStreamEncoder × List Notice :=
  let (self, opening) := self.ensure_block uuid now index .thinking
  match self.blocks.lookup index with
  | none => (self, opening)
  | some block =>
    ({ self with blocks := self.blocks.insert index { block with signature := some signature } }, opening)

/-- A call is announced once its name is there. -/
def start_call (index : Nat) (id name : String) : ResponsesStreamEncoder × List Notice :=
  let (self, opening) := self.ensure_block uuid now index .toolUse
  let self := match self.blocks.lookup index with
    | none => self
    | some block => { self with blocks := self.blocks.insert index { block with
        tool_id := if id = "" then block.tool_id else id
        tool_name := if name = "" then block.tool_name else name } }
  let (self, announced) := self.announce index
  (self, opening ++ announced)

def write_fragment (index : Nat) (fragment : String) : ResponsesStreamEncoder × List Notice :=
  let (self, opening) := self.ensure_block uuid now index .toolUse
  let (self, announced) := self.announce index
  let (self, written) := self.write_delta index "response.function_call_arguments.delta"
    (fun b => { b with args := b.args ++ fragment }) [("delta", .string fragment)]
  (self, opening ++ announced ++ written)

/-- What an event adds to a stream that has not ended. -/
def notices (event : StreamEvent) : ResponsesStreamEncoder × List Notice :=
  match event with
  | .start id model usage =>
    let self := { self with
      id := if id = "" then self.id else id
      model := if model = "" then self.model else model
      usage := (usage.map self.usage.merge_max).getD self.usage }
    self.ensure_started uuid now
  | .contentStart index kind => self.ensure_block uuid now index kind
  | .textDelta index text =>
    self.write_text uuid now index .text "response.output_text.delta" text
      [("content_index", .nat 0), ("delta", .string text), ("logprobs", .array [])]
  | .refusalDelta index text =>
    self.write_text uuid now index .refusal "response.refusal.delta" text
      [("content_index", .nat 0), ("delta", .string text)]
  | .thinkingDelta index text =>
    self.write_text uuid now index .thinking "response.reasoning_summary_text.delta" text
      [("summary_index", .nat 0), ("delta", .string text)]
  | .thinkingSignature index signature => self.write_signature uuid now index signature
  | .toolCallStart index id name _ => self.start_call uuid now index id name
  | .toolCallArgsDelta index fragment => self.write_fragment uuid now index fragment
  | .contentStop index => self.close_block index
  | .usage usage => ({ self with usage := self.usage.merge_max usage }, [])
  | .stop reason _ => ({ self with stop_reason := some reason }, [])
  | .done => self.terminate uuid now
  | .error message kind =>
    let (self, opening) := self.ensure_started uuid now
    ({ self with finished := true },
      opening ++ [("error", [("code", .string kind), ("message", .string message), ("param", .null)])])
  | .ping => (self, [])

end Steps

section Frames

variable (serde : Serde) (uuid : String) (now : Int) (self : ResponsesStreamEncoder)

/-- Nothing is written once the stream has ended. -/
def encode (event : StreamEvent) : ResponsesStreamEncoder × List SseFrame :=
  if self.finished then (self, [])
  else
    let (self, notices) := self.notices uuid now event
    self.emit serde notices

/-- A stream that was opened but not ended is ended. -/
def finish : ResponsesStreamEncoder × List SseFrame :=
  if !self.finished && self.started then
    let (self, notices) := self.terminate uuid now
    self.emit serde notices
  else (self, [])

end Frames

end ResponsesStreamEncoder

def stream_encoder (serde : Serde) (uuid : String) (now : Int) :
    Transducer ResponsesStreamEncoder StreamEvent SseFrame where
  init := {}
  step := ResponsesStreamEncoder.encode serde uuid now
  finish := ResponsesStreamEncoder.finish serde uuid now

end refract.codec.responses
