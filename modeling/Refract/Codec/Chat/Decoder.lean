import Refract.Codec.Counts
import Refract.Json.Text
import Refract.Machine.Numbering
import Refract.Machine.Transducer
import Refract.Stream.Event

open refract.json refract.ir refract.machine refract.stream

namespace refract.codec.chat

/-- The block index of text, reasoning and refusals. -/
def TEXT_INDEX : Nat := 0

def TOOL_INDEX_BASE : Nat := 1

def DONE_SENTINEL : String := "[DONE]"

/-- The block index of a tool call, computed in `u32`. -/
def tool_index (ti : Nat) : Nat := (TOOL_INDEX_BASE + ti % 4294967296) % 4294967296

/-- What has arrived for one tool call. -/
structure ToolSlot where
  seen : Bool := false
  declared : Bool := false
  id : String := ""
  name : String := ""
  /-- Argument fragments that came before the name. -/
  pending_args : List String := []
  deriving DecidableEq, Repr

instance instInhabitedToolSlot : Inhabited ToolSlot := ⟨{}⟩

structure ChatStreamDecoder where
  started : Bool := false
  done : Bool := false
  tools : List ToolSlot := []

/-- The text of a delta field: a string, an object with a text, or a list of
    texts. -/
def delta_text (delta : Value) (key : String) : Option String :=
  match delta.get key with
  | some (.string s) => some s
  | some (.object o) => ((Value.object o).get_str "content").or ((Value.object o).get_str "text")
  | some (.array items) => some (String.join (items.filterMap fun item => item.as_str.or (item.get_str "text")))
  | _ => none

/-- A string member that is not empty. -/
def nonempty (s : Option String) : Option String := s.filter (· ≠ "")

namespace ToolSlot

/-- The start of a call and the fragments that waited for it. -/
def declaration (slot : ToolSlot) (index : Nat) : List StreamEvent :=
  .toolCallStart index slot.id slot.name none :: slot.pending_args.map (.toolCallArgsDelta index)

/-- Takes in the next piece of a call. It is declared at its first arguments
    after its name; earlier arguments wait. -/
def accept (slot : ToolSlot) (index : Nat) (id name : Option String) (args : String) :
    ToolSlot × List StreamEvent :=
  let slot := { slot with
    seen := true
    id := (nonempty id).getD slot.id
    name := slot.name ++ (nonempty name).getD "" }
  if args = "" then (slot, [])
  else if slot.declared then (slot, [.toolCallArgsDelta index args])
  else if slot.name = "" then ({ slot with pending_args := slot.pending_args ++ [args] }, [])
  else ({ slot with declared := true, pending_args := [] }, slot.declaration index ++ [.toolCallArgsDelta index args])

/-- A call that was seen but never declared. -/
def undeclared (slot : ToolSlot) : Bool := slot.seen && !slot.declared

def flush (slot : ToolSlot) : ToolSlot :=
  if slot.undeclared then { slot with declared := true, pending_args := [] } else slot

end ToolSlot

namespace ChatStreamDecoder

/-- Declares every call that was seen but not declared. -/
def flush_undeclared_tools (self : ChatStreamDecoder) : ChatStreamDecoder × List StreamEvent :=
  ({ self with tools := self.tools.map ToolSlot.flush },
    self.tools.zipIdx.flatMap fun (slot, ti) => if slot.undeclared then slot.declaration (tool_index ti) else [])

def decode_tool_call (self : ChatStreamDecoder) (call : Value) : ChatStreamDecoder × List StreamEvent :=
  let ti := (((call.get "index").bind Value.as_u64).getD 0).val
  let function := call.get "function"
  let args := (function.bind (·.get_str "arguments")).getD ""
  let (entry, events) := (slot self.tools ti).accept (tool_index ti) (call.get_str "id")
    (function.bind (·.get_str "name")) args
  ({ self with tools := put self.tools ti entry }, events)

def tool_calls : Transducer ChatStreamDecoder Value StreamEvent where
  init := {}
  step := decode_tool_call
  finish self := (self, [])

/-- The texts of a delta, before its tool calls. -/
def decode_texts (delta : Value) : List StreamEvent :=
  let thinking := nonempty ((delta_text delta "reasoning_content").or (delta_text delta "reasoning"))
  (thinking.map (.thinkingDelta TEXT_INDEX)).toList ++
    ((nonempty (delta.get_str "reasoning_signature")).map (.thinkingSignature TEXT_INDEX)).toList ++
    ((nonempty (delta_text delta "content")).map (.textDelta TEXT_INDEX)).toList ++
    ((nonempty (delta_text delta "refusal")).map (.refusalDelta TEXT_INDEX)).toList

def decode_delta (self : ChatStreamDecoder) (delta : Value) : ChatStreamDecoder × List StreamEvent :=
  let calls := ((delta.get "tool_calls").bind Value.as_array).getD []
  (tool_calls.advance self calls, decode_texts delta ++ tool_calls.emit self calls)

/-- A finish reason first declares the calls that are still undeclared. -/
def decode_finish_reason (self : ChatStreamDecoder) (reason : String) : ChatStreamDecoder × List StreamEvent :=
  let (self, flushed) := self.flush_undeclared_tools
  (self, flushed ++ [.stop (finish_reason_to_ir reason) none])

def decode_choice (self : ChatStreamDecoder) (choice : Value) : ChatStreamDecoder × List StreamEvent :=
  let (self, texts) :=
    match choice.get "delta" with
    | some delta => self.decode_delta delta
    | none => (self, [])
  let (self, stop) :=
    match choice.get_str "finish_reason" with
    | some reason => self.decode_finish_reason reason
    | none => (self, [])
  (self, texts ++ stop)

def decode_error (err : Value) : StreamEvent :=
  .error ((err.get_str "message").getD "upstream error") ((err.get_str "type").getD "upstream_error")

/-- The error of a chunk, unless it is null. -/
def chunk_error (chunk : Value) : Option Value := (chunk.get "error").filter (!·.is_null)

def first_choice (chunk : Value) : Option Value := ((chunk.get "choices").bind Value.as_array).bind List.head?

def chunk_usage (chunk : Value) : Option Value := (chunk.get "usage").filter (·.is_object)

def decode_chunk (self : ChatStreamDecoder) (chunk : Value) : ChatStreamDecoder × List StreamEvent :=
  match chunk_error chunk with
  | some err => (self, [decode_error err])
  | none =>
    let start := if self.started then []
      else [.start ((chunk.get_str "id").getD "") ((chunk.get_str "model").getD "") none]
    let self := { self with started := true }
    let (self, content) :=
      match first_choice chunk with
      | some choice => self.decode_choice choice
      | none => (self, [])
    (self, start ++ content ++ ((chunk_usage chunk).map (.usage <| parse_usage ·)).toList)

/-- The sentinel ends the stream each time it arrives. -/
def decode_done (self : ChatStreamDecoder) : ChatStreamDecoder × List StreamEvent :=
  let (self, flushed) := { self with done := true }.flush_undeclared_tools
  (self, flushed ++ [.done])

/-- Decodes one frame. A frame that is no JSON document is skipped. -/
def decode (serde : Serde) (self : ChatStreamDecoder) (frame : SseFrame) :
    ChatStreamDecoder × List StreamEvent :=
  let data := trim frame.data
  if data = "" then (self, [])
  else if data = DONE_SENTINEL then self.decode_done
  else
    match serde.from_str data with
    | none => (self, [])
    | some chunk => self.decode_chunk chunk

/-- An upstream that breaks off without the sentinel still gets an end. -/
def finish (self : ChatStreamDecoder) : ChatStreamDecoder × List StreamEvent :=
  if self.done then (self, []) else self.decode_done

end ChatStreamDecoder

def stream_decoder (serde : Serde) : Transducer ChatStreamDecoder SseFrame StreamEvent where
  init := {}
  step := ChatStreamDecoder.decode serde
  finish := ChatStreamDecoder.finish

section Steps

variable (serde : Serde)

theorem stream_decoder_init : (stream_decoder serde).init = {} := by simp only [stream_decoder]

theorem stream_decoder_step : (stream_decoder serde).step = ChatStreamDecoder.decode serde := by simp only [stream_decoder]

theorem stream_decoder_finish : (stream_decoder serde).finish = ChatStreamDecoder.finish := by simp only [stream_decoder]

end Steps

end refract.codec.chat
