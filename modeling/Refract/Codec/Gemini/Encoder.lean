import Refract.Codec.Gemini.Part
import Refract.Machine.Numbering
import Refract.Machine.Transducer
import Refract.Stream.Event

open refract.json refract.ir refract.machine refract.stream

namespace refract.codec.gemini

/-- A tool call whose arguments are still arriving. -/
structure ToolCallBuf where
  id : String := ""
  name : String := ""
  args : String := ""
  signature : Option String := none
  deriving DecidableEq, Repr

structure GeminiStreamEncoder where
  /-- Usage waiting for the closing frame. -/
  pending_usage : Option Usage := none
  /-- The frame with the finish reason is written. -/
  finished : Bool := false
  /-- The calls in progress, by block index. -/
  tool_calls : List (Option ToolCallBuf) := []

namespace GeminiStreamEncoder

section Frames

variable (serde : Serde)

def candidate (parts : List Value) (more : Map) : Value :=
  .object <| ("content", .object [("parts", .array parts), ("role", .string "model")]) :: more

/-- A frame with a single part. -/
def part_frame (part : Map) : SseFrame :=
  .ofData <| serde.to_string <| .object
    [("candidates", .array [candidate [.object part] [("index", .nat 0)]])]

def usage_metadata (usage : Option Usage) : Map :=
  (usage.map fun usage => ("usageMetadata", encode_usage usage)).toList

def finish_frame (reason : StopReason) (usage : Option Usage) : SseFrame :=
  .ofData <| serde.to_string <| .object <|
    ("candidates", .array [candidate []
      [("finishReason", .string (stop_reason_to_gemini reason)), ("index", .nat 0)]]) :: usage_metadata usage

/-- Usage that only came after the finish reason. -/
def usage_frame (usage : Usage) : SseFrame :=
  .ofData <| serde.to_string <| .object
    [("candidates", .array [candidate [] [("index", .nat 0)]]), ("usageMetadata", encode_usage usage)]

def error_frame (message kind : String) : SseFrame :=
  .ofData <| serde.to_string <| .object
    [("error", .object [("code", .nat 500), ("message", .string message), ("status", .string kind)])]

/-- The arguments as one document; an incomplete one becomes an empty object. -/
def parse_args (args : String) : Value :=
  if trim args = "" then .object [] else (serde.from_str args).getD (.object [])

/-- The part for a complete call. A made-up identifier is left out. -/
def call_part (buf : ToolCallBuf) : Map :=
  ("functionCall", .object <|
    (if buf.id ≠ "" ∧ ¬ is_synthetic_call_id buf.id buf.name then [("id", .string buf.id)] else []) ++
      [("name", .string buf.name), ("args", parse_args serde buf.args)]) ::
    (buf.signature.map fun sig => ("thoughtSignature", .string sig)).toList

end Frames

section Steps

variable (serde : Serde) (self : GeminiStreamEncoder)

def merge_usage (incoming : Usage) : GeminiStreamEncoder :=
  { self with pending_usage := some ((self.pending_usage.getD {}).merge_max incoming) }

/-- Takes a call out of its slot and writes it. -/
def flush_tool_call (index : Nat) : GeminiStreamEncoder × List SseFrame :=
  ({ self with tool_calls := put self.tool_calls index none },
    ((slot self.tool_calls index).map fun buf => part_frame serde (call_part serde buf)).toList)

def flushes : Transducer GeminiStreamEncoder Nat SseFrame where
  init := {}
  step self index := self.flush_tool_call serde index
  finish self := (self, [])

/-- The closing frame carries the usage collected so far. -/
def stop_frame (reason : StopReason) : GeminiStreamEncoder × SseFrame :=
  ({ self with pending_usage := none }, finish_frame serde reason self.pending_usage)

def append_args (index : Nat) (fragment : String) : GeminiStreamEncoder :=
  let buf := (slot self.tool_calls index).getD {}
  { self with tool_calls := put self.tool_calls index (some { buf with args := buf.args ++ fragment }) }

def encode (event : StreamEvent) : GeminiStreamEncoder × List SseFrame :=
  match event with
  | .textDelta _ text => (self, [part_frame serde [("text", .string text)]])
  | .thinkingDelta _ text => (self, [part_frame serde [("text", .string text), ("thought", .bool true)]])
  | .thinkingSignature _ signature =>
    (self, [part_frame serde
      [("text", .string ""), ("thought", .bool true), ("thoughtSignature", .string signature)]])
  | .refusalDelta _ text => (self, [part_frame serde [("text", .string text)]])
  | .toolCallStart index id name signature =>
    ({ self with tool_calls := put self.tool_calls index (some { id, name, signature }) }, [])
  | .toolCallArgsDelta index fragment => (self.append_args index fragment, [])
  | .contentStop index => self.flush_tool_call serde index
  | .usage usage => (self.merge_usage usage, [])
  | .stop reason _ =>
    let (self, frame) := { self with finished := true }.stop_frame serde reason
    (self, [frame])
  | .error message kind => (self, [error_frame serde message kind])
  | .start _ _ usage => ((usage.map self.merge_usage).getD self, [])
  | .done | .contentStart _ _ | .ping => (self, [])

/-- Writes the calls still in progress, then the end or the late usage. The
    slots are counted in `u32`. -/
def finish : GeminiStreamEncoder × List SseFrame :=
  let indices := List.range (self.tool_calls.length % 4294967296)
  let calls := (flushes serde).emit self indices
  let self := (flushes serde).advance self indices
  if !self.finished then
    let (self, frame) := { self with finished := true }.stop_frame serde .stop
    (self, calls ++ [frame])
  else
    ({ self with pending_usage := none }, calls ++ (self.pending_usage.map (usage_frame serde)).toList)

end Steps

end GeminiStreamEncoder

def stream_encoder (serde : Serde) : Transducer GeminiStreamEncoder StreamEvent SseFrame where
  init := {}
  step := GeminiStreamEncoder.encode serde
  finish := GeminiStreamEncoder.finish serde

section Steps

variable (serde : Serde)

theorem stream_encoder_init : (stream_encoder serde).init = {} := by simp only [stream_encoder]

theorem stream_encoder_step : (stream_encoder serde).step = GeminiStreamEncoder.encode serde := by
  simp only [stream_encoder]

theorem stream_encoder_finish : (stream_encoder serde).finish = GeminiStreamEncoder.finish serde := by
  simp only [stream_encoder]

end Steps

end refract.codec.gemini
