import Refract.Codec.Counts
import Refract.Json.Text
import Refract.Machine.Numbering
import Refract.Machine.Transducer
import Refract.Stream.Event

open refract.json refract.ir refract.machine refract.stream

namespace refract.codec.responses

structure ResponsesStreamDecoder where
  /-- The kind of block last announced for each item. -/
  opened : List (Option PartKind) := []
  started : Bool := false
  finished : Bool := false

/-- The number as a `u32`; a larger one is none. -/
def as_u32 (value : Value) : Option Nat := (value.as_u64.map Fin.val).filter (· < 4294967296)

/-- The item a payload belongs to. -/
def output_index (payload : Value) : Nat := ((payload.get "output_index").bind as_u32).getD 0

/-- The text of a delta, under either of its names. -/
def delta_text (payload : Value) : String :=
  (((payload.get "delta").or (payload.get "text")).bind Value.as_str).getD ""

/-- A member that is not null. -/
def nonnull (value : Option Value) : Option Value := value.filter (!·.is_null)

namespace ResponsesStreamDecoder

/-- Announces a block unless one of the same kind is announced last. -/
def ensure_open (self : ResponsesStreamDecoder) (index : Nat) (kind : PartKind) :
    ResponsesStreamDecoder × List StreamEvent :=
  if slot self.opened index = some kind then (self, [])
  else ({ self with opened := put self.opened index (some kind) }, [.contentStart index kind])

/-- A block of the given kind and one event in it. -/
def in_block (self : ResponsesStreamDecoder) (index : Nat) (kind : PartKind) (event : StreamEvent) :
    ResponsesStreamDecoder × List StreamEvent :=
  let (self, opening) := self.ensure_open index kind
  (self, opening ++ [event])

def decode_created (self : ResponsesStreamDecoder) (payload : Value) : ResponsesStreamDecoder × List StreamEvent :=
  if self.started then (self, [])
  else
    let resp := payload.get "response"
    ({ self with started := true },
      [.start ((resp.bind (·.get_str "id")).getD "") ((resp.bind (·.get_str "model")).getD "")
        ((nonnull (resp.bind (·.get "usage"))).map decode_usage)])

/-- The block kind of a message item is only known with its content part. -/
def decode_item_added (self : ResponsesStreamDecoder) (payload : Value) :
    ResponsesStreamDecoder × List StreamEvent :=
  let index := output_index payload
  let item := payload.get "item"
  match (item.bind (·.get_str "type")).getD "" with
  | "function_call" =>
    let id := ((item.bind (·.get "call_id")).or (item.bind (·.get "id"))).bind Value.as_str
    self.in_block index .toolUse
      (.toolCallStart index (id.getD "") ((item.bind (·.get_str "name")).getD "") none)
  | "reasoning" => self.ensure_open index .thinking
  | _ => (self, [])

def part_kind (payload : Value) : PartKind :=
  match ((payload.get "part").bind (·.get_str "type")).getD "" with
  | "refusal" => .refusal
  | "reasoning_text" | "summary_text" => .thinking
  | _ => .text

/-- A finished item may carry its signature. -/
def decode_item_done (self : ResponsesStreamDecoder) (payload : Value) :
    ResponsesStreamDecoder × List StreamEvent :=
  let index := output_index payload
  match (payload.get "item").bind (·.get_str "encrypted_content") with
  | some sig =>
    let (self, events) := self.in_block index .thinking (.thinkingSignature index sig)
    (self, events ++ [.contentStop index])
  | none => (self, [.contentStop index])

def is_function_call (item : Value) : Bool := item.get_str "type" = some "function_call"

/-- The item has a part that refuses. -/
def is_refusal (item : Value) : Bool :=
  ((item.get "content").bind Value.as_array).any (·.any fun part => part.get_str "type" = some "refusal")

/-- The stop reason of the final response object. -/
def final_reason (event : String) (resp : Option Value) : StopReason :=
  let status := (resp.bind (·.get_str "status")).getD
    (if event = "response.incomplete" then "incomplete" else "completed")
  let items := ((resp.bind (·.get "output")).bind Value.as_array).getD []
  map_status status ((resp.bind (·.get "incomplete_details")).bind (·.get_str "reason"))
    (items.any is_function_call) (items.any is_refusal)

def decode_completed (self : ResponsesStreamDecoder) (event : String) (payload : Value) :
    ResponsesStreamDecoder × List StreamEvent :=
  let resp := payload.get "response"
  ({ self with finished := true },
    ((nonnull (resp.bind (·.get "usage"))).map (.usage <| decode_usage ·)).toList ++
      [.stop (final_reason event resp) none] ++ if self.finished then [] else [.done])

/-- The error of a failed response, or the payload itself. -/
def decode_error (payload : Value) : StreamEvent :=
  let err := (nonnull ((payload.get "response").bind (·.get "error"))).getD payload
  .error ((err.get_str "message").getD "upstream stream failed")
    ((((err.get "type").or (err.get "code")).bind Value.as_str).getD "upstream_error")

/-- The events of a payload, by the name of its event. -/
def decode_event (self : ResponsesStreamDecoder) (event : String) (payload : Value) :
    ResponsesStreamDecoder × List StreamEvent :=
  let index := output_index payload
  match event with
  | "response.created" | "response.in_progress" => self.decode_created payload
  | "response.output_item.added" => self.decode_item_added payload
  | "response.content_part.added" => self.ensure_open index (part_kind payload)
  | "response.output_text.delta" => self.in_block index .text (.textDelta index (delta_text payload))
  | "response.refusal.delta" => self.in_block index .refusal (.refusalDelta index (delta_text payload))
  | "response.reasoning_summary_text.delta" | "response.reasoning_text.delta" =>
    self.in_block index .thinking (.thinkingDelta index (delta_text payload))
  | "response.function_call_arguments.delta" =>
    self.in_block index .toolUse (.toolCallArgsDelta index (delta_text payload))
  | "response.output_item.done" => self.decode_item_done payload
  | "response.completed" | "response.incomplete" => self.decode_completed event payload
  | "response.failed" | "error" => ({ self with finished := true }, [decode_error payload])
  | _ => (self, [])

/-- The name of a frame's event: the frame's own, or else the payload's type. -/
def event_name (frame : SseFrame) (payload : Value) : String :=
  (frame.event.or (payload.get_str "type")).getD ""

/-- Decodes one frame. A frame that is no JSON document is skipped. -/
def decode (serde : Serde) (self : ResponsesStreamDecoder) (frame : SseFrame) :
    ResponsesStreamDecoder × List StreamEvent :=
  if trim frame.data = "[DONE]" then
    if self.finished then (self, []) else ({ self with finished := true }, [.done])
  else if trim frame.data = "" then (self, [])
  else
    match serde.from_str frame.data with
    | none => (self, [])
    | some payload => self.decode_event (event_name frame payload) payload

/-- An upstream that breaks off without an end still gets one. -/
def finish (self : ResponsesStreamDecoder) : ResponsesStreamDecoder × List StreamEvent :=
  if self.finished then (self, []) else ({ self with finished := true }, [.done])

end ResponsesStreamDecoder

def stream_decoder (serde : Serde) : Transducer ResponsesStreamDecoder SseFrame StreamEvent where
  init := {}
  step := ResponsesStreamDecoder.decode serde
  finish := ResponsesStreamDecoder.finish

section Steps

variable (serde : Serde)

theorem stream_decoder_init : (stream_decoder serde).init = {} := by simp only [stream_decoder]

theorem stream_decoder_step : (stream_decoder serde).step = ResponsesStreamDecoder.decode serde := by simp only [stream_decoder]

theorem stream_decoder_finish : (stream_decoder serde).finish = ResponsesStreamDecoder.finish := by simp only [stream_decoder]

end Steps

end refract.codec.responses
