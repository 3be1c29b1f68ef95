import Refract.Codec.Gemini.Part
import Refract.Machine.Transducer
import Refract.Stream.Event

open refract.json refract.ir refract.stream

namespace refract.codec.gemini

structure GeminiStreamDecoder where
  started : Bool := false
  index : Nat := 0
  /-- The kind of the block now open. -/
  opened : Option PartKind := none
  stopped : Bool := false
  done : Bool := false
  saw_tool_call : Bool := false
  tool_index : Nat := 0

namespace GeminiStreamDecoder

/-- Moves on to a block of the given kind. A tool call always gets a new one. -/
def switch (self : GeminiStreamDecoder) (kind : PartKind) : GeminiStreamDecoder × List StreamEvent :=
  match self.opened with
  | some current =>
    if current = kind ∧ kind ≠ .toolUse then (self, [])
    else
      let index := (self.index + 1) % 4294967296
      ({ self with index, opened := some kind }, [.contentStop self.index, .contentStart index kind])
  | none => ({ self with opened := some kind }, [.contentStart self.index kind])

def decode_content (serde : Serde) (self : GeminiStreamDecoder) (part : ContentPart) :
    GeminiStreamDecoder × List StreamEvent :=
  match part with
  | .text text =>
    let (self, moved) := self.switch .text
    (self, moved ++ [.textDelta self.index text])
  | .thinking text signature =>
    let (self, moved) := self.switch .thinking
    (self, moved ++ [.thinkingDelta self.index text] ++
      (signature.map (.thinkingSignature self.index)).toList)
  | .toolUse id name input signature =>
    let (self, moved) := { self with tool_index := min (self.tool_index + 1) 18446744073709551615 }.switch .toolUse
    ({ self with opened := none, index := (self.index + 1) % 4294967296, saw_tool_call := true },
      moved ++ [.toolCallStart self.index id name signature,
        .toolCallArgsDelta self.index (serde.to_string input), .contentStop self.index])
  | _ => (self, [])

def step_part (serde : Serde) (self : GeminiStreamDecoder) (part : Value) :
    GeminiStreamDecoder × List StreamEvent :=
  match decode_part serde part self.tool_index with
  | some content => self.decode_content serde content
  | none => (self, [])

def parts (serde : Serde) : machine.Transducer GeminiStreamDecoder Value StreamEvent where
  init := {}
  step := step_part serde
  finish self := (self, [])

/-- The first finish reason closes the open block. A stop after a tool call
    counts as a stop for that call. -/
def decode_finish_reason (self : GeminiStreamDecoder) (finish : String) :
    GeminiStreamDecoder × List StreamEvent :=
  if self.stopped then (self, [])
  else
    let mapped := stop_reason_from_gemini finish
    let reason := if mapped = .stop ∧ self.saw_tool_call then .toolUse else mapped
    ({ self with stopped := true, opened := none },
      (self.opened.map fun _ => .contentStop self.index).toList ++ [.stop reason none])

/-- The parts of the first candidate. -/
def candidate_parts (candidate : Option Map) : List Value :=
  ((((candidate.bind (Map.get · "content")).bind Value.as_object).bind (Map.get · "parts")).bind Value.as_array).getD []

variable (serde : Serde) (uuid : String)

def response_id (obj : Map) : String :=
  (non_empty_str (field obj "responseId" "response_id")).getD ("gemini-" ++ uuid)

def decode_object (self : GeminiStreamDecoder) (obj : Map) : GeminiStreamDecoder × List StreamEvent :=
  let start := if self.started then []
    else [.start (response_id uuid obj) ((non_empty_str (field obj "modelVersion" "model_version")).getD "") none]
  let self := { self with started := true }
  let candidate := first_candidate obj
  let content := (parts serde).emit self (candidate_parts candidate)
  let self := (parts serde).advance self (candidate_parts candidate)
  let usage := ((field obj "usageMetadata" "usage_metadata").map (.usage <| parse_usage ·)).toList
  let (self, stop) :=
    match (candidate.bind (field · "finishReason" "finish_reason")).bind Value.as_str with
    | some finish => self.decode_finish_reason finish
    | none => (self, [])
  (self, start ++ content ++ usage ++ stop)

/-- Decodes one frame. A frame that is no JSON object is skipped, and so is the
    sentinel that other protocols end with. -/
def decode (self : GeminiStreamDecoder) (frame : SseFrame) : GeminiStreamDecoder × List StreamEvent :=
  let data := trim frame.data
  if data = "" ∨ data = "[DONE]" then (self, [])
  else
    match serde.from_str data with
    | none => (self, [])
    | some value =>
      match parse_error_body serde value with
      | some err => (self, [.error err.message err.kind.openai_type])
      | none =>
        match value.as_object with
        | some obj => self.decode_object serde uuid obj
        | none => (self, [])

/-- The end of the connection is the end of the stream. -/
def finish (self : GeminiStreamDecoder) : GeminiStreamDecoder × List StreamEvent :=
  ({ self with opened := none, done := true },
    (self.opened.map fun _ => .contentStop self.index).toList ++ if self.done then [] else [.done])

end GeminiStreamDecoder

def stream_decoder (serde : Serde) (uuid : String) :
    machine.Transducer GeminiStreamDecoder SseFrame StreamEvent where
  init := {}
  step := GeminiStreamDecoder.decode serde uuid
  finish := GeminiStreamDecoder.finish

section Steps

variable (serde : Serde) (uuid : String)

theorem stream_decoder_init : (stream_decoder serde uuid).init = {} := by simp only [stream_decoder]

theorem stream_decoder_step : (stream_decoder serde uuid).step = GeminiStreamDecoder.decode serde uuid := by simp only [stream_decoder]

theorem stream_decoder_finish : (stream_decoder serde uuid).finish = GeminiStreamDecoder.finish := by simp only [stream_decoder]

end Steps

end refract.codec.gemini
