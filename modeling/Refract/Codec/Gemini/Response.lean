import Refract.Codec.Gemini.Decoder

open refract.core refract.json refract.ir

namespace refract.codec.gemini

/-- A part that counts in the numbering of calls. -/
def is_tool (part : Value) : Bool :=
  match part with
  | .object obj =>
    (field obj "functionCall" "function_call").isSome || (field obj "functionResponse" "function_response").isSome
  | _ => false

/-- Reads parts in order, with the number of calls and results so far. -/
def decode_parts_from (serde : Serde) : Nat → List Value → List ContentPart
  | _, [] => []
  | tool_index, part :: parts =>
    (decode_part serde part tool_index).toList ++
      decode_parts_from serde (if is_tool part then tool_index + 1 else tool_index) parts

def decode_parts (serde : Serde) (parts : List Value) : List ContentPart := decode_parts_from serde 0 parts

/-- The prompt was blocked as a whole. -/
def is_blocked (obj : Map) : Bool :=
  (((field obj "promptFeedback" "prompt_feedback").bind Value.as_object).bind (field · "blockReason" "block_reason")).isSome

def finish_reason (candidate : Option Map) : Option String :=
  (candidate.bind (field · "finishReason" "finish_reason")).bind Value.as_str

/-- The reason a response stopped. One that calls a tool stopped for it, and one
    whose prompt was blocked was filtered. -/
def stop_reason (obj : Map) (content : List ContentPart) : Option StopReason :=
  match finish_reason (first_candidate obj) with
  | some finish =>
    let mapped := stop_reason_from_gemini finish
    some (if mapped = .stop ∧ content.any ContentPart.is_tool_use then .toolUse else mapped)
  | none => if is_blocked obj then some .contentFilter else none

def keep (key : String) (value : Option Value) (ext : Extensions) : Extensions :=
  match value with
  | some value => ext.insert key value
  | none => ext

/-- What only this protocol has a place for. -/
def response_extensions (obj : Map) : Extensions :=
  let candidate := first_candidate obj
  let extra := (((Map.get obj "candidates").bind Value.as_array).getD []).drop 1
  keep "gemini.promptFeedback" (field obj "promptFeedback" "prompt_feedback") <|
    keep "gemini.extraCandidates" (if extra.isEmpty then none else some (.array extra)) <|
    keep "gemini.citationMetadata" (candidate.bind (field · "citationMetadata" "citation_metadata")) <|
    keep "gemini.safetyRatings" (candidate.bind (field · "safetyRatings" "safety_ratings")) <|
    keep "gemini.finishReason" ((finish_reason candidate).map .string) []

/-- Reads a response. An error the upstream reports comes first. -/
def decode_response (serde : Serde) (uuid : String) (now : Int) (raw : Value) : Except GatewayError UnifiedResponse :=
  match raw with
  | .object obj =>
    match parse_error_body serde raw with
    | some err => .error err
    | none =>
      let content := decode_parts serde (GeminiStreamDecoder.candidate_parts (first_candidate obj))
      .ok
        { id := GeminiStreamDecoder.response_id uuid obj
          model := (non_empty_str (field obj "modelVersion" "model_version")).getD ""
          created := now
          content := content
          stop_reason := stop_reason obj content
          usage := ((field obj "usageMetadata" "usage_metadata").map parse_usage).getD {}
          extensions := response_extensions obj }
  | _ => .error (.invalid_request "response body must be a JSON object")

end refract.codec.gemini
