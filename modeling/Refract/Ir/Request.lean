import Refract.Ir.Content
import Refract.Machine.Base64
import Refract.Stream.Utf8

open refract.json refract.machine

namespace refract.ir

/-- A machine `f64`, as the decimal of the literal it was read from. -/
structure F64 where
  mantissa : Int
  exponent : Int
  deriving DecidableEq, Repr

namespace F64

/-- The decimal as a fraction. -/
def value (self : F64) : Rat :=
  if 0 ≤ self.exponent then mkRat (self.mantissa * Nat.pow 10 self.exponent.toNat) 1
  else mkRat self.mantissa (Nat.pow 10 self.exponent.natAbs)

/-- The difference between 1 and the next larger number. -/
def EPSILON : Rat := mkRat 1 4503599627370496

def to_json (self : F64) : Value := .number (.float self.mantissa self.exponent)

end F64

/-- Any number of a document is one. -/
def as_f64 : Value → Option F64
  | .number (.int i) => some ⟨i, 0⟩
  | .number (.float mantissa exponent) => some ⟨mantissa, exponent⟩
  | _ => none

/-- The largest machine `u32`. -/
def U32_MAX : Nat := 4294967295

inductive Role where
  | system
  | user
  | assistant
  | tool
  deriving DecidableEq, Repr

namespace MediaSource

/-- Data under a URI of its own, as far as it is no reference. -/
def to_data_uri (self : MediaSource) (mime : Option String) : String :=
  match self with
  | .url u => u
  | .base64 data => "data:" ++ mime.getD "application/octet-stream" ++ ";base64," ++ data
  | .fileId id => id
  | .text s => "data:" ++ mime.getD "text/plain" ++ ";base64," ++ String.ofList (machine.base64.encode (stream.as_bytes s))

end MediaSource

namespace ContentPart

def is_text (self : ContentPart) : Bool := self.as_text.isSome

def is_tool_result : ContentPart → Bool
  | .toolResult _ _ _ _ => true
  | _ => false

/-- The texts among some parts. -/
def texts (parts : List ContentPart) : List String := parts.filterMap as_text

/-- The texts among some parts, one line each. -/
def lines (parts : List ContentPart) : String :=
  (texts parts).foldl (fun out text => (if out = "" then out else out ++ "\n") ++ text) ""

end ContentPart

structure Message where
  role : Role
  content : List ContentPart
  name : Option String := none

/-- A function the model may call. -/
structure ToolDef where
  name : String
  description : Option String
  parameters : Value
  strict : Option Bool

inductive ToolChoice where
  | unspecified
  | auto
  | required
  | none
  | tool (name : String)
  deriving DecidableEq, Repr

structure Sampling where
  temperature : Option F64 := none
  top_p : Option F64 := none
  top_k : Option Nat := none
  frequency_penalty : Option F64 := none
  presence_penalty : Option F64 := none
  stop : List String := []
  seed : Option Int := none
  candidate_count : Option Nat := none

/-- How much a model is to think: by a level, or by a number of tokens. -/
structure ReasoningConfig where
  effort : Option String := none
  budget_tokens : Option Nat := none
  include_thoughts : Option Bool := none
  deriving DecidableEq, Repr

namespace ReasoningConfig

/-- The tokens a level stands for, under a limit that is large enough for any. -/
def budget_of_effort (effort : String) (ceiling : Nat) : Option Nat :=
  match effort with
  | "minimal" | "none" => none
  | "low" => some (ceiling / 5)
  | "medium" => some (ceiling / 2)
  | "high" => some (ceiling * 4 % (U32_MAX + 1) / 5)
  | _ => none

/-- The tokens to think with. -/
def budget_or_from_effort (self : ReasoningConfig) (max_output : Option Nat) : Option Nat :=
  match self.budget_tokens with
  | some budget => some budget
  | none =>
    self.effort.bind fun effort =>
      let ceiling := max_output.getD 32000
      if ceiling ≤ 1024 then none
      else (budget_of_effort effort ceiling).map fun budget => min (max budget 1024) (ceiling - 1)

/-- The level to think at. The ratios of a number of tokens to the limit are
    compared without rounding. -/
def effort_or_from_budget (self : ReasoningConfig) (max_output : Option Nat) : Option String :=
  match self.effort with
  | some "minimal" | some "none" => some "minimal"
  | some "low" => some "low"
  | some "high" => some "high"
  | some _ => some "medium"
  | none =>
    self.budget_tokens.map fun budget =>
      let ceiling := max (max_output.getD 32000) 1
      if 65 * ceiling ≤ 100 * budget then "high" else if 35 * ceiling ≤ 100 * budget then "medium" else "low"

end ReasoningConfig

inductive ResponseFormat where
  | text
  | jsonObject
  | jsonSchema (name : String) (schema : Value) (strict : Bool)

/-- A request in the protocol-neutral representation. -/
structure UnifiedRequest where
  model : String
  system : List ContentPart := []
  messages : List Message
  tools : List ToolDef := []
  tool_choice : ToolChoice := .unspecified
  parallel_tool_calls : Option Bool := none
  sampling : Sampling := {}
  max_output_tokens : Option Nat := none
  stream : Bool := false
  stream_include_usage : Bool := false
  reasoning : Option ReasoningConfig := none
  response_format : Option ResponseFormat := none
  user : Option String := none
  extensions : Extensions := []

namespace UnifiedRequest

def extension (self : UnifiedRequest) (key : String) : Option Value := self.extensions.get key

/-- The instructions as one text. -/
def system_text (self : UnifiedRequest) : String := ContentPart.lines self.system

end UnifiedRequest

end refract.ir
