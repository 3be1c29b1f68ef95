import Mathlib.Data.List.Infix
import Refract.Ir.Usage

open refract.json

namespace refract.ir

/-- Where a medium comes from. -/
inductive MediaSource where
  | url (url : String)
  | base64 (data : String)
  | fileId (id : String)
  | text (text : String)
  deriving DecidableEq, Repr

/-- One piece of a message or a response. -/
inductive ContentPart where
  | text (text : String)
  | image (source : MediaSource) (mime : Option String) (detail : Option String)
  | audio (source : MediaSource) (format : Option String)
  | file (source : MediaSource) (mime : Option String) (name : Option String)
  | thinking (text : String) (signature : Option String)
  | redactedThinking (data : String)
  | toolUse (id : String) (name : String) (input : Value) (signature : Option String)
  | toolResult (id : String) (name : Option String) (content : List ContentPart) (is_error : Bool)
  | refusal (text : String)
  | opaqueBlock (protocol : String) (value : Value)

/-- The text of a text part. -/
def ContentPart.as_text : ContentPart → Option String
  | .text s => some s
  | _ => none

def ContentPart.is_tool_use : ContentPart → Bool
  | .toolUse _ _ _ _ => true
  | _ => false

def ContentPart.is_refusal : ContentPart → Bool
  | .refusal _ => true
  | _ => false

/-- Protocol fields the representation does not name, in key order. -/
abbrev Extensions := List (String × Value)

def Extensions.get (ext : Extensions) (key : String) : Option Value := ext.lookup key

/-- Stores a value under a key, keeping the keys in order. -/
def Extensions.insert : Extensions → String → Value → Extensions
  | [], key, value => [(key, value)]
  | (k, v) :: ext, key, value =>
    if k = key then (key, value) :: ext
    else if key < k then (key, value) :: (k, v) :: ext
    else (k, v) :: Extensions.insert ext key value

/-- A response in the protocol-neutral representation. -/
structure UnifiedResponse where
  id : String
  model : String
  created : Int
  content : List ContentPart := []
  stop_reason : Option StopReason := none
  stop_sequence : Option String := none
  usage : Usage := {}
  extensions : Extensions := []

namespace ContentPart

/-- Adjacent pieces of one kind of text are one piece. The later signature counts. -/
def join : ContentPart → ContentPart → Option ContentPart
  | .text a, .text b => some (.text (a ++ b))
  | .thinking a old, .thinking b new => some (.thinking (a ++ b) (new.or old))
  | _, _ => none

/-- The piece says something. -/
def is_present : ContentPart → Bool
  | .text s | .refusal s => s ≠ ""
  | .thinking s signature => s ≠ "" || signature.isSome
  | _ => true

/-- Adds a piece at the end, to the last one if they belong together. -/
def add (content : List ContentPart) (part : ContentPart) : List ContentPart :=
  match content.getLast?.bind (join · part) with
  | some joined => content.dropLast ++ [joined]
  | none => content ++ [part]

/-- Joins all adjacent pieces that belong together. -/
def coalesce (content : List ContentPart) : List ContentPart := content.foldl add []

variable {content : List ContentPart} {last part joined : ContentPart}

theorem add_of_join_eq_some (h : join last part = some joined) : add (content ++ [last]) part = content ++ [joined] := by
  simp [add, h]

theorem add_of_join_eq_none (h : ∀ last, content.getLast? = some last → join last part = none) :
    add content part = content ++ [part] := by
  unfold add
  cases hlast : content.getLast? with
  | none => rfl
  | some last => simp only [Option.bind_some, h last hlast]

end ContentPart

end refract.ir

open refract.json

namespace refract.ir

/-- What follows a prefix. -/
def strip_start (self before : String) : Option String :=
  if before.toList.isPrefixOf self.toList then some (String.ofList (self.toList.drop before.toList.length)) else none

/-- The text before and after the first of the given characters. -/
def split_once (self : String) (delimiter : Char) : Option (String × String) :=
  match self.toList.span (· ≠ delimiter) with
  | (_, []) => none
  | (before, _ :: after) => some (String.ofList before, String.ofList after)

namespace MediaSource

/-- Reads a source that may be a data URI, and its type. A URI whose data is not
    in base64 stays a URL. -/
def parse_data_uri (raw : String) : MediaSource × Option String :=
  match (strip_start raw "data:").bind (split_once · ',') with
  | some (meta_data, payload) =>
    let mime := some (String.ofList (meta_data.toList.takeWhile (· ≠ ';')))
    if "base64".toList <:+: meta_data.toList then (.base64 payload, mime.filter (· ≠ "")) else (.url raw, none)
  | none => (.url raw, none)

end MediaSource

end refract.ir
