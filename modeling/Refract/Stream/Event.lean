import Refract.Ir.Content
import Refract.Machine.Ending

open refract.json refract.ir refract.machine

namespace refract.stream

/-- The kind of a content block. -/
inductive PartKind where
  | text
  | thinking
  | toolUse
  | refusal
  deriving DecidableEq, Repr

/-- The protocol-neutral events of a stream. Block indices are machine `u32`
    values; every decoder reduces what it reads to that range. -/
inductive StreamEvent where
  | start (id model : String) (usage : Option Usage)
  | contentStart (index : Nat) (kind : PartKind)
  | textDelta (index : Nat) (text : String)
  | thinkingDelta (index : Nat) (text : String)
  | thinkingSignature (index : Nat) (signature : String)
  | refusalDelta (index : Nat) (text : String)
  | toolCallStart (index : Nat) (id name : String) (signature : Option String)
  | toolCallArgsDelta (index : Nat) (fragment : String)
  | contentStop (index : Nat)
  | usage (usage : Usage)
  | stop (reason : StopReason) (stop_sequence : Option String)
  | done
  | error (message kind : String)
  | ping
  deriving DecidableEq, Repr

namespace StreamEvent

/-- The event ends its stream. -/
def is_terminal : StreamEvent → Bool
  | .done | .error _ _ => true
  | _ => false

def is_error : StreamEvent → Bool
  | .error _ _ => true
  | _ => false

def is_stop : StreamEvent → Bool
  | .stop _ _ => true
  | _ => false

def is_done : StreamEvent → Bool
  | .done => true
  | _ => false

/-- The block an event belongs to. -/
def index : StreamEvent → Option Nat
  | .contentStart index _ | .textDelta index _ | .thinkingDelta index _ | .thinkingSignature index _
  | .refusalDelta index _ | .toolCallStart index _ _ _ | .toolCallArgsDelta index _ | .contentStop index =>
    some index
  | _ => none

end StreamEvent

/-- One server-sent event. -/
structure SseFrame where
  event : Option String
  data : String
  deriving DecidableEq, Repr

namespace SseFrame

/-- A frame without an event name. -/
def ofData (data : String) : SseFrame := ⟨none, data⟩

def named (event data : String) : SseFrame := ⟨some event, data⟩

@[simp] theorem ofData_event (data : String) : (ofData data).event = none := rfl

@[simp] theorem ofData_data (data : String) : (ofData data).data = data := rfl

@[simp] theorem named_event (event data : String) : (named event data).event = some event := rfl

@[simp] theorem named_data (event data : String) : (named event data).data = data := rfl

end SseFrame

/-- The events up to the first one that ends the stream. -/
def live (es : List StreamEvent) : List StreamEvent := before (·.is_terminal) es

/-- The first event that ends the stream, if any does. -/
def ending (es : List StreamEvent) : Option StreamEvent := es.find? (·.is_terminal)

/-- The events after the first one that ends the stream. -/
def late (es : List StreamEvent) : List StreamEvent := after (·.is_terminal) es

/-- The first event that ends the stream reports an error. -/
def EndsInError (es : List StreamEvent) : Prop := ∃ message kind, ending es = some (.error message kind)

theorem is_terminal_of_mem_live {es : List StreamEvent} {e : StreamEvent} (he : e ∈ live es) :
    e.is_terminal = false := of_mem_before he

/-- A list of events ends nowhere, or splits at its first ending event. -/
theorem live_cases (es : List StreamEvent) :
    (live es = es ∧ ending es = none ∧ late es = []) ∨
      ∃ e, es = live es ++ e :: late es ∧ e.is_terminal = true ∧ ending es = some e :=
  split_first es

end refract.stream
