import Refract.Core.Error
import Refract.Json.Text

open refract.json

namespace refract.core

/-- Who sees a channel: everyone, or its owner alone. -/
inductive ChannelVisibility where
  | shared
  | exclusive
  deriving DecidableEq, Repr

/-- A key of an upstream. -/
structure Credential where
  value : String
  deriving DecidableEq, Repr

namespace Credential

def is_empty (self : Credential) : Bool := trim self.value = ""

/-- The key as it may be shown. -/
def masked (self : Credential) : String :=
  let chars := (trim self.value).toList
  if chars.length = 0 then ""
  else if chars.length ≤ 8 then String.ofList (List.replicate chars.length '•')
  else String.ofList (chars.take 4 ++ '…' :: chars.drop (chars.length - 4))

end Credential

/-- What a channel is made for: one protocol, or several. -/
inductive ChannelKind where
  | single (protocol : Protocol)
  | aggregate
  deriving DecidableEq, Repr

def ChannelKind.native_protocol : ChannelKind → Option Protocol
  | .single protocol => some protocol
  | .aggregate => none

inductive KeyStrategy where
  | sticky
  | roundRobin
  | random
  deriving DecidableEq, Repr

/-- The keys a request may use: one, or a first one with the rest of its pool. -/
inductive KeyPool where
  | single (key : Credential)
  | pool (first : Credential) (rest : List Credential) (strategy : KeyStrategy)
  deriving DecidableEq, Repr

namespace KeyPool

def len : KeyPool → Nat
  | .single _ => 1
  | .pool _ rest _ => rest.length + 1

theorem len_pos (self : KeyPool) : 0 < self.len := by
  cases self with
  | single => exact Nat.one_pos
  | pool _ rest _ => exact Nat.succ_pos rest.length

def is_single : KeyPool → Bool
  | .single _ => true
  | .pool _ _ _ => false

def strategy : KeyPool → KeyStrategy
  | .single _ => .roundRobin
  | .pool _ _ strategy => strategy

/-- The key at a place, which wraps around. -/
def key_at (self : KeyPool) (index : Nat) : Credential :=
  match self with
  | .single key => key
  | .pool first rest _ => (first :: rest).get ⟨index % (rest.length + 1), Nat.mod_lt index (Nat.succ_pos rest.length)⟩

end KeyPool

/-- A model of an endpoint, which the upstream may know under another name. -/
structure ModelEntry where
  name : String
  upstream : Option String
  deriving DecidableEq, Repr

def ModelEntry.upstream_name (self : ModelEntry) : String := self.upstream.getD self.name

/-- How the address of an upstream is made up. -/
structure UpstreamAddress where
  unofficial : Bool := false
  full_address : Bool := false
  base_url : Option String := none
  version_prefix : Option String := none
  path : Option String := none
  deriving DecidableEq, Repr

/-- Nothing of the address is customized. -/
def UpstreamAddress.is_inherited (self : UpstreamAddress) : Bool :=
  !self.unofficial && !self.full_address && self.base_url.isNone && self.version_prefix.isNone && self.path.isNone

/-- The endpoints without a conversation, whose bytes pass unread. -/
inductive PassKind where
  | embeddings
  | completions
  | images
  | imageEdits
  | audioSpeech
  | audioTranscriptions
  | audioTranslations
  | moderations
  | rerank
  | countTokens
  | geminiCountTokens
  | geminiEmbed
  | geminiBatchEmbed
  deriving DecidableEq, Repr

/-- What a call asks of an upstream. -/
inductive Action where
  | generate
  | stream
  | listModels
  | passthrough (kind : PassKind)
  deriving DecidableEq, Repr

/-- A set of protocols, one bit for each. -/
structure ProtocolSet where
  bits : BitVec 8 := 0
  deriving DecidableEq, Repr

namespace ProtocolSet

def bit (p : Protocol) : BitVec 8 := 1 <<< p.ctorIdx

def insert (self : ProtocolSet) (p : Protocol) : ProtocolSet := ⟨self.bits ||| bit p⟩

def contains (self : ProtocolSet) (p : Protocol) : Bool := self.bits &&& bit p ≠ 0

end ProtocolSet

/-- Which protocols of clients an endpoint takes besides its own. -/
structure TranscodePolicy where
  enabled : Bool := false
  accepted : ProtocolSet := {}
  deriving DecidableEq, Repr

def TranscodePolicy.can_serve (self : TranscodePolicy) (inbound native : Protocol) : Bool :=
  inbound = native || (self.enabled && self.accepted.contains inbound)

structure ChannelEndpoint where
  protocol : Protocol
  /-- Smaller comes first. -/
  order : Nat := 0
  enabled : Bool := true
  address : UpstreamAddress := {}
  credential : Option Credential := none
  models : List ModelEntry := []
  transcode : TranscodePolicy := {}
  deriving DecidableEq, Repr

def ChannelEndpoint.find_model (self : ChannelEndpoint) (name : String) : Option ModelEntry :=
  self.models.find? fun m => m.name = name

/-- What is done about empty answers, and about answers with status 200 that are
    none of the protocol. -/
structure EmptyResponseRetryPolicy where
  window_secs : Nat := 3
  max_retries : Nat := 5
  reject_nonstandard_200 : Bool := false
  deriving DecidableEq, Repr

def EmptyResponseRetryPolicy.enabled (self : EmptyResponseRetryPolicy) : Bool := 0 < self.window_secs && 0 < self.max_retries

/-- What a channel changes of the policy. -/
structure EmptyResponseRetryOverride where
  window_secs : Option Nat := none
  max_retries : Option Nat := none
  deriving DecidableEq, Repr

def EmptyResponseRetryOverride.resolve (self : EmptyResponseRetryOverride) (global : EmptyResponseRetryPolicy) :
    EmptyResponseRetryPolicy where
  window_secs := self.window_secs.getD global.window_secs
  max_retries := self.max_retries.getD global.max_retries
  reject_nonstandard_200 := global.reject_nonstandard_200

/-- The fields that a channel forces on every request body, and on those of one
    protocol. -/
structure ParamOverride where
  common : Map := []
  protocols : Protocol → Option Map := fun _ => none

/-- A channel to an upstream, as far as the choice of channels for a request, the
    calls to it and its administration depend on it. -/
structure Channel where
  id : Int
  owner_id : Int
  tags : List String
  visibility : ChannelVisibility
  /-- The owner of a private channel. -/
  user_id : Option Int
  name : String := ""
  kind : ChannelKind := .aggregate
  enabled : Bool := true
  /-- Larger comes first. -/
  priority : Int := 0
  weight : Nat := 1
  credential : Credential := ⟨""⟩
  /-- Further keys. -/
  credentials : List Credential := []
  key_strategy : KeyStrategy := .roundRobin
  address : UpstreamAddress := {}
  endpoints : List ChannelEndpoint := []
  /-- Zero stands for the default. -/
  timeout_secs : Nat := 0
  proxy : Option String := none
  param_override : Option ParamOverride := none
  note : Option String := none
  /-- Taken out of service by the gateway, which may put it back. -/
  auto_disabled : Bool := false
  extra_headers : List (String × String) := []
  /-- The model that the channel is tested with. -/
  test_model : Option String := none
  empty_response_retry : EmptyResponseRetryOverride := {}
  /-- What was last found out about the money that is left. -/
  balance : Option Rat := none

namespace Channel

variable (self : Channel) (ep : ChannelEndpoint)

def effective_address : UpstreamAddress := if ep.address.is_inherited then self.address else ep.address

/-- The keys of an endpoint: its own key, the default key with the pool, or the
    pool alone. -/
def key_pool : KeyPool :=
  match ep.credential.filter (!·.is_empty) with
  | some own => .single own
  | none =>
    if self.credential.is_empty then
      match self.credentials with
      | first :: rest => .pool first rest self.key_strategy
      | [] => .single self.credential
    else if self.credentials.isEmpty then .single self.credential
    else .pool self.credential self.credentials self.key_strategy

end Channel

end refract.core
