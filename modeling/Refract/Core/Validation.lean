import Refract.Core.Channel
import Refract.Machine.Transaction

open refract.json refract.machine

namespace refract.core

inductive ChannelError where
  | empty_name
  | no_endpoints
  | single_must_have_one_endpoint (count : Nat)
  | endpoint_protocol_mismatch (expected actual : Protocol)
  | duplicate_protocol (protocol : Protocol)
  | missing_credential (protocol : Protocol)
  | empty_pool_credential
  | self_transcode (protocol : Protocol)
  | invalid_extra_header (name : String)
  | forbidden_extra_header (name : String)
  | invalid_extra_header_value (name : String)
  | empty_model_name (protocol : Protocol)
  | empty_upstream_mapping (name : String)
  | missing_unofficial_base_url (protocol : Protocol)
  | missing_default_unofficial_base_url
  | invalid_empty_response_retry (message : String)
  deriving DecidableEq, Repr

def ChannelError.to_string : ChannelError → String
  | .empty_name => "channel name must not be empty"
  | .no_endpoints => "channel must have at least one protocol endpoint"
  | .single_must_have_one_endpoint count =>
    "single-protocol channel must have exactly one endpoint, got " ++ toString count
  | .endpoint_protocol_mismatch expected actual =>
    "single-protocol channel of kind `" ++ expected.as_str ++ "` cannot host a `" ++ actual.as_str ++ "` endpoint"
  | .duplicate_protocol protocol => "duplicate endpoint for protocol `" ++ protocol.as_str ++ "`"
  | .missing_credential protocol => "endpoint `" ++ protocol.as_str ++ "` has no credential and the channel default is empty"
  | .empty_pool_credential => "multi-key pool contains an empty credential; remove the blank line"
  | .self_transcode protocol => "endpoint `" ++ protocol.as_str ++ "` lists its own native protocol as a transcode target"
  | .invalid_extra_header name => "extra header name `" ++ name ++ "` is not a valid HTTP header name"
  | .forbidden_extra_header name => "extra header `" ++ name ++ "` is managed by the gateway and cannot be overridden"
  | .invalid_extra_header_value name => "extra header `" ++ name ++ "` value must not contain CR or LF"
  | .empty_model_name protocol => "endpoint `" ++ protocol.as_str ++ "` has a model entry with an empty name"
  | .empty_upstream_mapping name => "model `" ++ name ++ "` maps to an empty upstream name"
  | .missing_unofficial_base_url protocol =>
    "endpoint `" ++ protocol.as_str ++ "` enables unofficial address but has no base_url"
  | .missing_default_unofficial_base_url => "channel default address enables unofficial mode but has no base_url"
  | .invalid_empty_response_retry message => message

def EmptyResponseRetryPolicy.validate (self : EmptyResponseRetryPolicy) : Except String Unit :=
  if 3600 < self.window_secs then .error "empty response retry window must be at most 3600 seconds"
  else if 100 < self.max_retries then .error "empty response retries must be at most 100"
  else .ok ()

def EmptyResponseRetryOverride.validate (self : EmptyResponseRetryOverride) : Except String Unit :=
  (self.resolve { window_secs := 0, max_retries := 0 }).validate

def base_url_missing (address : UpstreamAddress) : Bool := (address.base_url.map trim).all (· = "")

namespace Channel

variable (self : Channel)

def validate_kind : Except ChannelError Unit :=
  match self.kind.native_protocol, self.endpoints with
  | none, _ => .ok ()
  | some native, [ep] => if ep.protocol ≠ native then .error (.endpoint_protocol_mismatch native ep.protocol) else .ok ()
  | some _, endpoints => .error (.single_must_have_one_endpoint endpoints.length)

def validate_models (protocol : Protocol) : List ModelEntry → Except ChannelError Unit
  | [] => .ok ()
  | entry :: models =>
    if trim entry.name = "" then .error (.empty_model_name protocol)
    else if entry.upstream.any (trim · = "") then .error (.empty_upstream_mapping entry.name)
    else validate_models protocol models

/-- The endpoints are checked one after another, each against the protocols before
    it. -/
def validate_endpoints (seen : ProtocolSet) : List ChannelEndpoint → Except ChannelError Unit
  | [] => .ok ()
  | ep :: endpoints => do
    if seen.contains ep.protocol then throw (.duplicate_protocol ep.protocol)
    if ep.transcode.accepted.contains ep.protocol then throw (.self_transcode ep.protocol)
    let has_own := ep.credential.any (!·.is_empty)
    if !has_own && self.credential.is_empty && self.credentials.isEmpty then throw (.missing_credential ep.protocol)
    validate_models ep.protocol ep.models
    if ep.address.unofficial && base_url_missing ep.address then throw (.missing_unofficial_base_url ep.protocol)
    validate_endpoints (seen.insert ep.protocol) endpoints

/-- The headers that are the gateway's own. -/
def managed_headers : List String := ["authorization", "host", "content-length", "content-type", "x-api-key"]

def validate_headers : List (String × String) → Except ChannelError Unit
  | [] => .ok ()
  | (name, value) :: headers =>
    let normalized := (trim name).toLower
    if normalized = "" || !normalized.toList.all (fun c => '!' ≤ c && c ≤ '~') then .error (.invalid_extra_header name)
    else if managed_headers.contains normalized then .error (.forbidden_extra_header normalized)
    else if value.toList.any fun c => c = '\r' || c = '\n' then .error (.invalid_extra_header_value name)
    else validate_headers headers

/-- What every channel has to meet that is stored. -/
def validate : Except ChannelError Unit := do
  if trim self.name = "" then throw .empty_name
  if self.endpoints.isEmpty then throw .no_endpoints
  if self.credentials.any (·.is_empty) then throw .empty_pool_credential
  self.validate_kind
  self.validate_endpoints {} self.endpoints
  if self.address.unofficial && base_url_missing self.address then throw .missing_default_unofficial_base_url
  validate_headers self.extra_headers
  self.empty_response_retry.validate.mapError .invalid_empty_response_retry

/-- What the check finds about one endpoint. -/
structure EndpointValid (channel : Channel) (ep : ChannelEndpoint) : Prop where
  self_transcode : ep.transcode.accepted.contains ep.protocol = false
  credential : ep.credential.any (!·.is_empty) = true ∨ channel.credential.is_empty = false ∨ channel.credentials ≠ []
  models : validate_models ep.protocol ep.models = .ok ()
  address : (ep.address.unofficial && base_url_missing ep.address) = false

/-- What the check finds, without its order. -/
structure Valid (channel : Channel) : Prop where
  name : trim channel.name ≠ ""
  endpoints : channel.endpoints ≠ []
  pool : ∀ c ∈ channel.credentials, c.is_empty = false
  kind : ∀ native, channel.kind.native_protocol = some native → ∃ ep, channel.endpoints = [ep] ∧ ep.protocol = native
  each : ∀ ep ∈ channel.endpoints, channel.EndpointValid ep
  distinct : channel.endpoints.Pairwise (·.protocol ≠ ·.protocol)
  address : (channel.address.unofficial && base_url_missing channel.address) = false
  headers : validate_headers channel.extra_headers = .ok ()
  retry : channel.empty_response_retry.validate = .ok ()

end Channel

namespace ProtocolSet

theorem bit_and_bit (p q : Protocol) : bit p &&& bit q ≠ 0 ↔ p = q := by
  cases p <;> cases q <;> decide

@[simp] theorem contains_empty (p : Protocol) : contains {} p = false := by
  cases p <;> decide

theorem contains_insert (self : ProtocolSet) (p q : Protocol) : (self.insert p).contains q = true ↔ p = q ∨ self.contains q = true := by
  have hsplit : (self.insert p).bits &&& bit q = (bit p &&& bit q) ||| (self.bits &&& bit q) := by
    simp only [insert, BitVec.and_or_distrib_right]
    exact BitVec.or_comm _ _
  have hzero : bit p &&& bit q ||| self.bits &&& bit q = 0 ↔ bit p &&& bit q = 0 ∧ self.bits &&& bit q = 0 :=
    BitVec.or_eq_zero_iff
  simp only [contains, decide_eq_true_eq, hsplit, ne_eq, hzero, not_and_or, ← bit_and_bit p q]

theorem contains_insert_eq_false (self : ProtocolSet) (p q : Protocol) :
    (self.insert p).contains q = false ↔ p ≠ q ∧ self.contains q = false := by
  rw [← Bool.not_eq_true, contains_insert, not_or, Bool.not_eq_true]

end ProtocolSet

namespace Channel

variable {self : Channel}

theorem validate_kind_ok :
    self.validate_kind = .ok () ↔
      ∀ native, self.kind.native_protocol = some native → ∃ ep, self.endpoints = [ep] ∧ ep.protocol = native := by
  unfold validate_kind
  cases hnative : self.kind.native_protocol with
  | none => simp
  | some native =>
    rcases hendpoints : self.endpoints with _ | ⟨ep, _ | ⟨second, rest⟩⟩
    · simp
    · simp
    · simp

theorem endpoints_ok {seen : ProtocolSet} {endpoints : List ChannelEndpoint} :
    self.validate_endpoints seen endpoints = .ok () ↔
      (∀ ep ∈ endpoints, self.EndpointValid ep ∧ seen.contains ep.protocol = false) ∧
        endpoints.Pairwise (·.protocol ≠ ·.protocol) := by
  induction endpoints generalizing seen with
  | nil => simp [validate_endpoints]
  | cons ep rest ih =>
    unfold validate_endpoints
    dsimp only
    simp only [throw_if_eq_ok, bind_eq_ok, exists_ok_unit]
    constructor
    · rintro ⟨hseen, hself, hcredential, hmodels, haddress, hrest⟩
      obtain ⟨hall, hdistinct⟩ := ih.mp hrest
      have hothers : ∀ other ∈ rest, ep.protocol ≠ other.protocol ∧ seen.contains other.protocol = false :=
        fun other hother => (ProtocolSet.contains_insert_eq_false _ _ _).mp (hall other hother).2
      have hvalid : self.EndpointValid ep := by
        refine ⟨by simpa using hself, ?_, hmodels, by simpa using haddress⟩
        simpa only [Bool.and_eq_true, not_and_or, Bool.not_eq_true', Bool.not_eq_true, Bool.not_eq_false, List.isEmpty_iff, or_assoc] using hcredential
      refine ⟨List.forall_mem_cons.mpr ⟨⟨hvalid, by simpa using hseen⟩, fun other hother => ?_⟩, ?_⟩
      · exact ⟨(hall other hother).1, (hothers other hother).2⟩
      · exact List.pairwise_cons.mpr ⟨fun other hother => (hothers other hother).1, hdistinct⟩
    · rintro ⟨hall, hdistinct⟩
      obtain ⟨⟨hvalid, hseen⟩, hall⟩ := List.forall_mem_cons.mp hall
      obtain ⟨hfirst, hdistinct⟩ := List.pairwise_cons.mp hdistinct
      refine ⟨by simpa using hseen, by simpa using hvalid.self_transcode, ?_, hvalid.models, by simpa using hvalid.address, ?_⟩
      · have hcredential := hvalid.credential
        simpa only [Bool.and_eq_true, not_and_or, Bool.not_eq_true', Bool.not_eq_true, Bool.not_eq_false, List.isEmpty_iff, or_assoc] using hcredential
      · refine ih.mpr ⟨fun other hother => ⟨(hall other hother).1, ?_⟩, hdistinct⟩
        exact (ProtocolSet.contains_insert_eq_false _ _ _).mpr ⟨hfirst other hother, (hall other hother).2⟩

/-- The check accepts the valid channels, and no others. -/
theorem validate_ok_iff : self.validate = .ok () ↔ self.Valid := by
  unfold validate
  dsimp only
  simp only [throw_if_eq_ok, bind_eq_ok, exists_ok_unit, mapError_eq_ok, validate_kind_ok, endpoints_ok]
  constructor
  · rintro ⟨hname, hendpoints, hpool, hkind, ⟨heach, hdistinct⟩, haddress, hheaders, hretry⟩
    exact ⟨hname, by simpa using hendpoints, by simpa using hpool, hkind, fun ep hep => (heach ep hep).1, hdistinct,
      by simpa using haddress, hheaders, hretry⟩
  · intro h
    exact ⟨h.name, by simpa using h.endpoints, by simpa using h.pool, h.kind,
      ⟨fun ep hep => ⟨h.each ep hep, ProtocolSet.contains_empty _⟩, h.distinct⟩, by simpa using h.address, h.headers, h.retry⟩

end Channel

end refract.core
