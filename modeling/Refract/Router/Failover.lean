import Refract.Router.Execute

open refract.core refract.json refract.ir refract.stream refract.upstream refract.codec

namespace refract.router

section Reading

variable (serde : Serde) (texts : Texts)

/-- The document that is made of a body. There is always one for an empty body. -/
def document (body : Bytes) : Option Value := if body = [] then some .null else from_slice serde body

theorem read_body_eq (raw : UpstreamRawResponse) :
    (∃ value, document serde raw.body = some value ∧ read_body serde texts raw = .ok value) ∨
    (document serde raw.body = none ∧
      ∃ error, error.kind = .upstreamError ∧ read_body serde texts raw = .error error) := by
  unfold document read_body
  by_cases hempty : raw.body = []
  · exact .inl ⟨.null, by simp [hempty]⟩
  · cases hread : from_slice serde raw.body with
    | some value => exact .inl ⟨value, by simp [hempty]⟩
    | none => exact .inr ⟨by simp [hempty], _, by simp only [hempty, if_false]; exact ⟨rfl, rfl⟩⟩

/-- The reading of an answer. -/
def read_response (moment : Moment) (protocol : Protocol) (raw : UpstreamRawResponse) : Except GatewayError UnifiedResponse := do
  let body ← read_body serde texts raw
  decode_response serde moment.uuid moment.now protocol body

/-- The body is an error of the upstream's own. -/
def ReportsError (protocol : Protocol) (body : Bytes) : Prop :=
  ∃ value, document serde body = some value ∧ ErrorEnvelope protocol value

/-- The body is no JSON, an error of the upstream's own, or a response. -/
def Recognized (protocol : Protocol) (body : Bytes) : Prop :=
  ∀ value, document serde body = some value → ErrorEnvelope protocol value ∨ Readable protocol value

/-- An unreadable body that is JSON is put down to the client. -/
theorem read_response_of_not_recognized {protocol : Protocol} {body : Bytes} (h : ¬ Recognized serde protocol body) :
    ¬ ReportsError serde protocol body ∧ ∀ (moment : Moment) (raw : UpstreamRawResponse), raw.body = body →
      ∃ message, read_response serde texts moment protocol raw = .error (.invalid_request message) := by
  unfold Recognized at h
  push Not at h
  obtain ⟨value, hdocument, henvelope, hreadable⟩ := h
  refine ⟨?_, ?_⟩
  · rintro ⟨other, hother, hreports⟩
    rw [hdocument] at hother
    exact henvelope (Option.some.inj hother ▸ hreports)
  · rintro moment raw rfl
    obtain ⟨other, hother, hbody⟩ | ⟨hnone, -⟩ := read_body_eq serde texts raw
    · rw [hdocument] at hother
      obtain rfl := Option.some.inj hother
      obtain ⟨h, -⟩ | ⟨-, h, -⟩ | ⟨-, -, message, herror⟩ := decode_response_outcome serde moment.uuid moment.now protocol value
      · exact absurd h henvelope
      · exact absurd h hreadable
      · exact ⟨message, by rw [read_response, hbody]; exact herror⟩
    · rw [hdocument] at hnone
      cases hnone

/-- Of a recognized body only text that is no JSON is an error of the gateway's
    own. -/
theorem read_response_of_recognized {protocol : Protocol} {raw : UpstreamRawResponse} {moment : Moment} {error : GatewayError}
    (h : Recognized serde protocol raw.body) (hreports : ¬ ReportsError serde protocol raw.body)
    (herror : read_response serde texts moment protocol raw = .error error) :
    read_body serde texts raw = .error error ∧ error.kind = .upstreamError := by
  obtain ⟨value, hdocument, hbody⟩ | ⟨-, own, hkind, hbody⟩ := read_body_eq serde texts raw
  · obtain henvelope | hreadable := h value hdocument
    · exact absurd ⟨value, hdocument, henvelope⟩ hreports
    · obtain ⟨henvelope, -⟩ | ⟨-, -, response, hok⟩ | ⟨-, hnot, -⟩ :=
        decode_response_outcome serde moment.uuid moment.now protocol value
      · exact absurd ⟨value, hdocument, henvelope⟩ hreports
      · rw [read_response, hbody] at herror
        cases hok.symm.trans herror
      · exact absurd hreadable hnot
  · rw [read_response, hbody] at herror
    cases herror
    exact ⟨hbody, hkind⟩

end Reading

section Failover

/-- An error for which another candidate is tried, and which counts against the
    endpoint. -/
def UpstreamFault (kind : ErrorKind) : Prop := kind.is_retryable = true ∧ affects_endpoint_health kind = true

/-- The loop records a failure of a kind at the candidate and goes on to the
    candidates that are left. -/
def Loop.MovesOn {route : Route} {ρ α : Type} (loop : Loop route ρ α) (progress : Progress) (attempt : Attempt route)
    (rest : List route.Place) (moment : Moment) (reply : ρ) (kind : ErrorKind) : Prop :=
  ∃ recorded last : GatewayError, recorded.kind = kind ∧ last.kind = kind ∧
    loop.step (.awaiting progress attempt rest) moment reply =
      (loop.visit { progress with last_error := last } rest).after [.failure attempt.idx recorded]

theorem Loop.movesOn_of_failed {route : Route} {ρ α : Type} (loop : Loop route ρ α) (progress : Progress)
    (attempt : Attempt route) (rest : List route.Place) {moment : Moment} {reply : ρ} {error : GatewayError}
    (hjudge : loop.judge attempt.idx moment attempt.empty_retries reply = .failed error)
    (hretryable : error.kind.is_retryable = true) (hkey : error.kind.is_key_failure = false) :
    loop.MovesOn progress attempt rest moment reply error.kind := by
  let final := attempt.rotator.exhausted_error error
  let recorded := annotate_candidate_error final (route.candidate attempt.idx) progress.attempts
  let last : GatewayError := { recorded with credential_hint := some attempt.rotator.hint }
  have hkind : recorded.kind = error.kind := attempt.rotator.exhausted_error_kind error
  have haffects : affects_endpoint_health recorded.kind = true :=
    affects_endpoint_health_of_is_retryable (hkind ▸ hretryable)
  have hagain : recorded.is_retryable = true := by rw [GatewayError.is_retryable, hkind, hretryable]
  refine ⟨recorded, last, hkind, hkind, ?_⟩
  have hrotate := attempt.rotator.rotate_of_not_key_failure hkey
  simp only [Loop.step, hjudge, Loop.on_failure, hrotate]
  rw [if_pos hagain, Loop.record_failure, if_pos haffects]

namespace RouteExecutor

variable {Request : Type} (executor : RouteExecutor Request)

/-- The answers of a candidate are read, and not passed on as they are. -/
def Reads (route : Route) (payload : InboundPayload Request) (candidate : Candidate) : Prop :=
  match payload with
  | .normalized _ => True
  | .raw _ _ _ _ _ => candidate.needs_transcode route.inbound = true

/-- A reader judges the answers of such a candidate. -/
theorem execute_judge {route : Route} {payload : InboundPayload Request} {idx : route.Place}
    (hreads : Reads route payload (route.candidate idx)) (first_index : route.Place → Nat) (moment : Moment)
    (empty_retries : Nat) (reply : Reply) :
    (executor.execute route first_index payload).judge idx moment empty_retries reply =
      judge_transcoded executor.serde executor.texts moment (route.candidate idx).protocol
        (executor.empty_response_retry_for (route.candidate idx)) empty_retries reply := by
  cases payload with
  | normalized ir => rfl
  | raw protocol body model stream headers =>
    have hneeds : (route.candidate idx).needs_transcode route.inbound = true := hreads
    simp only [execute, execute_raw, hneeds, if_true]

/-- An answer of an upstream with this body is never blamed on the client: what
    makes it unreadable is a fault of the upstream, unless the upstream reports an
    error of its own, and an execution that waits for the answer goes on to the
    next candidate. -/
def FailsOver (protocol : Protocol) (body : Bytes) : Prop :=
  ∀ (moment : Moment) (raw : UpstreamRawResponse) (error : GatewayError), raw.body = body → raw.is_success →
    read_response executor.serde executor.texts moment protocol raw = .error error →
    ¬ ReportsError executor.serde protocol body →
    UpstreamFault error.kind ∧
    ∀ (route : Route) (first_index : route.Place → Nat) (payload : InboundPayload Request) (progress : Progress)
      (attempt : Attempt route) (rest : List route.Place),
      (route.candidate attempt.idx).protocol = protocol → Reads route payload (route.candidate attempt.idx) →
      executor.config.empty_response_retry.reject_nonstandard_200 = false →
      let loop := executor.execute route first_index payload
      loop.judge attempt.idx moment attempt.empty_retries (.ok raw) ≠ .retry_empty →
      loop.MovesOn progress attempt rest moment (.ok raw) error.kind

/-- An answer that is JSON and nothing else that is known is blamed on the
    client. -/
theorem not_failsOver {protocol : Protocol} {body : Bytes} (hnot : ¬ Recognized executor.serde protocol body) :
    ¬ executor.FailsOver protocol body := by
  intro h
  obtain ⟨hreports, hinvalid⟩ := read_response_of_not_recognized executor.serde executor.texts hnot
  let raw : UpstreamRawResponse := ⟨200, body, [], 0⟩
  have hsuccess : raw.is_success := ⟨le_refl 200, Nat.lt_of_sub_pos (Nat.succ_pos 99)⟩
  obtain ⟨message, herror⟩ := hinvalid ⟨"", 0, 0⟩ raw rfl
  obtain ⟨⟨hretryable, -⟩, -⟩ := h ⟨"", 0, 0⟩ raw _ rfl hsuccess herror hreports
  cases hretryable

/-- An answer is never blamed on the client exactly when its body is no JSON, an
    error of the upstream's own, or a response that can be read. -/
theorem failsOver_iff (protocol : Protocol) (body : Bytes) :
    executor.FailsOver protocol body ↔ Recognized executor.serde protocol body := by
  constructor
  · intro h
    by_contra hnot
    exact executor.not_failsOver hnot h
  · rintro h moment raw error rfl - herror hreports
    obtain ⟨hbody, hkind⟩ := read_response_of_recognized executor.serde executor.texts h hreports herror
    refine ⟨by rw [hkind]; exact ⟨rfl, rfl⟩, ?_⟩
    intro route first_index payload progress attempt rest hprotocol hreads hstrict loop hnotRetried
    apply Loop.movesOn_of_failed
    · have hpolicy : (executor.empty_response_retry_for (route.candidate attempt.idx)).reject_nonstandard_200 = false := hstrict
      have hsend : send executor.serde executor.texts (.ok raw) = .error error := by
        change (read_body executor.serde executor.texts raw >>= _) = _
        rw [hbody]
        rfl
      rw [execute_judge executor hreads]
      simp [judge_transcoded, hsend, strict_200_parse_error, hpolicy]
    · rw [hkind]; rfl
    · rw [hkind]; rfl

/-- An upstream that answers with an empty array is not held responsible. -/
theorem empty_array_blamed_on_client : ¬ plain.FailsOver .chat (as_bytes (Serde.compact.to_string (.array []))) := by
  apply not_failsOver
  intro hrecognized
  have hread : document plain.serde (as_bytes (Serde.compact.to_string (.array []))) = some (.array []) := by
    have hsome : as_bytes (Serde.compact.to_string (.array [])) ≠ [] := by decide +kernel
    rw [document, if_neg hsome, from_slice, from_utf8_as_bytes]
    exact Serde.compact_lawful.from_str_to_string _ (by simp)
  obtain henvelope | ⟨hobject, -⟩ := hrecognized _ hread
  · cases henvelope
  · cases hobject

end RouteExecutor

end Failover

end refract.router
