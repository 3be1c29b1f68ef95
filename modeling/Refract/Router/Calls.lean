import Refract.Router.Execute

open refract.core refract.json refract.stream refract.upstream

namespace refract.router

/-- The call that is made with a key, if there is one. -/
def Preparation.call (credential : Credential) : Preparation → Option UpstreamRequest
  | .ready request => some (request credential)
  | .skipped _ | .aborted _ => none

namespace RouteExecutor

variable {Request : Type} (executor : RouteExecutor Request) (route : Route) (first_index : route.Place → Nat)

/-- The body of a request for a candidate that speaks another protocol. -/
def Encodes (idx : route.Place) (ir : Request) : Prop :=
  (route.candidate idx).needs_transcode route.inbound = true ∧
    ∃ body, encode_for executor.codec (route.candidate idx) ir = .ok body

section Body

variable (protocol : Protocol) (raw_body : Bytes) (model : String) (stream : Bool) (headers : List (String × String))

/-- The request that the body of a client stands for. -/
def decoded : Except GatewayError Request :=
  decode_raw_request executor.codec executor.serde executor.texts protocol raw_body model stream

/-- A client's body and the request read from it make the same calls to a
    candidate that speaks another protocol. -/
def CallsAgreeAt (idx : route.Place) (ir : Request) : Prop :=
  ∀ (attempts : Nat) (credential : Credential),
    (((executor.execute route first_index (.raw protocol raw_body model stream headers)).prepare idx attempts).call credential =
      ((executor.execute route first_index (.normalized ir)).prepare idx attempts).call credential) ∧
    (((executor.execute_stream route first_index (.raw protocol raw_body model stream headers)).prepare idx attempts).call
        credential =
      ((executor.execute_stream route first_index (.normalized ir)).prepare idx attempts).call credential)

/-- A client's body and the request read from it make the same calls to every
    candidate that speaks another protocol. -/
def CallsAgree : Prop :=
  ∀ (idx : route.Place) (ir : Request), (route.candidate idx).needs_transcode route.inbound = true →
    executor.decoded protocol raw_body model stream = .ok ir →
    executor.CallsAgreeAt route first_index protocol raw_body model stream headers idx ir

variable {protocol raw_body model stream}

theorem callsAgreeAt_iff {idx : route.Place} {ir : Request}
    (hneeds : (route.candidate idx).needs_transcode route.inbound = true)
    (hdecoded : executor.decoded protocol raw_body model stream = .ok ir) :
    executor.CallsAgreeAt route first_index protocol raw_body model stream headers idx ir ↔
      (executor.Encodes route idx ir → (route.candidate idx).channel.extra_headers = []) := by
  have hread : decode_raw_request executor.codec executor.serde executor.texts protocol raw_body model stream = .ok ir := hdecoded
  cases hbody : encode_for executor.codec (route.candidate idx) ir with
  | error error =>
    have hnot : ¬ executor.Encodes route idx ir := by
      rintro ⟨-, body, hok⟩
      cases hbody.symm.trans hok
    simp [CallsAgreeAt, execute, execute_raw, execute_normalized, execute_stream, execute_stream_raw,
      execute_stream_normalized, hneeds, hread, hbody, Preparation.call, hnot]
  | ok body =>
    have hencodes : executor.Encodes route idx ir := ⟨hneeds, body, hbody⟩
    simp only [hencodes, true_implies, CallsAgreeAt, execute, execute_raw, execute_normalized, execute_stream,
      execute_stream_raw, execute_stream_normalized, hneeds, hread, hbody, if_true, Preparation.call, merged_headers,
      List.nil_append, Option.some.injEq]
    constructor
    · intro h
      have hheaders := congrArg UpstreamRequest.extra_headers (h 0 ⟨""⟩).1
      exact hheaders.symm
    · rintro hempty - credential
      rw [hempty]
      exact ⟨rfl, rfl⟩

/-- The calls agree exactly when no channel of a candidate that the request is
    written for has headers of its own. -/
theorem callsAgree_iff :
    executor.CallsAgree route first_index protocol raw_body model stream headers ↔
      ∀ (idx : route.Place) (ir : Request), executor.decoded protocol raw_body model stream = .ok ir →
        executor.Encodes route idx ir → (route.candidate idx).channel.extra_headers = [] := by
  constructor
  · intro h idx ir hdecoded hencodes
    exact (executor.callsAgreeAt_iff route first_index headers hencodes.1 hdecoded).mp (h idx ir hencodes.1 hdecoded) hencodes
  · intro h idx ir hneeds hdecoded
    exact (executor.callsAgreeAt_iff route first_index headers hneeds hdecoded).mpr (h idx ir hdecoded)

end Body

/-- A Messages client's request with one candidate, a Chat upstream whose relay
    wants a header of its own. -/
def relayed : Route where
  inbound := .messages
  model := "m"
  attempts := [{
    channel := {
      id := 1, owner_id := 1, tags := [], visibility := .shared, user_id := none
      extra_headers := [("x-route", "east")] }
    endpoint := { protocol := .chat }
    model := ⟨"m", none⟩
    rank := ⟨false, 0, 0⟩ }]
  attempt_cap := 1
  max_upstream_calls := 0
  identity := none

/-- The header is missing from a call that is made from the client's body. -/
theorem channel_header_lost : ¬ plain.CallsAgree relayed (fun _ => 0) .messages
    (as_bytes (Serde.compact.to_string (.object []))) "m" false [] := by
  intro h
  have hread : plain.decoded .messages (as_bytes (Serde.compact.to_string (.object []))) "m" false = .ok (.object []) := by
    have hslice : from_slice plain.serde (as_bytes (Serde.compact.to_string (.object []))) = some (.object []) := by
      rw [from_slice, from_utf8_as_bytes]
      exact Serde.compact_lawful.from_str_to_string _ (by simp)
    rw [decoded, decode_raw_request, hslice]
    rfl
  have hcalls := (h (0 : Fin 1) (.object []) rfl hread 0 ⟨""⟩).1
  have hraw : (plain.execute relayed (fun _ => 0) (.raw .messages (as_bytes (Serde.compact.to_string (.object []))) "m" false
      [])).prepare (0 : Fin 1) 0 = .ready fun credential =>
        UpstreamRequest.post .chat {} credential "m" .generate (.object [("model", .string "m")]) := by
    have hdecoded : decode_raw_request plain.codec plain.serde plain.texts .messages
        (as_bytes (Serde.compact.to_string (.object []))) "m" false = .ok (.object []) := hread
    simp only [execute, execute_raw, hdecoded]
    rfl
  rw [hraw] at hcalls
  have hheaders := congrArg (Option.map UpstreamRequest.extra_headers) hcalls
  cases hheaders

end RouteExecutor

end refract.router
