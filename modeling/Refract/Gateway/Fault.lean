import Refract.Gateway.Headers
import Refract.Gateway.Ticket
import Refract.Router.StreamUsage
import Refract.Router.Bounds

open refract.json refract.stream

namespace refract.core.ErrorKind

/-- The error type in the manner of Anthropic. -/
def anthropic_type : ErrorKind → String
  | .invalidRequest | .transcodeNotPermitted => "invalid_request_error"
  | .unauthenticated => "authentication_error"
  | .permissionDenied => "permission_error"
  | .notFound => "not_found_error"
  | .payloadTooLarge => "request_too_large"
  | .rateLimited => "rate_limit_error"
  | .upstreamError | .noAvailableChannel => "api_error"
  | .timeout => "timeout_error"
  | .transcodeFailed | .configuration | .internal | .invalidUpstreamResponse => "api_error"

/-- The error status in the manner of Google. -/
def google_status : ErrorKind → String
  | .invalidRequest | .transcodeNotPermitted => "INVALID_ARGUMENT"
  | .unauthenticated => "UNAUTHENTICATED"
  | .permissionDenied => "PERMISSION_DENIED"
  | .notFound => "NOT_FOUND"
  | .payloadTooLarge => "OUT_OF_RANGE"
  | .rateLimited => "RESOURCE_EXHAUSTED"
  | .upstreamError => "INTERNAL"
  | .noAvailableChannel => "UNAVAILABLE"
  | .timeout => "DEADLINE_EXCEEDED"
  | .transcodeFailed | .configuration | .internal | .invalidUpstreamResponse => "INTERNAL"

end refract.core.ErrorKind

open refract.core

namespace refract.upstream

/-- The longest wait that an upstream may ask for, in seconds. -/
def MAX_RETRY_AFTER : Nat := 3600

/-- How long an upstream asks to wait. Only a number of seconds counts. -/
def parse_retry_after (headers : HeaderMap) : Option Nat := do
  let value ← headers.lookup "retry-after"
  let text ← to_str value
  let secs ← gateway.tickets.parse_u64 (trim text).toList
  return min secs MAX_RETRY_AFTER

def attach_retry_after (error : GatewayError) (retry_after : Option Nat) : GatewayError :=
  match retry_after with
  | some wait => { error with retry_after := some wait }
  | none => error

/-- The kind of an error that a status stands for. -/
def status_kind (status : Nat) : ErrorKind :=
  match status with
  | 401 => .unauthenticated
  | 403 => .permissionDenied
  | 404 => .notFound
  | 413 => .payloadTooLarge
  | 429 => .rateLimited
  | 408 | 504 => .timeout
  | 400 | 422 => .invalidRequest
  | _ => .upstreamError

/-- The first of the places where an error body may have a text for people. -/
def message_in (value : Value) : Option String :=
  let error := value.get "error"
  let candidates := [error.bind (·.get "message"), error, value.get "message", value.get "detail", value.get "error_msg"]
  candidates.findSome? fun candidate =>
    match candidate with
    | some (.string s) => if trim s = "" then none else some s
    | _ => none

/-- The message of an error body, which may stand in a list. -/
def extract_error_message (serde : Serde) (body : Bytes) : Option String :=
  match from_slice serde body with
  | some (.array items) => items.head?.bind message_in
  | some other => message_in other
  | none => none

/-- The error that an answer of an upstream stands for. -/
def upstream_status_error (serde : Serde) (texts : Texts) (status : Nat) (body : Bytes) : GatewayError :=
  let detail := (extract_error_message serde body).getD ("upstream returned HTTP " ++ toString status)
  (GatewayError.new (status_kind status) detail).with_upstream status (snippet texts body)

/-- What a call comes to whose whole answer was read. -/
def receive (serde : Serde) (texts : Texts) (raw : UpstreamRawResponse) : Except GatewayError UpstreamRawResponse :=
  if 200 ≤ raw.status ∧ raw.status < 300 then .ok raw
  else .error (attach_retry_after (upstream_status_error serde texts raw.status raw.body) (parse_retry_after raw.headers))

end refract.upstream

open refract.upstream

namespace refract.gateway

/-- The members of an error in the form of a protocol. -/
def error_fields (err : GatewayError) : Protocol → Map
  | .chat | .responses =>
    [("message", .string err.message), ("type", .string err.kind.openai_type), ("param", .null), ("code", .null)]
  | .messages => [("type", .string err.kind.anthropic_type), ("message", .string err.message)]
  | .gemini => [("code", .nat err.kind.status), ("message", .string err.message), ("status", .string err.kind.google_status)]

/-- The members of an error with its details. -/
def error_members (details : Option Value) (error : Map) : Map :=
  ((details.bind Value.as_object).getD []).foldl (fun error (key, value) => Map.insert error key value) error

def error_body (err : GatewayError) (details : Option Value) (protocol : Protocol) : Value :=
  .object ((if protocol = .messages then [("type", .string "error")] else []) ++
    [("error", .object (error_members details (error_fields err protocol)))])

/-- An error on its way to a client. -/
structure ProtocolRejection where
  error : GatewayError
  details : Option Value := none
  protocol : Protocol
  /-- A status that the error does not stand for. -/
  status : Option Nat := none
  request_id : Option Bytes := none

/-- How long a client is asked to wait. -/
def retry_after_value (wait : Nat) : Bytes := as_bytes (String.ofList (digits (max wait 1)))

/-- The answer that a client gets. -/
def ProtocolRejection.into_response (serde : Serde) (self : ProtocolRejection) : UpstreamRawResponse where
  status := self.status.getD self.error.kind.status
  body := as_bytes (serde.to_string (error_body self.error self.details self.protocol))
  headers :=
    [("content-type", as_bytes "application/json")] ++
    (self.request_id.map fun id => ("x-refract-request-id", id)).toList ++
    (self.error.retry_after.map fun wait => ("retry-after", retry_after_value wait)).toList
  first_byte_to_end := 0

end refract.gateway

namespace refract.router

variable {route : Route} {ρ α : Type} {loop : Loop route ρ α} {idx : route.Place} {moment : Moment} {reply : ρ} {error : GatewayError}

/-- Errors that tell the same. -/
structure SameFault (before after : GatewayError) : Prop where
  kind : after.kind = before.kind
  message : after.message = before.message
  retry_after : after.retry_after = before.retry_after

/-- With one key, its failure is what the execution comes to. -/
theorem Loop.on_failure_alone (progress : Progress) {attempt : Attempt route} (hsingle : attempt.rotator.pool.len < 2)
    (error : GatewayError) :
    ∃ after, (loop.on_failure progress attempt [] error : Turn route α).state = .finished (.error after) ∧ SameFault error after := by
  have hrotate : ∃ rotator, attempt.rotator.rotate error.kind = (false, rotator) ∧ rotator.pool.len < 2 := by
    unfold KeyRotator.rotate
    split
    · exact ⟨_, rfl, hsingle⟩
    split
    · exact ⟨_, rfl, hsingle⟩
    rw [if_pos (by simp [hsingle])]
    exact ⟨_, rfl, hsingle⟩
  obtain ⟨rotator, hrotate, hpool⟩ := hrotate
  have hlast : rotator.exhausted_error error = error := by
    rw [KeyRotator.exhausted_error, if_pos (by simp [hpool])]
  unfold Loop.on_failure
  rw [hrotate]
  dsimp only
  rw [hlast]
  split
  · exact ⟨_, rfl, rfl, rfl, rfl⟩
  · exact ⟨_, rfl, rfl, rfl, rfl⟩

/-- An execution whose only call failed ends with what failed. -/
theorem Loop.run_alone (hcalled : (loop.run [idx] []).effects ≠ [])
    (hsingle : ((route.candidate idx).channel.key_pool (route.candidate idx).endpoint).len < 2)
    (hjudge : loop.judge idx moment 0 reply = .failed error) :
    ∃ after, (loop.run [idx] [(moment, reply)]).state = .finished (.error after) ∧ SameFault error after := by
  have hstart : ∀ progress, (loop.visit progress [idx]).effects ≠ [] → ∃ progress' attempt,
      (loop.visit progress [idx]).state = .awaiting progress' attempt [] ∧ attempt.idx = idx ∧ attempt.empty_retries = 0 ∧
        attempt.rotator.pool.len < 2 := by
    intro progress heffects
    rw [Loop.visit] at heffects ⊢
    generalize (if loop.counts_first = true then progress.attempt else progress) = looked at heffects ⊢
    cases hprepare : loop.prepare idx looked.attempts with
    | skipped error =>
      rw [hprepare] at heffects
      exact absurd rfl heffects
    | aborted error =>
      rw [hprepare] at heffects
      exact absurd rfl heffects
    | ready request =>
      rw [hprepare] at heffects
      dsimp only at heffects ⊢
      generalize (if loop.counts_first = true then looked else looked.attempt) = counted at heffects ⊢
      obtain hexhausted | ⟨-, hcall⟩ := call_cases (α := α) counted
        { idx := idx, request := request,
          rotator := { pool := (route.candidate idx).channel.key_pool (route.candidate idx).endpoint, index := loop.first_index idx } } []
      · rw [hexhausted] at heffects
        exact absurd rfl heffects
      · rw [hcall]
        exact ⟨_, _, rfl, rfl, rfl, hsingle⟩
  obtain ⟨progress, attempt, hstate, rfl, hretries, hpool⟩ := hstart _ hcalled
  have hstep : (loop.run [attempt.idx] [(moment, reply)]).state = (loop.on_failure progress attempt [] error).state := by
    change (loop.step (loop.visit _ [attempt.idx]).state moment reply).state = _
    rw [hstate, Loop.step]
    dsimp only
    rw [hretries, hjudge]
  rw [hstep]
  exact Loop.on_failure_alone progress hpool error

end refract.router

open refract.router

namespace refract.gateway

variable {serde : Serde} {texts : Texts}

section Written

variable {err : GatewayError} {details : Option Value}

/-- Details that leave the message of an error alone. -/
structure Apart (details : Option Value) : Prop where
  wellFormed : ∀ value ∈ details, value.WellFormed
  spares : ∀ obj, details = some (.object obj) → obj.lookup "message" = none

theorem error_members_wellFormed (hdetails : Apart details) {error : Map} (herror : (Value.object error).WellFormed) :
    (Value.object (error_members details error)).WellFormed := by
  refine Map.wellFormed_foldl_insert (fun entry hentry => ?_) herror
  cases hvalue : details with
  | none =>
    rw [hvalue] at hentry
    cases hentry
  | some value =>
    rw [hvalue] at hentry
    have hwell := hdetails.wellFormed value hvalue
    cases value with
    | object obj => exact ((Value.wellFormed_object obj).mp hwell).2 entry hentry
    | _ => cases hentry

theorem error_members_message (hdetails : Apart details) (error : Map) :
    Map.get (error_members details error) "message" = Map.get error "message" := by
  refine lookup_foldl_insert ?_ error
  cases hvalue : details with
  | none => rfl
  | some value =>
    cases value with
    | object obj => exact hdetails.spares obj hvalue
    | _ => rfl

theorem error_fields_written (err : GatewayError) (protocol : Protocol) :
    (Value.object (error_fields err protocol)).WellFormed ∧
      Map.get (error_fields err protocol) "message" = some (.string err.message) := by
  cases protocol with
  | chat => exact ⟨by simp [error_fields], rfl⟩
  | responses => exact ⟨by simp [error_fields], rfl⟩
  | messages => exact ⟨by simp [error_fields], rfl⟩
  | gemini => exact ⟨by simp [error_fields], rfl⟩

/-- The message of an error stands in the same place in every form. -/
theorem error_body_written (hdetails : Apart details) (protocol : Protocol) :
    (error_body err details protocol).WellFormed ∧
      ∃ error, (error_body err details protocol).get "error" = some (.object error) ∧
        Map.get error "message" = some (.string err.message) := by
  obtain ⟨hfields, hmessage⟩ := error_fields_written err protocol
  have hwell := error_members_wellFormed hdetails hfields
  have hkept := (error_members_message hdetails _).trans hmessage
  rw [error_body]
  split
  · exact ⟨by simpa using hwell, _, rfl, hkept⟩
  · exact ⟨by simpa using hwell, _, rfl, hkept⟩

/-- Whatever form an error is written in, its message is read back. -/
theorem extract_written (hserde : serde.Lawful) (hdetails : Apart details) (hworded : trim err.message ≠ "") (protocol : Protocol) :
    extract_error_message serde (as_bytes (serde.to_string (error_body err details protocol))) = some err.message := by
  obtain ⟨hwell, error, herror, hmessage⟩ := @error_body_written err details hdetails protocol
  have hread : from_slice serde (as_bytes (serde.to_string (error_body err details protocol))) = some (error_body err details protocol) := by
    rw [from_slice, from_utf8_as_bytes]
    exact hserde.from_str_to_string _ hwell
  have hfirst : (Value.object error).get "message" = some (.string err.message) := hmessage
  rw [extract_error_message, hread]
  change message_in (error_body err details protocol) = _
  rw [message_in, herror, Option.bind_some, hfirst, List.findSome?_cons]
  dsimp only
  rw [if_neg hworded]

end Written

section Waiting

/-- A visible character is one byte. -/
theorem utf8_visible {c : Char} (h : 32 ≤ c.toNat ∧ c.toNat < 127) :
    ∃ b : UInt8, String.utf8EncodeChar c = [b] ∧ b.toNat = c.toNat := by
  have hlt : c.val.toNat < 127 := h.2
  refine ⟨UInt8.ofNat c.val.toNat, ?_, ?_⟩
  · unfold String.utf8EncodeChar
    dsimp only
    rw [if_pos hlt.le]
  · rw [UInt8.toNat_ofNat']
    exact Nat.mod_eq_of_lt (by omega)

theorem to_str_visible {cs : List Char} (h : ∀ c ∈ cs, 32 ≤ c.toNat ∧ c.toNat < 127) :
    to_str (as_bytes (String.ofList cs)) = some (String.ofList cs) := by
  rw [as_bytes_eq, String.toList_ofList]
  have hback : (cs.flatMap String.utf8EncodeChar).map (fun b => Char.ofNat b.toNat) = cs ∧
      ∀ b ∈ cs.flatMap String.utf8EncodeChar, 32 ≤ b.toNat ∧ b.toNat < 127 := by
    induction cs with
    | nil => exact ⟨rfl, by simp⟩
    | cons c cs ih =>
      obtain ⟨hc, hcs⟩ := List.forall_mem_cons.mp h
      obtain ⟨hrest, hvisible⟩ := ih hcs
      obtain ⟨b, hb, hsame⟩ := utf8_visible hc
      rw [List.flatMap_cons, hb, List.singleton_append, List.map_cons, hrest, hsame, Char.ofNat_toNat]
      exact ⟨rfl, List.forall_mem_cons.mpr ⟨hsame ▸ hc, hvisible⟩⟩
  rw [to_str, if_pos, hback.1]
  refine List.all_eq_true.mpr fun b hb => ?_
  obtain ⟨hlow, hhigh⟩ := hback.2 b hb
  have hle : 32 ≤ b := UInt8.le_iff_toNat_le.mpr hlow
  have hlt : b < 127 := UInt8.lt_iff_toNat_lt.mpr hhigh
  simp [hle, hlt]

theorem digits_trimmed (n : Nat) : trim (String.ofList (digits n)) = String.ofList (digits n) := by
  rw [trim, String.toList_ofList, trimChars_eq_self _ (digits_getLast n)]
  exact fun c hc => isDigit_not_whitespace (digits_isDigit n c (List.mem_of_head? hc))

/-- The wait that a client is asked for is the one it reads. -/
theorem parse_written (request_id : Option Bytes) {wait : Nat} (hwait : wait < 18446744073709551616) :
    parse_retry_after ([("content-type", as_bytes "application/json")] ++
        (request_id.map fun id => ("x-refract-request-id", id)).toList ++ [("retry-after", retry_after_value wait)]) =
      some (min (max wait 1) MAX_RETRY_AFTER) := by
  have hlookup : ([("content-type", as_bytes "application/json")] ++
      (request_id.map fun id => ("x-refract-request-id", id)).toList ++ [("retry-after", retry_after_value wait)]).lookup "retry-after" =
        some (retry_after_value wait) := by
    cases request_id <;> rfl
  have hvisible : ∀ c ∈ digits (max wait 1), 32 ≤ c.toNat ∧ c.toNat < 127 := by
    intro c hc
    have hdigit := digits_isDigit _ c hc
    rw [isDigit, Bool.and_eq_true, decide_eq_true_iff, decide_eq_true_iff] at hdigit
    omega
  have hparsed : tickets.parse_u64 (digits (max wait 1)) = some (max wait 1) := by
    have hlt : max wait 1 < 18446744073709551616 := by omega
    unfold tickets.parse_u64
    split
    next cs heq => exact absurd heq (tickets.digits_ne_cons (by decide))
    next => rw [tickets.parse_digits_digits, Option.filter_some, if_pos (by simpa using hlt)]
  rw [parse_retry_after, hlookup]
  change ((to_str (retry_after_value wait)).bind _ : Option Nat) = _
  rw [retry_after_value, to_str_visible hvisible, Option.bind_some, digits_trimmed, String.toList_ofList, hparsed]
  rfl

end Waiting

/-- What the kind of an error is for the next gateway, which sees the status alone. -/
def received (kind : ErrorKind) : ErrorKind := status_kind kind.status

@[simp] theorem received_received (kind : ErrorKind) : received (received kind) = received kind := by
  cases kind <;> rfl

/-- What the next gateway reads of an error. -/
theorem receive_rejection (hserde : serde.Lawful) {rejection : ProtocolRejection} (hstatus : rejection.status = none)
    (hdetails : Apart rejection.details) (hworded : trim rejection.error.message ≠ "")
    (hwait : ∀ wait ∈ rejection.error.retry_after, wait < 18446744073709551616) :
    ∃ error, receive serde texts (rejection.into_response serde) = .error error ∧ error.upstream_status ≠ some 200 ∧
      error.kind = received rejection.error.kind ∧ error.message = rejection.error.message ∧
      error.retry_after = rejection.error.retry_after.map fun wait => min (max wait 1) MAX_RETRY_AFTER := by
  have hcode : (rejection.into_response serde).status = rejection.error.kind.status := by
    rw [ProtocolRejection.into_response, hstatus]
    rfl
  have hfailed : ¬(200 ≤ (rejection.into_response serde).status ∧ (rejection.into_response serde).status < 300) := by
    have hle := rejection.error.kind.le_status
    omega
  have hmessage : extract_error_message serde (rejection.into_response serde).body = some rejection.error.message :=
    extract_written hserde hdetails hworded rejection.protocol
  have hparsed : parse_retry_after (rejection.into_response serde).headers =
      rejection.error.retry_after.map fun wait => min (max wait 1) MAX_RETRY_AFTER := by
    rw [ProtocolRejection.into_response]
    dsimp only
    cases hretry : rejection.error.retry_after with
    | none => cases rejection.request_id <;> rfl
    | some wait => exact parse_written rejection.request_id (hwait wait hretry)
  rw [receive, if_neg hfailed, hcode, hparsed, upstream_status_error, hmessage]
  have hne : (some rejection.error.kind.status : Option Nat) ≠ some 200 := fun heq => by
    have hle := rejection.error.kind.le_status
    have hsame := Option.some.inj heq
    omega
  refine ⟨_, rfl, ?_⟩
  cases rejection.error.retry_after with
  | none => exact ⟨hne, rfl, rfl, rfl⟩
  | some wait => exact ⟨hne, rfl, rfl, rfl⟩

/-- What fails at an upstream is judged as it is. -/
theorem judge_error {Request : Type} {executor : RouteExecutor Request} {route : Route} {first_index : route.Place → Nat}
    {payload : InboundPayload Request} {idx : route.Place} {moment : Moment} {error : GatewayError}
    (hstatus : error.upstream_status ≠ some 200) :
    (executor.execute route first_index payload).judge idx moment 0 (.error error) = .failed error ∧
      (executor.execute_stream route first_index payload).judge idx moment 0 (.error error) = .failed error := by
  have hstrict : ∀ enabled protocol, strict_200_parse_error executor.texts enabled protocol error = error :=
    fun enabled protocol => if_neg fun h => hstatus h.2
  have hread : ∀ protocol policy, judge_transcoded executor.serde executor.texts moment protocol policy 0 (.error error) = .failed error :=
    fun protocol policy => congrArg Verdict.failed (hstrict _ _)
  cases payload with
  | normalized ir => exact ⟨hread _ _, rfl⟩
  | raw protocol body model stream headers =>
    refine ⟨?_, rfl⟩
    dsimp only [RouteExecutor.execute, RouteExecutor.execute_raw]
    split
    · exact hread _ _
    · rfl

/-- A gateway with one key for its only candidate, which got the error of another gateway for
    an answer, and what it answers its own client with. -/
inductive Retold (serde : Serde) (texts : Texts) : GatewayError → GatewayError → Prop where
  | answered {Request : Type} (executor : RouteExecutor Request) {route : Route} {first_index : route.Place → Nat}
    {payload : InboundPayload Request} {idx : route.Place} {moment : Moment} {rejection : ProtocolRejection} {after : GatewayError}
    (hcalled : ((executor.execute route first_index payload).run [idx] []).effects ≠ [])
    (hsingle : ((route.candidate idx).channel.key_pool (route.candidate idx).endpoint).len < 2)
    (hstatus : rejection.status = none) (hdetails : Apart rejection.details)
    (hfinished : ((executor.execute route first_index payload).run [idx]
      [(moment, receive serde texts (rejection.into_response serde))]).state = .finished (.error after)) :
    Retold serde texts rejection.error after
  | streamed {Request : Type} (executor : RouteExecutor Request) {route : Route} {first_index : route.Place → Nat}
    {payload : InboundPayload Request} {idx : route.Place} {moment : Moment} {rejection : ProtocolRejection} {error after : GatewayError}
    (hcalled : ((executor.execute_stream route first_index payload).run [idx] []).effects ≠ [])
    (hsingle : ((route.candidate idx).channel.key_pool (route.candidate idx).endpoint).len < 2)
    (hstatus : rejection.status = none) (hdetails : Apart rejection.details)
    (hreceived : receive serde texts (rejection.into_response serde) = .error error)
    (hfinished : ((executor.execute_stream route first_index payload).run [idx] [(moment, .error error)]).state =
      .finished (.error after)) :
    Retold serde texts rejection.error after

/-- An error that tells the next gateway of another. -/
structure Repeats (before after : GatewayError) : Prop where
  message : after.message = before.message
  kind : after.kind = received before.kind
  retry_after : after.retry_after = before.retry_after.map fun wait => min (max wait 1) MAX_RETRY_AFTER

/-- One gateway tells of the error that it got. -/
theorem Retold.tells (hserde : serde.Lawful) {before after : GatewayError} (h : Retold serde texts before after)
    (hworded : trim before.message ≠ "") (hwait : ∀ wait ∈ before.retry_after, wait < 18446744073709551616) : Repeats before after := by
  cases h with
  | answered executor hcalled hsingle hstatus hdetails hfinished =>
    obtain ⟨error, herror, hcode, hkind, hmessage, hretry⟩ := @receive_rejection serde texts hserde _ hstatus hdetails hworded hwait
    rw [herror] at hfinished
    obtain ⟨same, hsame_state, hsame⟩ := Loop.run_alone hcalled hsingle (judge_error hcode).1
    obtain rfl := Except.error.inj (State.finished.inj (hfinished.symm.trans hsame_state))
    exact ⟨hsame.message.trans hmessage, hsame.kind.trans hkind, hsame.retry_after.trans hretry⟩
  | streamed executor hcalled hsingle hstatus hdetails hreceived hfinished =>
    obtain ⟨error, herror, hcode, hkind, hmessage, hretry⟩ := @receive_rejection serde texts hserde _ hstatus hdetails hworded hwait
    obtain rfl := Except.error.inj (herror.symm.trans hreceived)
    obtain ⟨same, hsame_state, hsame⟩ := Loop.run_alone hcalled hsingle (judge_error hcode).2
    obtain rfl := Except.error.inj (State.finished.inj (hfinished.symm.trans hsame_state))
    exact ⟨hsame.message.trans hmessage, hsame.kind.trans hkind, hsame.retry_after.trans hretry⟩

/-- A gateway whose only candidate is an upstream of Chat hands on every error. -/
theorem relayed_by_streamed {before : GatewayError} (hserde : serde.Lawful) (hworded : trim before.message ≠ "")
    (hwait : ∀ wait ∈ before.retry_after, wait < 18446744073709551616) : ∃ after, Retold serde texts before after := by
  have hcalled : ((RouteExecutor.plain.execute streamed (fun _ => 0) (.raw .chat [] "m" false [])).run [(0 : Fin 1)] []).effects ≠ [] :=
    List.cons_ne_nil _ _
  have hbeside : Apart none := ⟨by simp, by simp⟩
  obtain ⟨error, herror, hcode, -⟩ := @receive_rejection serde texts hserde ⟨before, none, .messages, none, none⟩ rfl hbeside hworded hwait
  obtain ⟨after, hafter, -⟩ := @Loop.run_alone streamed _ _ _ (0 : Fin 1) ⟨"", 0, 0⟩ _ error hcalled (by decide) (judge_error hcode).1
  refine ⟨after, @Retold.answered serde texts _ RouteExecutor.plain streamed (fun _ => 0) _ (0 : Fin 1) ⟨"", 0, 0⟩
    ⟨before, none, .messages, none, none⟩ after hcalled (by decide) rfl hbeside ?_⟩
  rw [herror]
  exact hafter

/-- No channel, for two hours. -/
def unserved : GatewayError := { GatewayError.new .noAvailableChannel "no available channel" with retry_after := some 7200 }

theorem unserved_worded : trim unserved.message ≠ "" := by decide

theorem unserved_relayed : ∃ last, Relation.TransGen (Retold Serde.compact RouteExecutor.plain.texts) unserved last := by
  obtain ⟨next, hnext⟩ := @relayed_by_streamed Serde.compact RouteExecutor.plain.texts unserved Serde.compact_lawful unserved_worded
    (by simp [unserved])
  have htells := hnext.tells Serde.compact_lawful unserved_worded (by simp [unserved])
  obtain ⟨last, hlast⟩ := @relayed_by_streamed Serde.compact RouteExecutor.plain.texts next Serde.compact_lawful
    (by rw [htells.message]; exact unserved_worded) (by rw [htells.retry_after]; simp [unserved, MAX_RETRY_AFTER])
  exact ⟨last, .tail (.single hnext) hlast⟩

end refract.gateway
