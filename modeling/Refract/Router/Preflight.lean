import Refract.Router.Affinity
import Refract.Router.Response
import Refract.Stream.Sse

open refract.core refract.json refract.machine refract.stream refract.upstream

namespace refract.router

/-- What the upstream may say before its first output, in bytes. -/
def STREAM_PREFLIGHT_LIMIT : Nat := 1024 * 1024

/-- The beginning of the chunks, as far as a preview shows it. -/
def byte_stream_preview (chunks : List Bytes) : Bytes := chunks.flatten.take RESPONSE_PREVIEW_LIMIT

/-- The kind of an error that is reported in a stream, by what the upstream calls
    it. -/
def stream_error_kind (kind : String) : ErrorKind :=
  let mentions := fun (word : String) => decide (word.toList <:+: kind.toLower.toList)
  if mentions "rate" || mentions "quota" then .rateLimited
  else if mentions "auth" then .unauthenticated
  else if mentions "permission" || mentions "forbidden" then .permissionDenied
  else if mentions "invalid" then .invalidRequest
  else .upstreamError

/-- The first error among some events. If there is none, whether they say anything. -/
def validate_stream_events (events : List StreamEvent) : Except GatewayError Bool :=
  match events.find? (·.is_error) with
  | some (.error message kind) => .error (.new (stream_error_kind kind) message)
  | _ => .ok (events.any (· ≠ .ping))

def stream_events_have_output (events : List StreamEvent) : Bool :=
  events.any fun event =>
    match event with
    | .textDelta _ text | .thinkingDelta _ text | .refusalDelta _ text => trim text ≠ ""
    | .toolCallStart _ _ _ _ => true
    | .toolCallArgsDelta _ fragment => trim fragment ≠ ""
    | _ => false

/-- How a wait for the next chunk ends. -/
inductive WaitEnd where
  | item
  /-- The window for empty answers is over. -/
  | deadline
  | idle
  deriving DecidableEq, Repr

/-- The clock around a wait. -/
structure Wait where
  checked : Instant
  outcome : WaitEnd
  ended : Instant

/-- What is known of a stream before it is given to the client. -/
structure RawPreflight (σ : Type) where
  parser : SseParser := {}
  decoder : σ
  /-- All that was read, to be passed on later. -/
  read : List Bytes := []
  bytes : Nat := 0
  first_byte_at : Option Instant := none
  saw_valid_event : Bool := false

/-- The chunks that were read, the stream after them, and how long an answer without
    output took. -/
structure Preflighted where
  read : List Bytes
  rest : List (Except GatewayError Bytes)
  empty_duration : Option Duration := none

section Preflight

variable {σ : Type} (decoder_of : Fallible GatewayError σ SseFrame StreamEvent) (texts : Texts) (protocol : Protocol)
  (empty_policy : EmptyResponseRetryPolicy) (reject_nonstandard_200 : Bool) (content_type : String)

/-- The error for what cannot be read. -/
def RawPreflight.unreadable (self : RawPreflight σ) (error : GatewayError) : GatewayError :=
  if reject_nonstandard_200 then invalid_200_response texts protocol content_type (byte_stream_preview self.read) else error

/-- Decodes frames, until one of them lets the stream through. -/
def RawPreflight.judge (self : RawPreflight σ) : List SseFrame → RawPreflight σ × Except GatewayError Bool
  | [] => (self, .ok false)
  | frame :: frames =>
    match decoder_of.step self.decoder frame with
    | (decoder, .error error) =>
      ({ self with decoder }, .error (self.unreadable texts protocol reject_nonstandard_200 content_type error))
    | (decoder, .ok events) =>
      match validate_stream_events events with
      | .error error => ({ self with decoder }, .error error)
      | .ok meaningful =>
        let self := { self with decoder, saw_valid_event := self.saw_valid_event || meaningful }
        if stream_events_have_output events || (meaningful && !empty_policy.enabled) then (self, .ok true)
        else self.judge frames

/-- The stream has ended before it was let through. -/
def RawPreflight.ended (self : RawPreflight σ) (now : Instant) : Except GatewayError Preflighted :=
  let conclude := fun saw_valid_event =>
    if saw_valid_event then
      .ok { read := self.read, rest := [], empty_duration := some (self.first_byte_at.elim 0 (now - ·)) }
    else
      .error (self.unreadable texts protocol reject_nonstandard_200 content_type
        (.new .upstreamError "upstream stream ended before its first valid event"))
  match self.parser.finish_bytes with
  | (_, .error error) => .error (self.unreadable texts protocol reject_nonstandard_200 content_type error)
  | (_, .ok none) => conclude self.saw_valid_event
  | (_, .ok (some frame)) =>
    match (decoder_of.step self.decoder frame).2 with
    | .error error => .error (self.unreadable texts protocol reject_nonstandard_200 content_type error)
    | .ok events =>
      match validate_stream_events events with
      | .error error => .error error
      | .ok meaningful =>
        if stream_events_have_output events then .ok { read := self.read, rest := [] }
        else conclude (self.saw_valid_event || meaningful)

/-- Reads a chunk. Tells whether the stream is let through. -/
def RawPreflight.take_chunk (self : RawPreflight σ) (chunk : Bytes) (now : Instant) : RawPreflight σ × Except GatewayError Bool :=
  let self := { self with
    read := self.read ++ [chunk]
    bytes := self.bytes + chunk.length
    first_byte_at := if chunk = [] then self.first_byte_at else self.first_byte_at <|> some now }
  if STREAM_PREFLIGHT_LIMIT < self.bytes then
    (self, .error (.new .upstreamError "upstream produced over 1 MiB before its first model output"))
  else
    match self.parser.feed_bytes chunk with
    | (parser, .error error) =>
      ({ self with parser }, .error (self.unreadable texts protocol reject_nonstandard_200 content_type error))
    | (parser, .ok frames) =>
      RawPreflight.judge decoder_of texts protocol empty_policy reject_nonstandard_200 content_type { self with parser } frames

/-- What a wait leads to. Without a time of the first byte there is no deadline. -/
inductive Awaited where
  | through
  | panic
  | idle
  | item
  deriving DecidableEq, Repr

def RawPreflight.await_turn (self : RawPreflight σ) (wait : Wait) : Awaited :=
  let windowed := self.saw_valid_event && empty_policy.enabled
  if windowed && self.first_byte_at.any (fun first => Duration.from_secs empty_policy.window_secs ≤ wait.checked - first) then .through
  else if windowed && self.first_byte_at.isNone then .panic
  else if wait.outcome = .idle then .idle
  else if windowed && wait.outcome = .deadline then .through
  else .item

/-- Reads a stream until it says something, or until the window for empty answers
    is over. A panic gives nothing. -/
def RawPreflight.run (self : RawPreflight σ) (waits : Nat → Wait) (stream : List (Except GatewayError Bytes)) :
    Option (Except GatewayError Preflighted) :=
  match self.await_turn empty_policy (waits 0) with
  | .through => some (.ok { read := self.read, rest := stream })
  | .panic => none
  | .idle => some (.error (.new .timeout "upstream did not produce a valid first stream event before the idle deadline"))
  | .item =>
    match stream with
    | [] => some (self.ended decoder_of texts protocol reject_nonstandard_200 content_type (waits 0).ended)
    | .error error :: _ => some (.error error)
    | .ok chunk :: stream =>
      match self.take_chunk decoder_of texts protocol empty_policy reject_nonstandard_200 content_type chunk (waits 0).ended with
      | (_, .error error) => some (.error error)
      | (self, .ok true) => some (.ok { read := self.read, rest := stream })
      | (self, .ok false) => self.run (fun n => waits (n + 1)) stream

/-- Reads a native stream far enough to judge it. -/
def preflight_raw_stream (waits : Nat → Wait) (stream : List (Except GatewayError Bytes)) :
    Option (Except GatewayError Preflighted) :=
  RawPreflight.run decoder_of texts protocol empty_policy reject_nonstandard_200 content_type { decoder := decoder_of.init } waits stream

/-- What was read comes first, then the rest. -/
def prepend_stream (self : Preflighted) : List (Except GatewayError Bytes) := self.read.map .ok ++ self.rest

variable {decoder_of texts protocol empty_policy reject_nonstandard_200 content_type} {self after : RawPreflight σ}
  {waits : Nat → Wait} {stream : List (Except GatewayError Bytes)} {preflighted : Preflighted}

/-- The frames of a chunk change nothing of what was read, and when. -/
theorem RawPreflight.judge_frame {frames : List SseFrame} {result : Except GatewayError Bool}
    (hjudge : judge decoder_of texts protocol empty_policy reject_nonstandard_200 content_type self frames = (after, result)) :
    after.parser = self.parser ∧ after.read = self.read ∧ after.first_byte_at = self.first_byte_at := by
  induction frames generalizing self with
  | nil =>
    obtain ⟨rfl, -⟩ := Prod.mk.inj hjudge
    exact ⟨rfl, rfl, rfl⟩
  | cons frame frames ih =>
    unfold judge at hjudge
    split at hjudge
    · obtain ⟨rfl, -⟩ := Prod.mk.inj hjudge
      exact ⟨rfl, rfl, rfl⟩
    · split at hjudge
      · obtain ⟨rfl, -⟩ := Prod.mk.inj hjudge
        exact ⟨rfl, rfl, rfl⟩
      · dsimp only at hjudge
        split at hjudge
        · obtain ⟨rfl, -⟩ := Prod.mk.inj hjudge
          exact ⟨rfl, rfl, rfl⟩
        · have hrest := ih hjudge
          exact hrest

theorem RawPreflight.ended_complete {now : Instant}
    (hended : self.ended decoder_of texts protocol reject_nonstandard_200 content_type now = .ok preflighted) :
    prepend_stream preflighted = self.read.map .ok := by
  have hconclude : ∀ duration : Option Duration, prepend_stream ⟨self.read, [], duration⟩ = self.read.map .ok :=
    fun _ => List.append_nil _
  unfold ended at hended
  dsimp only at hended
  split at hended
  · cases hended
  · split at hended
    · obtain rfl := Except.ok.inj hended
      exact hconclude _
    · cases hended
  · split at hended
    · cases hended
    · split at hended
      · cases hended
      · split at hended
        · obtain rfl := Except.ok.inj hended
          exact hconclude _
        · split at hended
          · obtain rfl := Except.ok.inj hended
            exact hconclude _
          · cases hended

theorem RawPreflight.take_chunk_read {chunk : Bytes} {now : Instant} {through : Bool}
    (htake : self.take_chunk decoder_of texts protocol empty_policy reject_nonstandard_200 content_type chunk now = (after, .ok through)) :
    after.read = self.read ++ [chunk] := by
  unfold take_chunk at htake
  dsimp only at htake
  split at htake
  · cases (Prod.mk.inj htake).2
  · split at htake
    · cases (Prod.mk.inj htake).2
    · exact (judge_frame htake).2.1

/-- Reading a stream loses nothing, repeats nothing and keeps the order. -/
theorem RawPreflight.run_complete
    (hrun : self.run decoder_of texts protocol empty_policy reject_nonstandard_200 content_type waits stream = some (.ok preflighted)) :
    prepend_stream preflighted = self.read.map .ok ++ stream := by
  induction stream generalizing self waits with
  | nil =>
    unfold run at hrun
    split at hrun
    · obtain rfl := Except.ok.inj (Option.some.inj hrun)
      rfl
    · cases hrun
    · cases Option.some.inj hrun
    · rw [List.append_nil]
      exact ended_complete (Option.some.inj hrun)
  | cons item stream ih =>
    unfold run at hrun
    split at hrun
    · obtain rfl := Except.ok.inj (Option.some.inj hrun)
      rfl
    · cases hrun
    · cases Option.some.inj hrun
    · cases item with
      | error error => cases Option.some.inj hrun
      | ok chunk =>
        dsimp only at hrun
        have hread : ((self.read ++ [chunk]).map Except.ok : List (Except GatewayError Bytes)) ++ stream =
            self.read.map .ok ++ .ok chunk :: stream := by simp
        split at hrun
        · cases Option.some.inj hrun
        next htake =>
          obtain rfl := Except.ok.inj (Option.some.inj hrun)
          rw [← hread, prepend_stream, take_chunk_read htake]
        next htake => rw [ih hrun, take_chunk_read htake, hread]

/-- Bytes came before the first valid event, and none of them completes a line that is
    not read yet. -/
structure RawPreflight.Timed (state : RawPreflight σ) : Prop where
  line : NEWLINE ∉ state.parser.buffer
  first_byte : state.saw_valid_event = true → state.first_byte_at.isSome = true

theorem RawPreflight.Timed.await_turn (htimed : self.Timed) (wait : Wait) : self.await_turn empty_policy wait ≠ .panic := by
  unfold RawPreflight.await_turn
  dsimp only
  split
  · exact nofun
  · split
    next hpanic =>
      rw [Bool.and_eq_true, Bool.and_eq_true, Option.isNone_iff_eq_none] at hpanic
      have hfirst := htimed.first_byte hpanic.1.1
      rw [hpanic.2] at hfirst
      cases hfirst
    · split
      · exact nofun
      · split <;> exact nofun

theorem RawPreflight.Timed.take_chunk (htimed : self.Timed) {chunk : Bytes} {now : Instant} {through : Bool}
    (htake : self.take_chunk decoder_of texts protocol empty_policy reject_nonstandard_200 content_type chunk now = (after, .ok through)) :
    after.Timed := by
  unfold RawPreflight.take_chunk at htake
  dsimp only at htake
  split at htake
  · cases (Prod.mk.inj htake).2
  · by_cases hempty : chunk = []
    · subst hempty
      rw [SseParser.feed_bytes_nil htimed.line] at htake
      obtain ⟨rfl, -⟩ := Prod.mk.inj htake
      exact ⟨htimed.line, htimed.first_byte⟩
    · split at htake
      · cases (Prod.mk.inj htake).2
      next hfeed =>
        obtain ⟨hparser, -, hfirst⟩ := judge_frame htake
        refine ⟨hparser ▸ SseParser.feed_bytes_buffer hfeed, fun _ => ?_⟩
        rw [hfirst, if_neg hempty]
        cases self.first_byte_at <;> rfl

/-- There is always a first byte to count the window from. -/
theorem RawPreflight.Timed.run (htimed : self.Timed) :
    self.run decoder_of texts protocol empty_policy reject_nonstandard_200 content_type waits stream ≠ none := by
  induction stream generalizing self waits with
  | nil =>
    unfold RawPreflight.run
    split
    · exact nofun
    next hpanic => exact absurd hpanic (htimed.await_turn (waits 0))
    · exact nofun
    · exact nofun
  | cons item stream ih =>
    unfold RawPreflight.run
    split
    · exact nofun
    next hpanic => exact absurd hpanic (htimed.await_turn (waits 0))
    · exact nofun
    · cases item with
      | error error => exact nofun
      | ok chunk =>
        dsimp only
        split
        · exact nofun
        · exact nofun
        next htake => exact ih (htimed.take_chunk htake)

/-- A stream that is let through is passed on as it came. -/
theorem preflight_complete
    (hready : preflight_raw_stream decoder_of texts protocol empty_policy reject_nonstandard_200 content_type waits stream =
      some (.ok preflighted)) : prepend_stream preflighted = stream := RawPreflight.run_complete hready

theorem preflight_ne_none :
    preflight_raw_stream decoder_of texts protocol empty_policy reject_nonstandard_200 content_type waits stream ≠ none :=
  RawPreflight.Timed.run ⟨List.not_mem_nil, nofun⟩

end Preflight

end refract.router
