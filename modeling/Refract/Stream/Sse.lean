import Refract.Core.Error
import Refract.Json.Text
import Refract.Machine.Transducer
import Refract.Stream.Event
import Refract.Stream.Utf8

open refract.core refract.json refract.machine

namespace refract.stream

/-- The reader of an SSE body. Bytes after the last line break wait for more. -/
structure SseParser where
  buffer : Bytes := []
  event : Option String := none
  data : List String := []
  deriving DecidableEq

def NEWLINE : UInt8 := 10

def CARRIAGE_RETURN : UInt8 := 13

/-- The complete lines of some bytes, and what follows the last of them. -/
def split_lines : Bytes → List Bytes × Bytes
  | [] => ([], [])
  | b :: bytes =>
    let (lines, rest) := split_lines bytes
    if b = NEWLINE then ([] :: lines, rest)
    else
      match lines with
      | [] => ([], b :: rest)
      | line :: lines => ((b :: line) :: lines, rest)

def join_lines (lines : List Bytes) (rest : Bytes) : Bytes := (lines.flatMap (· ++ [NEWLINE])) ++ rest

/-- A line without the carriage return at its end. -/
def strip_return (line : Bytes) : Bytes := if line.getLast? = some CARRIAGE_RETURN then line.dropLast else line

def invalid_text (error : Utf8Error) : GatewayError :=
  .new .upstreamError ("upstream SSE contains invalid UTF-8: " ++ error.to_string)

def read_text (bytes : Bytes) : Except GatewayError String := (from_utf8 bytes).mapError invalid_text

def trim_start (s : String) : String := String.ofList (s.toList.dropWhile is_whitespace)

/-- A field and its value. One blank after the colon is no part of the value. -/
def split_field (line : String) : String × String :=
  let (field, value) := line.toList.span (· ≠ ':')
  let value := value.tail
  (String.ofList field, String.ofList (if value.head? = some ' ' then value.tail else value))

namespace SseParser

/-- The frame that is read by now, if there is any. -/
def flush (self : SseParser) : SseParser × Option SseFrame :=
  if self.data = [] ∧ self.event = none then (self, none)
  else ({ self with event := none, data := [] }, some ⟨self.event, "\n".intercalate self.data⟩)

/-- Takes in a line that is not blank. Comments and other fields say nothing. -/
def accept (self : SseParser) (line : String) : SseParser :=
  if line.toList.head? = some ':' then self
  else
    match split_field line with
    | ("event", value) => { self with event := some value }
    | ("data", value) => { self with data := self.data ++ [value] }
    | _ => self

/-- A blank line ends a frame. -/
def take_line (self : SseParser) (line : Bytes) : Except GatewayError (SseParser × Option SseFrame) :=
  (read_text (strip_return line)).map fun line => if line = "" then self.flush else (self.accept line, none)

/-- Takes in lines. A line that is no text ends it, with the later ones unread. -/
def take_lines (self : SseParser) (rest : Bytes) : List Bytes → SseParser × Except GatewayError (List SseFrame)
  | [] => ({ self with buffer := rest }, .ok [])
  | line :: lines =>
    match self.take_line line with
    | .error error => ({ self with buffer := join_lines lines rest }, .error error)
    | .ok (self, frame) => (self.take_lines rest lines).map id (·.map (frame.toList ++ ·))

def feed_bytes (self : SseParser) (chunk : Bytes) : SseParser × Except GatewayError (List SseFrame) :=
  let (lines, rest) := split_lines (self.buffer ++ chunk)
  self.take_lines rest lines

/-- The end of the body. Only data is read from a line that was cut off. -/
def finish_bytes (self : SseParser) : SseParser × Except GatewayError (Option SseFrame) :=
  let ended : SseParser := { self with buffer := [] }
  if self.buffer = [] then ended.flush.map id .ok
  else
    match read_text self.buffer with
    | .error error => (ended, .error error)
    | .ok rest =>
      let rest := trim rest
      let ended :=
        if "data:".toList.isPrefixOf rest.toList then
          { ended with data := ended.data ++ [trim_start (String.ofList (rest.toList.drop 5))] }
        else ended
      ended.flush.map id .ok

end SseParser

/-- The reader of an SSE body as a machine on its chunks. -/
def parse_sse : Fallible GatewayError SseParser Bytes SseFrame where
  init := {}
  step := SseParser.feed_bytes
  finish self := self.finish_bytes.map id (·.map Option.toList)

theorem read_text_kind {bytes : Bytes} {error : GatewayError} (h : read_text bytes = .error error) :
    error.kind = .upstreamError := by
  unfold read_text at h
  cases hread : from_utf8 bytes with
  | ok s => simp [hread, Except.mapError] at h
  | error e =>
    rw [hread] at h
    rw [← Except.error.inj h]
    rfl

/-- Lines that are no text are the upstream's fault. -/
theorem take_lines_kind (rest : Bytes) (lines : List Bytes) (self : SseParser) {error : GatewayError}
    (h : (self.take_lines rest lines).2 = .error error) : error.kind = .upstreamError := by
  induction lines generalizing self with
  | nil => cases h
  | cons line lines ih =>
    unfold SseParser.take_lines at h
    cases hline : self.take_line line with
    | error e =>
      rw [hline] at h
      obtain rfl := Except.error.inj h
      unfold SseParser.take_line at hline
      cases hread : read_text (strip_return line) with
      | error e =>
        rw [hread] at hline
        exact Except.error.inj hline ▸ read_text_kind hread
      | ok text =>
        rw [hread] at hline
        cases hline
    | ok next =>
      obtain ⟨next, frame⟩ := next
      rw [hline] at h
      cases hrest : (next.take_lines rest lines).2 with
      | error e =>
        simp only [Prod.map_snd, hrest] at h
        exact ih next (hrest.trans h)
      | ok frames => simp [hrest, Except.map] at h

theorem sse_parser_step_kind (self : SseParser) (chunk : Bytes) {error : GatewayError}
    (h : (parse_sse.step self chunk).2 = .error error) : error.kind = .upstreamError :=
  take_lines_kind _ _ self h

theorem sse_parser_finish_kind (self : SseParser) {error : GatewayError}
    (h : (parse_sse.finish self).2 = .error error) : error.kind = .upstreamError := by
  unfold parse_sse SseParser.finish_bytes at h
  dsimp only at h
  split at h
  · cases h
  · split at h
    · rename_i hread
      obtain rfl := Except.error.inj h
      exact read_text_kind hread
    · simp [Except.map] at h

section Buffer

variable {self after : SseParser} {rest : Bytes} {frames : List SseFrame}

theorem newline_not_mem_split_lines (bytes : Bytes) : NEWLINE ∉ (split_lines bytes).2 := by
  induction bytes with
  | nil => exact List.not_mem_nil
  | cons b bytes ih =>
    simp only [split_lines]
    split
    · exact ih
    next hb =>
      split
      next hlines =>
        rw [List.mem_cons, not_or]
        exact ⟨fun hnewline => hb hnewline.symm, ih⟩
      · exact ih

theorem split_lines_of_not_mem {bytes : Bytes} (hbytes : NEWLINE ∉ bytes) : split_lines bytes = ([], bytes) := by
  induction bytes with
  | nil => rfl
  | cons b bytes ih =>
    rw [List.mem_cons, not_or] at hbytes
    simp only [split_lines, ih hbytes.2, if_neg (Ne.symm hbytes.1)]

theorem SseParser.take_lines_buffer {lines : List Bytes} (htake : self.take_lines rest lines = (after, .ok frames)) :
    after.buffer = rest := by
  induction lines generalizing self frames with
  | nil =>
    obtain ⟨rfl, -⟩ := Prod.mk.inj htake
    rfl
  | cons line lines ih =>
    unfold take_lines at htake
    cases hline : self.take_line line with
    | error error =>
      rw [hline] at htake
      cases (Prod.mk.inj htake).2
    | ok taken =>
      rw [hline] at htake
      obtain ⟨hafter, hframes⟩ := Prod.mk.inj htake
      cases hrest : (taken.1.take_lines rest lines).2 with
      | error error =>
        rw [hrest] at hframes
        cases hframes
      | ok others =>
        have hothers : taken.1.take_lines rest lines = (after, .ok others) := Prod.ext hafter hrest
        exact ih hothers

/-- The bytes that wait for more hold no line break. -/
theorem SseParser.feed_bytes_buffer {chunk : Bytes} (hfeed : self.feed_bytes chunk = (after, .ok frames)) :
    NEWLINE ∉ after.buffer := by
  rw [take_lines_buffer hfeed]
  exact newline_not_mem_split_lines _

/-- An empty chunk completes no line. -/
theorem SseParser.feed_bytes_nil (hbuffer : NEWLINE ∉ self.buffer) : self.feed_bytes [] = (self, .ok []) := by
  simp only [feed_bytes, List.append_nil, split_lines_of_not_mem hbuffer, take_lines]

end Buffer

end refract.stream
