import Mathlib.Data.List.TakeDrop
import Refract.Stream.Sse

open refract.core refract.json refract.machine

namespace refract.stream

/-- The lines of a frame's data. -/
def SseFrame.data_lines (self : SseFrame) : List String := (self.data.toList.splitOn '\n').map String.ofList

/-- A frame in wire form, its blank line included. The format wants the field's
    name before every line of the data. -/
def SseFrame.render (self : SseFrame) : String :=
  (self.event.map fun ev => "event: " ++ ev ++ "\n").getD "" ++
    String.join (self.data_lines.map fun line => "data: " ++ line ++ "\n") ++ "\n"

/-- How a body ends its lines. -/
inductive LineEnd
  | lf
  | crlf
  deriving DecidableEq, Repr

namespace LineEnd

/-- What stands before the line break. -/
def before : LineEnd → Bytes
  | .lf => []
  | .crlf => [CARRIAGE_RETURN]

def bytes (self : LineEnd) : Bytes := self.before ++ [NEWLINE]

/-- Replaces the line breaks of a body. -/
def replace (self : LineEnd) (body : Bytes) : Bytes :=
  body.flatMap fun b => if b = NEWLINE then self.bytes else [b]

theorem replace_append (self : LineEnd) (a b : Bytes) : self.replace (a ++ b) = self.replace a ++ self.replace b :=
  List.flatMap_append

theorem replace_of_not_mem (self : LineEnd) {body : Bytes} (hbody : NEWLINE ∉ body) : self.replace body = body := by
  induction body with
  | nil => rfl
  | cons b body ih =>
    rw [List.mem_cons, not_or] at hbody
    have htail := ih hbody.2
    unfold replace at htail ⊢
    rw [List.flatMap_cons, if_neg (Ne.symm hbody.1), htail, List.singleton_append]

theorem newline_not_mem_before (self : LineEnd) : NEWLINE ∉ self.before := by
  cases self <;> decide

/-- A line that has been ended is read back without its end. -/
theorem strip_return_before (self : LineEnd) {line : Bytes} (hline : CARRIAGE_RETURN ∉ line) :
    strip_return (line ++ self.before) = line := by
  have hlast : line.getLast? ≠ some CARRIAGE_RETURN := fun hlast => hline (List.mem_of_getLast? hlast)
  cases self with
  | lf => rw [before, List.append_nil, strip_return, if_neg hlast]
  | crlf => rw [before, strip_return, if_pos List.getLast?_concat, List.dropLast_concat]

end LineEnd

section Lines

/-- What more bytes add to the lines found so far. -/
theorem split_lines_append (a b : Bytes) :
    split_lines (a ++ b) =
      ((split_lines a).1 ++ (split_lines ((split_lines a).2 ++ b)).1, (split_lines ((split_lines a).2 ++ b)).2) := by
  induction a with
  | nil => rfl
  | cons byte a ih =>
    simp only [List.cons_append, split_lines, ih]
    by_cases hbreak : byte = NEWLINE
    · simp only [if_pos hbreak, List.cons_append]
    · rw [if_neg hbreak, if_neg hbreak]
      cases hlines : (split_lines a).1 with
      | nil => simp only [List.nil_append, List.cons_append, split_lines, if_neg hbreak]
      | cons line lines => rfl

theorem split_lines_line {line : Bytes} (hline : NEWLINE ∉ line) : split_lines (line ++ [NEWLINE]) = ([line], []) := by
  rw [split_lines_append, split_lines_of_not_mem hline]
  induction line with
  | nil => rfl
  | cons byte line ih =>
    rw [List.mem_cons, not_or] at hline
    have htail := ih hline.2
    rw [List.nil_append] at htail ⊢
    obtain ⟨hlines, hrest⟩ := Prod.mk.inj htail
    simp only [List.cons_append, split_lines, if_neg (Ne.symm hline.1), hlines, hrest]

end Lines

namespace SseParser

variable {self after : SseParser} {rest : Bytes} {frames : List SseFrame}

/-- The waiting bytes are not looked at while lines are taken in. -/
theorem take_line_waiting (self : SseParser) (waiting line : Bytes) :
    { self with buffer := waiting }.take_line line =
      (self.take_line line).map fun taken => ({ taken.1 with buffer := waiting }, taken.2) := by
  unfold take_line
  cases read_text (strip_return line) with
  | error error => rfl
  | ok text =>
    simp only [Except.map]
    congr 1
    by_cases hblank : text = ""
    · simp only [if_pos hblank, flush]
      split <;> rfl
    · simp only [if_neg hblank, accept]
      split
      · rfl
      · split <;> rfl

theorem take_lines_waiting (self : SseParser) (waiting rest : Bytes) (lines : List Bytes) :
    { self with buffer := waiting }.take_lines rest lines = self.take_lines rest lines := by
  induction lines generalizing self with
  | nil => rfl
  | cons line lines ih =>
    unfold take_lines
    rw [take_line_waiting]
    cases self.take_line line with
    | error error => rfl
    | ok taken => simp only [Except.map, ih]

theorem take_lines_cons (line : Bytes) (lines : List Bytes) :
    self.take_lines rest (line :: lines) = (after, .ok frames) ↔
      ∃ next frame tail, self.take_line line = .ok (next, frame) ∧ next.take_lines rest lines = (after, .ok tail) ∧
        frames = frame.toList ++ tail := by
  rw [take_lines]
  cases hline : self.take_line line with
  | error error =>
    constructor
    · rintro ⟨⟩
    · rintro ⟨next, frame, tail, ⟨⟩, -⟩
  | ok taken =>
    obtain ⟨next, frame⟩ := taken
    constructor
    · intro htake
      obtain ⟨hafter, hframes⟩ := Prod.mk.inj htake
      cases htail : (next.take_lines rest lines).2 with
      | error error =>
        rw [htail] at hframes
        cases hframes
      | ok tail =>
        rw [htail] at hframes
        exact ⟨next, frame, tail, rfl, Prod.ext hafter htail, (Except.ok.inj hframes).symm⟩
    · rintro ⟨_, _, tail, ⟨⟩, htail, rfl⟩
      dsimp only
      rw [htail]
      rfl

/-- Lines are taken in one after another, until one is no text. -/
theorem take_lines_append (more : Bytes) (lines others : List Bytes) :
    self.take_lines rest (lines ++ others) = (after, .ok frames) ↔
      ∃ mid early late, self.take_lines more lines = (mid, .ok early) ∧
        mid.take_lines rest others = (after, .ok late) ∧ frames = early ++ late := by
  induction lines generalizing self frames with
  | nil =>
    constructor
    · intro htake
      exact ⟨_, [], frames, rfl, by rw [take_lines_waiting]; exact htake, rfl⟩
    · rintro ⟨_, _, late, ⟨⟩, hlate, rfl⟩
      rwa [take_lines_waiting] at hlate
  | cons line lines ih =>
    rw [List.cons_append, take_lines_cons]
    constructor
    · rintro ⟨next, frame, tail, hline, htail, rfl⟩
      obtain ⟨mid, early, late, hearly, hlate, rfl⟩ := ih.mp htail
      refine ⟨mid, frame.toList ++ early, late, ?_, hlate, (List.append_assoc _ _ _).symm⟩
      exact (take_lines_cons line lines).mpr ⟨next, frame, early, hline, hearly, rfl⟩
    · rintro ⟨mid, early, late, hearly, hlate, rfl⟩
      obtain ⟨next, frame, tail, hline, htail, rfl⟩ := (take_lines_cons line lines).mp hearly
      exact ⟨next, frame, tail ++ late, hline, ih.mpr ⟨mid, tail, late, htail, hlate, rfl⟩, List.append_assoc _ _ _⟩

/-- Where a body is cut says nothing: two pieces are read like the whole. -/
theorem feed_bytes_append (a b : Bytes) :
    self.feed_bytes (a ++ b) = (after, .ok frames) ↔
      ∃ mid early late, self.feed_bytes a = (mid, .ok early) ∧ mid.feed_bytes b = (after, .ok late) ∧
        frames = early ++ late := by
  unfold feed_bytes
  dsimp only
  rw [← List.append_assoc, split_lines_append]
  dsimp only
  rw [take_lines_append (split_lines (self.buffer ++ a)).2]
  constructor
  · rintro ⟨mid, early, late, hearly, hlate, hframes⟩
    exact ⟨mid, early, late, hearly, by rw [take_lines_buffer hearly]; exact hlate, hframes⟩
  · rintro ⟨mid, early, late, hearly, hlate, hframes⟩
    rw [take_lines_buffer hearly] at hlate
    exact ⟨mid, early, late, hearly, hlate, hframes⟩

/-- A body is read the same however it is cut into chunks. -/
theorem run_chunks (self : SseParser) {chunks : List Bytes} (hbuffer : NEWLINE ∉ self.buffer)
    (hfeed : self.feed_bytes chunks.flatten = (after, .ok frames)) :
    parse_sse.outputs self chunks = frames ++ (parse_sse.finish after).2.toOption.getD [] ∧
      parse_sse.closing self chunks = (parse_sse.finish after).2 := by
  induction chunks generalizing self frames with
  | nil =>
    rw [List.flatten_nil, feed_bytes_nil hbuffer] at hfeed
    obtain ⟨rfl, hframes⟩ := Prod.mk.inj hfeed
    obtain rfl := Except.ok.inj hframes
    exact ⟨rfl, rfl⟩
  | cons chunk chunks ih =>
    rw [List.flatten_cons, feed_bytes_append] at hfeed
    obtain ⟨mid, early, late, hearly, hlate, rfl⟩ := hfeed
    obtain ⟨-, -, hclosing, houtputs⟩ := Fallible.run_cons_ok chunks (show parse_sse.step self chunk = _ from hearly)
    obtain ⟨ihoutputs, ihclosing⟩ := ih mid (feed_bytes_buffer hearly) hlate
    rw [houtputs, hclosing, ihoutputs, ihclosing]
    exact ⟨(List.append_assoc _ _ _).symm, rfl⟩

/-- What a line of text makes of the parser. -/
def read_line (self : SseParser) (line : String) : SseParser × Option SseFrame :=
  if line = "" then self.flush else (self.accept line, none)

/-- A line of text that is fed with its end is read as that line. -/
theorem feed_bytes_line (self : SseParser) (e : LineEnd) (line : String) (hbuffer : self.buffer = [])
    (hbreak : '\n' ∉ line.toList) (hreturn : '\r' ∉ line.toList) :
    self.feed_bytes (e.replace (as_bytes (line ++ "\n"))) =
      ({ (self.read_line line).1 with buffer := [] }, .ok (self.read_line line).2.toList) := by
  have hplain {c : Char} {b : UInt8} (hb : b.toNat < 128) (hc : c.toNat = b.toNat) (habsent : c ∉ line.toList) :
      b ∉ as_bytes line := by
    rw [mem_as_bytes hb]
    rintro ⟨d, hd, hbyte⟩
    exact habsent (Char.toNat_inj.mp (hbyte.trans hc.symm) ▸ hd)
  have hnewline : NEWLINE ∉ as_bytes line := hplain (by decide) rfl hbreak
  have hcarriage : CARRIAGE_RETURN ∉ as_bytes line := hplain (by decide) rfl hreturn
  have hkept : NEWLINE ∉ as_bytes line ++ e.before := by
    rw [List.mem_append, not_or]
    exact ⟨hnewline, e.newline_not_mem_before⟩
  have hbytes : e.replace (as_bytes (line ++ "\n")) = as_bytes line ++ e.before ++ [NEWLINE] := by
    have hend : as_bytes "\n" = [NEWLINE] := by decide
    rw [as_bytes_append, LineEnd.replace_append, LineEnd.replace_of_not_mem e hnewline, hend, List.append_assoc]
    simp [LineEnd.replace, LineEnd.bytes]
  have hline : self.take_line (as_bytes line ++ e.before) = .ok (self.read_line line) := by
    rw [take_line, e.strip_return_before hcarriage, read_text, from_utf8_as_bytes]
    rfl
  rw [feed_bytes, hbuffer, List.nil_append, hbytes, split_lines_line hkept]
  exact (take_lines_cons _ _).mpr ⟨_, _, [], hline, rfl, (List.append_nil _).symm⟩

end SseParser

section Fields

variable {self : SseParser}

theorem split_field_of (field : String) (hfield : ':' ∉ field.toList) (value : String) :
    split_field (field ++ ": " ++ value) = (field, value) := by
  have hspan : (field ++ ": " ++ value).toList.span (· ≠ ':') = (field.toList, ':' :: ' ' :: value.toList) := by
    have hname : ∀ c ∈ field.toList, decide (c ≠ ':') = true := fun c hc =>
      decide_eq_true fun heq => hfield (heq ▸ hc)
    rw [List.span_eq_takeWhile_dropWhile, String.toList_append, String.toList_append, List.append_assoc,
      List.takeWhile_append_of_pos hname, List.dropWhile_append_of_pos hname]
    simp
  simp only [split_field, hspan, List.tail_cons, List.head?_cons, if_true, String.ofList_toList]

theorem read_event (ev : String) : self.read_line ("event: " ++ ev) = ({ self with event := some ev }, none) := by
  have hfield : split_field ("event: " ++ ev) = ("event", ev) := split_field_of "event" (by decide) ev
  have hne : "event: " ++ ev ≠ "" := by simp
  rw [SseParser.read_line, if_neg hne, SseParser.accept, if_neg (by simp), hfield]
  rfl

theorem read_data (line : String) :
    self.read_line ("data: " ++ line) = ({ self with data := self.data ++ [line] }, none) := by
  have hfield : split_field ("data: " ++ line) = ("data", line) := split_field_of "data" (by decide) line
  have hne : "data: " ++ line ≠ "" := by simp
  rw [SseParser.read_line, if_neg hne, SseParser.accept, if_neg (by simp), hfield]
  rfl

theorem mem_splitOn {cs line : List Char} (hline : line ∈ cs.splitOn '\n') : '\n' ∉ line ∧ line ⊆ cs := by
  induction cs generalizing line with
  | nil =>
    rw [List.splitOn_nil, List.mem_singleton] at hline
    simp [hline]
  | cons c cs ih =>
    rw [List.splitOn_cons_eq_if_modifyHead] at hline
    split at hline
    · rcases List.mem_cons.mp hline with rfl | hline
      · simp
      · exact ⟨(ih hline).1, List.Subset.trans (ih hline).2 (List.subset_cons_self c cs)⟩
    next hbreak =>
      cases hlines : cs.splitOn '\n' with
      | nil => exact absurd hlines (List.splitOn_ne_nil _ _)
      | cons first rest =>
        rw [hlines] at hline ih
        rcases List.mem_cons.mp hline with rfl | hline
        · obtain ⟨hfirst, hsub⟩ := ih List.mem_cons_self
          refine ⟨?_, List.cons_subset_cons c hsub⟩
          rw [List.mem_cons, not_or]
          exact ⟨fun heq => hbreak (heq ▸ beq_self_eq_true c), hfirst⟩
        · obtain ⟨hplain, hsub⟩ := ih (List.mem_cons_of_mem _ hline)
          exact ⟨hplain, List.Subset.trans hsub (List.subset_cons_self c cs)⟩

end Fields

namespace SseFrame

/-- The frame fits the format: its name is one line, and no line of its data
    ends in a carriage return. -/
def Renderable (self : SseFrame) : Prop :=
  (∀ ev, self.event = some ev → '\n' ∉ ev.toList ∧ '\r' ∉ ev.toList) ∧ '\r' ∉ self.data.toList

theorem data_lines_plain {self : SseFrame} {line : String} (hline : line ∈ self.data_lines) :
    '\n' ∉ line.toList ∧ ('\r' ∉ self.data.toList → '\r' ∉ line.toList) := by
  obtain ⟨cs, hcs, rfl⟩ := List.mem_map.mp hline
  obtain ⟨hbreak, hsub⟩ := mem_splitOn hcs
  rw [String.toList_ofList]
  exact ⟨hbreak, fun hreturn hmem => hreturn (hsub hmem)⟩

theorem data_lines_ne_nil (self : SseFrame) : self.data_lines ≠ [] := by
  simp [data_lines, List.splitOn_ne_nil]

/-- The lines make up the data again. -/
theorem intercalate_data_lines (self : SseFrame) : "\n".intercalate self.data_lines = self.data := by
  have hlists : self.data_lines.map String.toList = self.data.toList.splitOn '\n' := by
    simp only [data_lines, List.map_map]
    exact List.map_id''  (fun cs => String.toList_ofList) _
  apply String.toList_inj.mp
  rw [String.toList_intercalate, hlists]
  exact List.intercalate_splitOn '\n'

end SseFrame

section Frames

variable (e : LineEnd)

/-- A field's line is plain when its value is. -/
theorem not_mem_field {c : Char} {name value : String} (hname : c ∉ name.toList) (hvalue : c ∉ value.toList) :
    c ∉ (name ++ value).toList := by
  rw [String.toList_append, List.mem_append, not_or]
  exact ⟨hname, hvalue⟩

theorem feed_bytes_data (event : Option String) (data : List String) {lines : List String}
    (hlines : ∀ line ∈ lines, '\n' ∉ line.toList ∧ '\r' ∉ line.toList) :
    SseParser.feed_bytes { event, data }
        (e.replace (as_bytes (String.join (lines.map fun line => "data: " ++ line ++ "\n")))) =
      ({ event, data := data ++ lines }, .ok []) := by
  induction lines generalizing data with
  | nil =>
    rw [List.append_nil]
    exact SseParser.feed_bytes_nil List.not_mem_nil
  | cons line lines ih =>
    obtain ⟨⟨hbreak, hreturn⟩, hlines⟩ := List.forall_mem_cons.mp hlines
    have hfirst := SseParser.feed_bytes_line { event, data } e _ rfl
      (not_mem_field (by decide) hbreak : '\n' ∉ ("data: " ++ line).toList)
      (not_mem_field (by decide) hreturn)
    rw [read_data] at hfirst
    have hrest := ih (data ++ [line]) hlines
    rw [List.append_assoc, List.singleton_append] at hrest
    rw [List.map_cons, String.join_cons, as_bytes_append, LineEnd.replace_append, SseParser.feed_bytes_append]
    exact ⟨_, [], [], hfirst, hrest, rfl⟩

/-- The event's line, where there is one, sets the event. -/
theorem feed_bytes_event {event : Option String}
    (hevent : ∀ ev, event = some ev → '\n' ∉ ev.toList ∧ '\r' ∉ ev.toList) :
    SseParser.feed_bytes {} (e.replace (as_bytes ((event.map fun ev => "event: " ++ ev ++ "\n").getD ""))) =
      ({ event }, .ok []) := by
  cases event with
  | none => exact SseParser.feed_bytes_nil List.not_mem_nil
  | some ev =>
    obtain ⟨hbreak, hreturn⟩ := hevent ev rfl
    have hline := SseParser.feed_bytes_line {} e _ rfl
      (not_mem_field (by decide) hbreak : '\n' ∉ ("event: " ++ ev).toList) (not_mem_field (by decide) hreturn)
    rw [read_event] at hline
    exact hline

/-- A rendered frame is read as that frame, with nothing left over. -/
theorem feed_bytes_render {frame : SseFrame} (hframe : frame.Renderable) :
    SseParser.feed_bytes {} (e.replace (as_bytes frame.render)) = ({}, .ok [frame]) := by
  obtain ⟨hevent, hdata⟩ := hframe
  have hlines : ∀ line ∈ frame.data_lines, '\n' ∉ line.toList ∧ '\r' ∉ line.toList := fun line hline =>
    ⟨(SseFrame.data_lines_plain hline).1, (SseFrame.data_lines_plain hline).2 hdata⟩
  have hblank := SseParser.feed_bytes_line { event := frame.event, data := frame.data_lines } e "" rfl
    (by decide) (by decide)
  have hflush : SseParser.read_line { event := frame.event, data := frame.data_lines } "" = ({}, some frame) := by
    rw [SseParser.read_line, if_pos rfl, SseParser.flush, if_neg fun h => frame.data_lines_ne_nil h.1,
      frame.intercalate_data_lines]
  rw [hflush] at hblank
  rw [SseFrame.render, as_bytes_append, as_bytes_append, LineEnd.replace_append, LineEnd.replace_append,
    SseParser.feed_bytes_append]
  refine ⟨_, [], [frame], ?_, hblank, rfl⟩
  rw [SseParser.feed_bytes_append]
  exact ⟨_, [], [], feed_bytes_event e hevent, feed_bytes_data e frame.event [] hlines, rfl⟩

/-- Rendered frames are read as these frames. -/
theorem feed_bytes_frames {frames : List SseFrame} (hframes : ∀ f ∈ frames, f.Renderable) :
    ({} : SseParser).feed_bytes (e.replace (frames.flatMap fun f => as_bytes f.render)) = ({}, .ok frames) := by
  induction frames with
  | nil => rfl
  | cons frame frames ih =>
    obtain ⟨hframe, hframes⟩ := List.forall_mem_cons.mp hframes
    rw [List.flatMap_cons, LineEnd.replace_append, SseParser.feed_bytes_append]
    exact ⟨{}, [frame], frames, feed_bytes_render e hframe, ih hframes, rfl⟩

/-- Rendered frames are read back, however the body is cut. -/
theorem parse_render {frames : List SseFrame} (hframes : ∀ f ∈ frames, f.Renderable) {chunks : List Bytes}
    (hchunks : chunks.flatten = e.replace (frames.flatMap fun f => as_bytes f.render)) :
    parse_sse.outputs parse_sse.init chunks = frames ∧ parse_sse.closing parse_sse.init chunks = .ok [] := by
  have hfeed := feed_bytes_frames e hframes
  rw [← hchunks] at hfeed
  have hrun := SseParser.run_chunks {} List.not_mem_nil hfeed
  have hfinish : (parse_sse.finish {}).2 = .ok [] := rfl
  rw [hfinish, Except.toOption, Option.getD_some, List.append_nil] at hrun
  exact hrun

end Frames

end refract.stream
