import Refract.Stream.Render

open refract.core refract.json refract.machine

namespace refract.stream

section Lines

/-- The lines of a body are its parts between the line breaks, the last of which
    was not ended. -/
theorem split_lines_eq (bytes : Bytes) : (split_lines bytes).1 ++ [(split_lines bytes).2] = bytes.splitOn NEWLINE := by
  induction bytes with
  | nil => rfl
  | cons b bytes ih =>
    rw [List.splitOn_cons_eq_if_modifyHead, ← ih]
    simp only [split_lines]
    by_cases hbreak : b = NEWLINE
    · simp [hbreak]
    · rw [if_neg hbreak, if_neg (by simpa using hbreak)]
      cases (split_lines bytes).1 with
      | nil => rfl
      | cons line lines => rfl

theorem splitOn_append_of_not_mem {front : Bytes} (hfront : NEWLINE ∉ front) (bytes : Bytes) :
    (front ++ bytes).splitOn NEWLINE = (bytes.splitOn NEWLINE).modifyHead (front ++ ·) := by
  induction front with
  | nil =>
    rw [List.nil_append]
    cases bytes.splitOn NEWLINE <;> rfl
  | cons b front ih =>
    rw [List.mem_cons, not_or] at hfront
    rw [List.cons_append, List.splitOn_cons_eq_if_modifyHead, if_neg (by simpa using Ne.symm hfront.1), ih hfront.2]
    cases bytes.splitOn NEWLINE <;> rfl

/-- The lines of a text. -/
def text_lines (text : String) : List String := (text.toList.splitOn '\n').map String.ofList

/-- A text may be cut into lines before or after it is encoded. -/
theorem splitOn_as_bytes (text : String) : (as_bytes text).splitOn NEWLINE = (text_lines text).map as_bytes := by
  have hencode : (text_lines text).map as_bytes = (text.toList.splitOn '\n').map (·.flatMap String.utf8EncodeChar) := by
    rw [text_lines, List.map_map]
    refine List.map_congr_left fun cs _ => ?_
    rw [Function.comp, as_bytes_eq, String.toList_ofList]
  rw [hencode, as_bytes_eq]
  induction text.toList with
  | nil => rfl
  | cons c cs ih =>
    rw [List.flatMap_cons, List.splitOn_cons_eq_if_modifyHead]
    by_cases hbreak : c = '\n'
    · subst hbreak
      have hbyte : String.utf8EncodeChar '\n' = [NEWLINE] := by decide
      rw [hbyte, List.singleton_append, List.splitOn_cons_eq_if_modifyHead, if_pos (by decide), if_pos (by decide), ih]
      rfl
    · have hplain : NEWLINE ∉ String.utf8EncodeChar c := by
        rw [mem_utf8EncodeChar (by decide)]
        exact fun hnat => hbreak (Char.toNat_inj.mp hnat)
      rw [splitOn_append_of_not_mem hplain, ih, if_neg (by simpa using hbreak)]
      cases cs.splitOn '\n' with
      | nil => rfl
      | cons line lines => simp

/-- A line of text without the carriage return at its end. -/
def strip_cr (line : String) : String :=
  if line.toList.getLast? = some '\r' then String.ofList line.toList.dropLast else line

theorem strip_return_as_bytes (line : String) : strip_return (as_bytes line) = as_bytes (strip_cr line) := by
  obtain ⟨cs, rfl⟩ : ∃ cs, line = String.ofList cs := ⟨line.toList, String.ofList_toList.symm⟩
  simp only [strip_cr, strip_return, as_bytes_eq, String.toList_ofList]
  rcases List.eq_nil_or_concat cs with rfl | ⟨front, c, rfl⟩
  · rfl
  · have hbytes : (front.concat c).flatMap String.utf8EncodeChar = front.flatMap String.utf8EncodeChar ++ String.utf8EncodeChar c := by
      simp
    rw [hbytes, List.concat_eq_append, List.getLast?_concat, List.dropLast_concat]
    by_cases hreturn : c = '\r'
    · subst hreturn
      have hbyte : String.utf8EncodeChar '\r' = [CARRIAGE_RETURN] := by decide
      rw [hbyte, List.getLast?_concat, if_pos rfl, if_pos rfl, List.dropLast_concat, String.toList_ofList]
    · have hlast : (front.flatMap String.utf8EncodeChar ++ String.utf8EncodeChar c).getLast? ≠ some CARRIAGE_RETURN := by
        intro hlast
        have hne : String.utf8EncodeChar c ≠ [] := String.utf8EncodeChar_ne_nil
        rw [List.getLast?_append_of_ne_nil _ hne] at hlast
        have hmem := (mem_utf8EncodeChar (by decide) c).mp (List.mem_of_getLast? hlast)
        exact hreturn (Char.toNat_inj.mp hmem)
      rw [if_neg hlast, if_neg (fun hsome => hreturn (Option.some.inj hsome)), String.toList_ofList]
      simp

/-- A line of the format is read as its text. -/
theorem SseParser.take_line_as_bytes (self : SseParser) (line : String) :
    self.take_line (as_bytes line) = .ok (self.read_line (strip_cr line)) := by
  rw [take_line, strip_return_as_bytes, read_text, from_utf8_as_bytes]
  rfl

end Lines

namespace SseParser

/-- What some lines make of the parser, and the frames that they end. -/
def read_lines (self : SseParser) : List String → SseParser × List SseFrame
  | [] => (self, [])
  | line :: lines =>
    let (next, frame) := self.read_line line
    (next.read_lines lines).map id (frame.toList ++ ·)

variable {self : SseParser} {rest : Bytes}

theorem take_lines_as_bytes (lines : List String) :
    self.take_lines rest (lines.map as_bytes) =
      ({ (self.read_lines (lines.map strip_cr)).1 with buffer := rest }, .ok (self.read_lines (lines.map strip_cr)).2) := by
  induction lines generalizing self with
  | nil => rfl
  | cons line lines ih =>
    rw [List.map_cons, take_lines_cons]
    exact ⟨_, _, _, self.take_line_as_bytes line, ih, rfl⟩

/-- A text is read line by line, up to its last line. -/
theorem feed_bytes_text {front : List String} {last : String} (hbuffer : self.buffer = []) {text : String}
    (hlines : text_lines text = front ++ [last]) :
    self.feed_bytes (as_bytes text) =
      ({ (self.read_lines (front.map strip_cr)).1 with buffer := as_bytes last }, .ok (self.read_lines (front.map strip_cr)).2) := by
  have hsplit := split_lines_eq (as_bytes text)
  rw [splitOn_as_bytes, hlines, List.map_append, List.map_singleton] at hsplit
  obtain ⟨hfront, hlast⟩ := List.append_inj' hsplit rfl
  rw [feed_bytes, hbuffer, List.nil_append]
  dsimp only
  rw [hfront, List.singleton_inj.mp hlast]
  exact take_lines_as_bytes front

theorem read_lines_append (lines others : List String) :
    (self.read_lines (lines ++ others)).2 = (self.read_lines lines).2 ++ ((self.read_lines lines).1.read_lines others).2 := by
  induction lines generalizing self with
  | nil => rfl
  | cons line lines ih =>
    simp only [List.cons_append, read_lines, Prod.map_snd, Prod.map_fst, ih, List.append_assoc, id]

/-- The chunks of a body, one after another, are read like the body. -/
theorem advance_chunks {chunks : List Bytes} {after : SseParser} {frames : List SseFrame} (hbuffer : NEWLINE ∉ self.buffer)
    (hfeed : self.feed_bytes chunks.flatten = (after, .ok frames)) :
    parse_sse.failure self chunks = none ∧ parse_sse.advance self chunks = after ∧ parse_sse.emit self chunks = frames := by
  induction chunks generalizing self frames with
  | nil =>
    rw [List.flatten_nil, feed_bytes_nil hbuffer] at hfeed
    obtain ⟨rfl, hframes⟩ := Prod.mk.inj hfeed
    obtain rfl := Except.ok.inj hframes
    exact ⟨rfl, rfl, rfl⟩
  | cons chunk chunks ih =>
    rw [List.flatten_cons, feed_bytes_append] at hfeed
    obtain ⟨mid, early, late, hearly, hlate, rfl⟩ := hfeed
    obtain ⟨hfailure, hadvance, hemit⟩ := ih (feed_bytes_buffer hearly) hlate
    have hstep : parse_sse.step self chunk = (mid, .ok early) := hearly
    simp only [Fallible.failure, Fallible.advance, Fallible.emit, hstep]
    exact ⟨hfailure, hadvance, by rw [hemit]⟩

/-- The parser when the last line was cut off: it reads data alone. -/
def cut_off (self : SseParser) (last : String) : SseParser :=
  if "data:".toList.isPrefixOf (trim last).toList then
    { self with data := self.data ++ [trim_start (String.ofList ((trim last).toList.drop 5))] }
  else self

theorem flush_waiting (self : SseParser) (waiting : Bytes) : ({ self with buffer := waiting } : SseParser).flush.2 = self.flush.2 := by
  unfold flush
  split <;> rfl

theorem finish_bytes_text (last : String) :
    ({ self with buffer := as_bytes last } : SseParser).finish_bytes.2 = .ok (self.cut_off last).flush.2 := by
  have hflush : ∀ parser : SseParser, (Prod.map id Except.ok parser.flush : SseParser × Except GatewayError _).2 = .ok parser.flush.2 :=
    fun _ => rfl
  by_cases hempty : last = ""
  · have hcut : self.cut_off "" = self := by simp [cut_off]
    rw [hempty, hcut]
    simp only [finish_bytes, show as_bytes "" = [] from by decide, if_true, hflush, flush_waiting]
  · have hbytes : as_bytes last ≠ [] := by
      intro hnil
      refine hempty (String.toList_inj.mp ?_)
      rw [as_bytes_eq, List.flatMap_eq_nil_iff] at hnil
      cases hchars : last.toList with
      | nil => rfl
      | cons c cs =>
        rw [hchars] at hnil
        exact absurd (hnil c (.head _)) String.utf8EncodeChar_ne_nil
    have hread : read_text (as_bytes last) = .ok last := by rw [read_text, from_utf8_as_bytes, Except.mapError]
    simp only [finish_bytes, if_neg hbytes, hread, hflush, cut_off]
    split
    · exact congrArg _ (flush_waiting { self with data := _ } [])
    · exact congrArg _ (flush_waiting self [])

/-- The parser when the last line and a blank one were ended. -/
theorem read_lines_ended (line : String) :
    (self.read_lines [line, ""]).2 = (if line = "" then self else self.accept line).flush.2.toList := by
  have hblank : ∀ parser : SseParser, (parser.read_lines [""]).2 = parser.flush.2.toList := by
    intro parser
    simp [read_lines, read_line]
  rw [read_lines]
  by_cases hempty : line = ""
  · subst hempty
    have hagain : self.flush.1.flush.2 = none := by
      unfold flush
      split <;> rfl
    simp [read_line, hblank, hagain]
  · simp [read_line, hblank, hempty]

end SseParser

section Trimming

theorem trim_strip_cr (line : String) : trim (strip_cr line) = trim line := by
  unfold strip_cr
  split
  next hlast =>
    obtain ⟨front, hfront⟩ : ∃ front, line.toList = front ++ ['\r'] :=
      ⟨_, (List.dropLast_append_getLast? _ hlast).symm⟩
    have hend : trimEnd (front ++ ['\r']) = trimEnd front := by
      simp [trimEnd, show is_whitespace '\r' = true from by decide]
    rw [trim, trim, String.toList_ofList, hfront, List.dropLast_concat, ← trimChars_trimEnd (front ++ _), hend, trimChars_trimEnd]
  · rfl

/-- Trimming may begin at either end. -/
theorem dropWhile_trimEnd (cs : List Char) : (trimEnd cs).dropWhile is_whitespace = trimChars cs := by
  induction cs with
  | nil => rfl
  | cons c cs ih =>
    cases hc : is_whitespace c with
    | false => rw [trimEnd_cons_of_visible hc, List.dropWhile_cons_of_neg (by simp [hc]), trimChars_eq_trimEnd hc, trimEnd_cons_of_visible hc]
    | true =>
      have hskip : trimChars (c :: cs) = trimChars cs := by
        rw [trimChars, List.dropWhile_cons_of_pos hc, trimChars]
      rw [hskip, ← ih]
      by_cases hcs : trimEnd cs = []
      · have hall : cs.reverse.dropWhile is_whitespace = [] := by simpa [trimEnd] using hcs
        rw [hcs, trimEnd, List.reverse_cons, List.dropWhile_append, hall]
        simp [hc]
      · rw [show trimEnd (c :: cs) = c :: trimEnd cs from trimEnd_append [c] hcs, List.dropWhile_cons_of_pos hc]

end Trimming

section Fields

/-- The value of a line that is of a field and no comment. -/
def field_value (name line : String) : Option String :=
  if line.toList.head? ≠ some ':' ∧ (split_field line).1 = name then some (split_field line).2 else none

/-- What a line that is not blank makes of the parser. -/
theorem accept_eq (self : SseParser) (line : String) :
    self.accept line =
      { self with
        event := (field_value "event" line).or self.event
        data := self.data ++ (field_value "data" line).toList } := by
  unfold SseParser.accept field_value
  by_cases hcomment : line.toList.head? = some ':'
  · simp [hcomment]
  · rw [if_neg hcomment]
    obtain ⟨field, value⟩ := split_field line
    by_cases hevent : field = "event"
    · subst hevent
      simp [hcomment]
    · by_cases hdata : field = "data"
      · subst hdata
        simp [hcomment]
      · simp [hevent, hdata]

/-- A text that is read from a line that was cut off. -/
def cut_value (line : String) : Option String :=
  if "data:".toList.isPrefixOf (trim line).toList then some (trim_start (String.ofList ((trim line).toList.drop 5))) else none

theorem cut_off_eq (self : SseParser) (last : String) :
    self.cut_off last = { self with data := self.data ++ (cut_value (strip_cr last)).toList } := by
  unfold SseParser.cut_off cut_value
  rw [trim_strip_cr]
  split <;> simp

variable {line value name : String}

/-- A line of a field is its name alone, or its name and a value after a colon. -/
theorem field_value_eq_some (hvalue : field_value name line = some value) :
    (line = name ∧ value = "") ∨ ∃ rest, line.toList = name.toList ++ ':' :: rest ∧
      value = String.ofList (if rest.head? = some ' ' then rest.tail else rest) := by
  unfold field_value at hvalue
  split at hvalue
  next hfield =>
    obtain ⟨-, hname⟩ := hfield
    obtain rfl := Option.some.inj hvalue
    simp only [split_field, List.span_eq_takeWhile_dropWhile] at hname ⊢
    have hchars := List.takeWhile_append_dropWhile (p := (· ≠ ':')) (l := line.toList)
    have htake : line.toList.takeWhile (· ≠ ':') = name.toList := by rw [← hname, String.toList_ofList]
    rw [htake] at hchars
    cases hdrop : line.toList.dropWhile (· ≠ ':') with
    | nil =>
      rw [hdrop, List.append_nil] at hchars
      exact .inl ⟨(String.toList_inj.mp hchars).symm, rfl⟩
    | cons c rest =>
      have hcolon : c = ':' := by
        have hnot := List.head?_dropWhile_not (· ≠ ':') line.toList
        rw [hdrop] at hnot
        simpa using hnot
      rw [hdrop, hcolon] at hchars
      exact .inr ⟨rest, hchars.symm, by rw [List.tail_cons]⟩
  · cases hvalue

theorem toList_trim_cons {c : Char} {cs : List Char} (hchars : line.toList = c :: cs) (hc : is_whitespace c = false) :
    (trim line).toList = c :: trimEnd cs := by
  rw [trim, String.toList_ofList, hchars, trimChars_eq_trimEnd hc, trimEnd_cons_of_visible hc]

/-- Nothing is read from a cut-off line that does not begin as data does. -/
theorem cut_value_of_visible {c : Char} {cs : List Char} (hchars : line.toList = c :: cs) (hc : is_whitespace c = false) (hd : c ≠ 'd') :
    cut_value line = none := by
  rw [cut_value, toList_trim_cons hchars hc]
  simp [List.isPrefixOf, hd.symm]

theorem cut_value_event (hvalue : field_value "event" line = some value) : cut_value line = none ∧ field_value "data" line = none := by
  have hchars : ∃ cs, line.toList = 'e' :: cs := by
    rcases field_value_eq_some hvalue with ⟨rfl, -⟩ | ⟨rest, hrest, -⟩
    · exact ⟨_, rfl⟩
    · exact ⟨_, hrest⟩
  obtain ⟨cs, hchars⟩ := hchars
  refine ⟨cut_value_of_visible hchars (by decide) (by decide), ?_⟩
  unfold field_value at hvalue ⊢
  split at hvalue
  next hfield => exact if_neg fun h => absurd (hfield.2.symm.trans h.2) (by decide)
  · cases hvalue

/-- What is read from a cut-off line of data is its value without the whitespace
    around it. -/
theorem cut_value_data {rest : List Char} (hchars : line.toList = "data".toList ++ ':' :: rest) :
    cut_value line = some (String.ofList (trimChars rest)) := by
  have htrim : (trim line).toList = 'd' :: 'a' :: 't' :: 'a' :: ':' :: trimEnd rest := by
    rw [toList_trim_cons (show line.toList = 'd' :: 'a' :: 't' :: 'a' :: ':' :: rest from hchars) (by decide),
      trimEnd_cons_of_visible (by decide), trimEnd_cons_of_visible (by decide), trimEnd_cons_of_visible (by decide),
      trimEnd_cons_of_visible (by decide)]
  rw [cut_value, htrim, if_pos (by simp [List.isPrefixOf])]
  simp only [List.drop_succ_cons, List.drop_zero, trim_start, String.toList_ofList, dropWhile_trimEnd]

theorem cut_value_bare : cut_value "data" = none := by decide

/-- One blank before a text does not matter to its trimming. -/
theorem trimChars_strip_blank (rest : List Char) : trimChars (if rest.head? = some ' ' then rest.tail else rest) = trimChars rest := by
  cases rest with
  | nil => rfl
  | cons c cs =>
    by_cases hblank : c = ' '
    · subst hblank
      simp [trimChars, show is_whitespace ' ' = true from by decide]
    · simp [hblank]

/-- An empty text is read from a cut-off line that is the name of data alone. -/
theorem cut_value_eq_empty {cut : String} (hcut : cut_value line = some cut) : cut = "" ↔ trim line = "data:" := by
  unfold cut_value at hcut
  split at hcut
  next hprefix =>
    obtain rfl := Option.some.inj hcut
    obtain ⟨rest, hrest⟩ := List.isPrefixOf_iff_prefix.mp hprefix
    have htrimmed : trimEnd (trim line).toList = (trim line).toList := by
      rw [trim, String.toList_ofList]
      exact trimEnd_trimEnd _
    have hend : trimEnd rest = rest := by
      rw [← hrest] at htrimmed
      simpa [trimEnd_cons_of_visible, show is_whitespace 'd' = false from by decide, show is_whitespace 'a' = false from by decide,
        show is_whitespace 't' = false from by decide, show is_whitespace ':' = false from by decide] using htrimmed
    have hdrop : (trim line).toList.drop 5 = rest := by rw [← hrest]; rfl
    have hname : trim line = "data:" ↔ rest = [] := by
      rw [← String.toList_inj, ← hrest]
      simp
    rw [hname, hdrop, trim_start, String.toList_ofList, ← String.toList_inj, String.toList_ofList, String.toList_empty,
      List.dropWhile_eq_nil_iff]
    constructor
    · intro hall
      have hnil : trimEnd rest = [] := by
        rw [trimEnd, List.dropWhile_eq_nil_iff.mpr fun c hc => hall c (List.mem_reverse.mp hc), List.reverse_nil]
      rw [← hend, hnil]
    · rintro rfl
      intro c hc
      cases hc
  · cases hcut

end Fields

section Agreement

/-- When the end of the body is as good as a blank line: what is read before the
    last line, and that line, without a carriage return. -/
structure EndsLikeBlank (event : Option String) (data : List String) (line : String) : Prop where
  same_event : ∀ value, field_value "event" line = some value → event = some value
  trimmed_data : ∀ value, field_value "data" line = some value → line ≠ "data" → trim value = value
  bare_data : line = "data" → data = [] ∧ event ≠ none
  indented_data : (cut_value line).isSome = true → field_value "data" line = none → data = [] ∧ event ≠ none ∧ trim line = "data:"

variable {data : List String}

theorem flush_data (parser : SseParser) (value : String) :
    ({ parser with data := parser.data ++ [value] } : SseParser).flush.2 =
      some ⟨parser.event, "\n".intercalate (parser.data ++ [value])⟩ := by
  rw [SseParser.flush, if_neg (by simp)]

theorem intercalate_concat_inj {v w : String} : "\n".intercalate (data ++ [v]) = "\n".intercalate (data ++ [w]) ↔ v = w := by
  by_cases hdata : data = []
  · simp [hdata]
  · rw [String.intercalate_append_of_ne_nil hdata (by simp), String.intercalate_append_of_ne_nil hdata (by simp)]
    simp

theorem intercalate_concat_eq {v : String} : "\n".intercalate (data ++ [v]) = "\n".intercalate data ↔ data = [] ∧ v = "" := by
  by_cases hdata : data = []
  · simp [hdata]
  · rw [String.intercalate_append_of_ne_nil hdata (by simp)]
    refine iff_of_false (fun heq => ?_) fun h => hdata h.1
    have hlength := congrArg String.length heq
    simp only [String.length_append, show "\n".length = 1 from rfl] at hlength
    omega

/-- One text more makes another frame, unless it is empty and the only one. -/
theorem flush_data_eq (parser : SseParser) (value : String) :
    ({ parser with data := parser.data ++ [value] } : SseParser).flush.2 = parser.flush.2 ↔
      parser.data = [] ∧ parser.event ≠ none ∧ value = "" := by
  rw [flush_data, SseParser.flush]
  by_cases hnothing : parser.data = [] ∧ parser.event = none
  · rw [if_pos hnothing]
    exact iff_of_false (fun h => by cases h) fun h => h.2.1 hnothing.2
  · rw [if_neg hnothing]
    simp only [Option.some.injEq, SseFrame.mk.injEq, true_and, intercalate_concat_eq]
    constructor
    · rintro ⟨hdata, hvalue⟩
      exact ⟨hdata, fun hevent => hnothing ⟨hdata, hevent⟩, hvalue⟩
    · rintro ⟨hdata, -, hvalue⟩
      exact ⟨hdata, hvalue⟩

/-- Another event makes another frame. -/
theorem flush_event_eq (parser : SseParser) (value : String) :
    parser.flush.2 = ({ parser with event := some value } : SseParser).flush.2 ↔ parser.event = some value := by
  constructor
  · intro hflush
    simp only [SseParser.flush, reduceCtorEq, and_false, if_false] at hflush
    split at hflush
    · cases hflush
    · exact congrArg SseFrame.event (Option.some.inj hflush)
  · intro hevent
    rw [← hevent]

/-- The frame of a body that was cut off is the one that a blank line would end
    in these cases, and in no others. -/
theorem flush_cut_off_iff (parser : SseParser) (last : String) :
    (parser.cut_off last).flush.2 = (if strip_cr last = "" then parser else parser.accept (strip_cr last)).flush.2 ↔
      EndsLikeBlank parser.event parser.data (strip_cr last) := by
  have hblank : (if strip_cr last = "" then parser else parser.accept (strip_cr last)) = parser.accept (strip_cr last) := by
    split
    next hempty =>
      rw [hempty, accept_eq]
      simp [field_value, split_field]
    · rfl
  rw [hblank, cut_off_eq, accept_eq]
  generalize strip_cr last = line
  cases hevent : field_value "event" line with
  | some value =>
    obtain ⟨hcut, hdata⟩ := cut_value_event hevent
    have hname : line ≠ "data" := by
      rintro rfl
      have hnone : field_value "event" "data" = none := by decide
      cases hnone.symm.trans hevent
    simp only [hcut, hdata, Option.toList_none, List.append_nil, Option.some_or, flush_event_eq]
    constructor
    · exact fun hsame => ⟨fun other hother => by rw [hsame, ← hevent, hother], fun other hother => (by cases hdata.symm.trans hother),
        fun hbare => absurd hbare hname, fun hsome => (by rw [hcut] at hsome; cases hsome)⟩
    · exact fun hends => hends.same_event value hevent
  | none =>
    simp only [Option.none_or]
    cases hdata : field_value "data" line with
    | some value =>
      rcases field_value_eq_some hdata with ⟨rfl, rfl⟩ | ⟨rest, hchars, rfl⟩
      · simp only [cut_value_bare, Option.toList_none, List.append_nil, Option.toList_some]
        rw [eq_comm, flush_data_eq]
        constructor
        · rintro ⟨hnone, hsome, -⟩
          exact ⟨fun other hother => (by cases hevent.symm.trans hother), fun _ _ hname => absurd rfl hname, fun _ => ⟨hnone, hsome⟩,
            fun hcut => (by rw [cut_value_bare] at hcut; cases hcut)⟩
        · exact fun hends => ⟨(hends.bare_data rfl).1, (hends.bare_data rfl).2, rfl⟩
      · have hname : line ≠ "data" := by
          rintro rfl
          have hlength := congrArg List.length hchars
          simp at hlength
        simp only [cut_value_data hchars, Option.toList_some, flush_data, Option.some.injEq, SseFrame.mk.injEq, true_and,
          intercalate_concat_inj]
        have htrim : trim (String.ofList (if rest.head? = some ' ' then rest.tail else rest)) = String.ofList (trimChars rest) := by
          rw [trim, String.toList_ofList, trimChars_strip_blank]
        rw [← htrim]
        constructor
        · intro hvalue
          refine ⟨fun other hother => (by cases hevent.symm.trans hother), fun other hother _ => ?_, fun hbare => absurd hbare hname,
            fun _ hnone => (by cases hdata.symm.trans hnone)⟩
          obtain rfl := Option.some.inj (hdata.symm.trans hother)
          exact hvalue
        · exact fun hends => hends.trimmed_data _ hdata hname
    | none =>
      have hname : line ≠ "data" := by
        rintro rfl
        exact absurd hdata (by decide)
      cases hcut : cut_value line with
      | none =>
        simp only [Option.toList_none, List.append_nil, true_iff]
        exact ⟨fun other hother => (by cases hevent.symm.trans hother), fun other hother => (by cases hdata.symm.trans hother),
          fun hbare => absurd hbare hname, fun hsome => (by rw [hcut] at hsome; cases hsome)⟩
      | some cut =>
        simp only [Option.toList_some, Option.toList_none, List.append_nil]
        rw [flush_data_eq, cut_value_eq_empty hcut]
        constructor
        · exact fun hindented => ⟨fun other hother => (by cases hevent.symm.trans hother),
            fun other hother => (by cases hdata.symm.trans hother), fun hbare => absurd hbare hname, fun _ _ => hindented⟩
        · exact fun hends => hends.indented_data (by rw [hcut]; rfl) hdata

end Agreement

section Bodies

/-- The lines since the last blank one. -/
def open_lines (lines : List String) : List String := (lines.reverse.takeWhile (· ≠ "")).reverse

/-- The event that some lines leave open, and the data. -/
def open_event (lines : List String) : Option String := ((open_lines lines).filterMap (field_value "event")).getLast?

def open_data (lines : List String) : List String := (open_lines lines).filterMap (field_value "data")

theorem read_lines_concat (lines : List String) (line : String) :
    (({} : SseParser).read_lines (lines ++ [line])).1 = ((({} : SseParser).read_lines lines).1.read_line line).1 := by
  have hrun : ∀ (parser : SseParser) (lines : List String),
      (parser.read_lines (lines ++ [line])).1 = ((parser.read_lines lines).1.read_line line).1 := by
    intro parser lines
    induction lines generalizing parser with
    | nil => rfl
    | cons first lines ih => simpa only [List.cons_append, SseParser.read_lines, Prod.map_fst, id] using ih _
  exact hrun {} lines

/-- The parser knows what the lines since the last blank one say. -/
theorem read_lines_open (lines : List String) :
    (({} : SseParser).read_lines lines).1.event = open_event lines ∧ (({} : SseParser).read_lines lines).1.data = open_data lines := by
  induction lines using List.reverseRecOn with
  | nil => exact ⟨rfl, rfl⟩
  | append_singleton lines line ih =>
    rw [read_lines_concat]
    generalize (({} : SseParser).read_lines lines).1 = parser at ih ⊢
    by_cases hblank : line = ""
    · have hnone : open_lines (lines ++ [line]) = [] := by simp [open_lines, hblank]
      rw [SseParser.read_line, if_pos hblank, open_event, open_data, hnone, SseParser.flush]
      split
      next hnothing => exact ⟨hnothing.2, hnothing.1⟩
      · exact ⟨rfl, rfl⟩
    · have hopen : open_lines (lines ++ [line]) = open_lines lines ++ [line] := by simp [open_lines, hblank]
      rw [SseParser.read_line, if_neg hblank, accept_eq, open_event, open_data, hopen, List.filterMap_append, List.filterMap_append,
        ih.1, ih.2]
      refine ⟨?_, ?_⟩
      · cases hvalue : field_value "event" line with
        | none => simp [hvalue, open_event]
        | some value => simp [hvalue]
      · cases hvalue : field_value "data" line with
        | none => simp [hvalue, open_data]
        | some value => simp [hvalue, open_data]

/-- The last line of a text was not ended. -/
def TextEndsLikeBlank (text : String) : Prop :=
  EndsLikeBlank (open_event ((text_lines text).dropLast.map strip_cr)) (open_data ((text_lines text).dropLast.map strip_cr))
    (strip_cr ((text_lines text).getLastD ""))

theorem text_lines_ended (text : String) : text_lines (text ++ "\n\n") = text_lines text ++ ["", ""] := by
  have hchars : (text ++ "\n\n").toList = text.toList ++ '\n' :: ['\n'] := by rw [String.toList_append]; rfl
  rw [text_lines, hchars, List.splitOn_append_cons_self, List.map_append]
  rfl

/-- For a body of text, however it is cut into chunks, the end is as good as a
    blank line in these cases, and in no others. -/
theorem finish_as_blank_line_iff {text : String} {chunks : List Bytes} (hchunks : chunks.flatten = as_bytes text) :
    parse_sse.outputs parse_sse.init chunks = parse_sse.emit parse_sse.init (chunks ++ [as_bytes "\n\n"]) ↔ TextEndsLikeBlank text := by
  obtain ⟨front, last, hlines⟩ : ∃ front last, text_lines text = front ++ [last] := by
    have hne : text_lines text ≠ [] := by simp [text_lines, List.splitOn_ne_nil]
    exact ⟨_, _, (List.dropLast_append_getLast hne).symm⟩
  have hended : text_lines (text ++ "\n\n") = (front ++ [last, ""]) ++ [""] := by
    rw [text_lines_ended, hlines]
    simp
  have hjoined : (chunks ++ [as_bytes "\n\n"]).flatten = as_bytes (text ++ "\n\n") := by
    rw [List.flatten_append, hchunks, List.flatten_singleton, as_bytes_append]
  have hfeed : ({} : SseParser).feed_bytes chunks.flatten = _ := hchunks ▸ SseParser.feed_bytes_text rfl hlines
  have hfeed_ended : ({} : SseParser).feed_bytes (chunks ++ [as_bytes "\n\n"]).flatten = _ :=
    hjoined ▸ SseParser.feed_bytes_text rfl hended
  obtain ⟨houtputs, -⟩ := SseParser.run_chunks {} List.not_mem_nil hfeed
  obtain ⟨-, -, hemit⟩ := SseParser.advance_chunks List.not_mem_nil hfeed_ended
  have hcut := @SseParser.finish_bytes_text (({} : SseParser).read_lines (front.map strip_cr)).1 last
  obtain ⟨hevent, hdata⟩ := read_lines_open (front.map strip_cr)
  have hcondition : TextEndsLikeBlank text ↔ EndsLikeBlank (({} : SseParser).read_lines (front.map strip_cr)).1.event
      (({} : SseParser).read_lines (front.map strip_cr)).1.data (strip_cr last) := by
    rw [TextEndsLikeBlank, hlines, List.dropLast_concat, hevent, hdata]
    simp
  have hstrip : (front ++ [last, ""]).map strip_cr = front.map strip_cr ++ [strip_cr last, ""] := by
    rw [List.map_append]
    rfl
  have hlast : (parse_sse.finish { (({} : SseParser).read_lines (front.map strip_cr)).1 with buffer := as_bytes last }).2 =
      .ok ((({} : SseParser).read_lines (front.map strip_cr)).1.cut_off last).flush.2.toList := by
    rw [parse_sse]
    simp only [Prod.map_snd, hcut, Except.map]
  rw [hcondition, ← flush_cut_off_iff]
  rw [show parse_sse.init = ({} : SseParser) from rfl, houtputs, hemit, hlast, hstrip, SseParser.read_lines_append,
    SseParser.read_lines_ended]
  simp only [Except.toOption, Option.getD_some, List.append_cancel_left_eq]
  constructor
  · intro hsame
    simpa only [Option.head?_toList] using congrArg List.head? hsame
  · intro hsame
    rw [hsame]

theorem cut_off_in_data :
    parse_sse.outputs parse_sse.init [as_bytes "event: add\nda", as_bytes "ta: \x7b\x7d"] =
      parse_sse.emit parse_sse.init [as_bytes "event: add\nda", as_bytes "ta: \x7b\x7d", as_bytes "\n\n"] := by
  refine (@finish_as_blank_line_iff "event: add\ndata: \x7b\x7d" [as_bytes "event: add\nda", as_bytes "ta: \x7b\x7d"] (by decide +kernel)).mpr ?_
  refine ⟨fun value hvalue => ?_, fun value hvalue _ => ?_, fun hbare => ?_, fun _ hnone => ?_⟩
  · have hevent : field_value "event" (strip_cr ((text_lines "event: add\ndata: \x7b\x7d").getLastD "")) = none := by decide +kernel
    cases hevent.symm.trans hvalue
  · obtain rfl : value = "\x7b\x7d" := by
      have hdata : field_value "data" (strip_cr ((text_lines "event: add\ndata: \x7b\x7d").getLastD "")) = some "\x7b\x7d" := by decide +kernel
      exact Option.some.inj (hvalue.symm.trans hdata)
    decide +kernel
  · exact absurd hbare (by decide +kernel)
  · exact absurd hnone (by decide +kernel)

/-- The blanks at the end of a text are lost if the body ends there. -/
theorem blanks_lost_at_the_end :
    parse_sse.outputs parse_sse.init [as_bytes "data: word "] = [⟨none, "word"⟩] ∧
      parse_sse.emit parse_sse.init [as_bytes "data: word ", as_bytes "\n\n"] = [⟨none, "word "⟩] := by
  decide +kernel

end Bodies

end refract.stream
