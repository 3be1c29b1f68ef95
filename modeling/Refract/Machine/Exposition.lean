import Mathlib.Data.List.TakeWhile
import Mathlib.Tactic.Common

namespace refract.machine.exposition

/-- A line of a page of metrics: the value of one series. -/
structure Sample where
  name : String
  labels : List (String × String)
  value : String
  deriving DecidableEq, Repr

def is_name_char (c : Char) : Bool := c.isAlphanum || c = '_' || c = ':'

def is_blank (c : Char) : Bool := c = ' ' || c = '\t'

section Parser

def parse_name (cs : List Char) : Option (List Char × List Char) :=
  match cs.takeWhile is_name_char with
  | [] => none
  | c :: name => if c.isDigit then none else some (c :: name, cs.dropWhile is_name_char)

/-- A text in quotes, which is closed. -/
def parse_text : List Char → Option (List Char × List Char)
  | [] => none
  | '"' :: rest => some ([], rest)
  | '\\' :: '\\' :: rest => (parse_text rest).map fun (text, rest) => ('\\' :: text, rest)
  | '\\' :: '"' :: rest => (parse_text rest).map fun (text, rest) => ('"' :: text, rest)
  | '\\' :: 'n' :: rest => (parse_text rest).map fun (text, rest) => ('\n' :: text, rest)
  | '\\' :: _ => none
  | c :: rest => (parse_text rest).map fun (text, rest) => (c :: text, rest)

/-- The labels up to the closing brace. There are no more of them than characters. -/
def parse_labels : Nat → List Char → Option (List (String × String) × List Char)
  | 0, _ => none
  | fuel + 1, cs =>
    if cs.head? = some '}' then some ([], cs.tail)
    else
      match parse_name cs with
      | some (label, '=' :: '"' :: rest) =>
        match parse_text rest with
        | some (text, '}' :: rest) => some ([(String.ofList label, String.ofList text)], rest)
        | some (text, ',' :: rest) =>
          (parse_labels fuel rest).map fun (labels, rest) => ((String.ofList label, String.ofList text) :: labels, rest)
        | _ => none
      | _ => none

/-- A value after a blank, and perhaps a time. -/
def parse_value (cs : List Char) : Option String :=
  let after := cs.dropWhile is_blank
  let value := after.takeWhile (!is_blank ·)
  let time := (after.dropWhile (!is_blank ·)).dropWhile is_blank
  if cs.head?.any is_blank && !value.isEmpty && !time.any is_blank then some (String.ofList value) else none

def parse_sample (cs : List Char) : Option Sample :=
  match parse_name cs with
  | none => none
  | some (name, rest) =>
    let labelled := if rest.head? = some '{' then parse_labels rest.length rest.tail else some ([], rest)
    match labelled with
    | none => none
    | some (labels, rest) => (parse_value rest).map (⟨String.ofList name, labels, ·⟩)

/-- Comments and empty lines say nothing. -/
def parse_line (line : List Char) : Option (List Sample) :=
  if line.isEmpty || line.head? = some '#' then some [] else (parse_sample line).map ([·])

def parse_lines : List (List Char) → Option (List Sample)
  | [] => some []
  | line :: lines => (parse_line line).bind fun samples => (parse_lines lines).map (samples ++ ·)

/-- What a page of metrics says. -/
def parse (page : String) : Option (List Sample) := parse_lines (page.toList.splitOn '\n')

end Parser

/-- A page of lines. -/
def page (lines : List String) : String := String.join (lines.map (· ++ "\n"))

/-- What is read of some lines, which may contain line breaks. -/
def reads (lines : List String) : Option (List Sample) := parse_lines (lines.flatMap (·.toList.splitOn '\n'))

section Lines

theorem parse_lines_append (front back : List (List Char)) :
    parse_lines (front ++ back) = (parse_lines front).bind fun samples => (parse_lines back).map (samples ++ ·) := by
  induction front with
  | nil => simp [parse_lines]
  | cons line front ih =>
    rw [List.cons_append, parse_lines, parse_lines, ih]
    cases parse_line line with
    | none => rfl
    | some samples => cases parse_lines front <;> cases parse_lines back <;> simp

theorem page_lines (lines : List String) :
    (page lines).toList.splitOn '\n' = lines.flatMap (·.toList.splitOn '\n') ++ [[]] := by
  induction lines with
  | nil => rfl
  | cons line lines ih =>
    have hchars : (page (line :: lines)).toList = line.toList ++ '\n' :: (page lines).toList := by
      rw [page, List.map_cons, String.join_cons, String.toList_append, String.toList_append, page]
      simp
    rw [hchars, List.splitOn_append_cons_self, ih, List.flatMap_cons, List.append_assoc]

/-- A page says what its lines say. -/
theorem parse_page (lines : List String) : parse (page lines) = reads lines := by
  rw [parse, page_lines, parse_lines_append, reads]
  cases parse_lines _ <;> simp [parse_lines, parse_line]

theorem reads_append (front back : List String) :
    reads (front ++ back) = (reads front).bind fun samples => (reads back).map (samples ++ ·) := by
  rw [reads, List.flatMap_append, parse_lines_append]
  rfl

theorem reads_append_some {front back : List String} {first second : List Sample} (hfront : reads front = some first)
    (hback : reads back = some second) : reads (front ++ back) = some (first ++ second) := by
  rw [reads_append, hfront, hback]
  rfl

/-- A comment at the end is no series. -/
theorem reads_append_silent {front back : List String} {first : List Sample} (hfront : reads front = some first)
    (hback : reads back = some []) : reads (front ++ back) = some first := by
  rw [reads_append_some hfront hback, List.append_nil]

/-- A comment at the front is no series. -/
theorem reads_silent_append {front back : List String} {second : List Sample} (hfront : reads front = some [])
    (hback : reads back = some second) : reads (front ++ back) = some second :=
  reads_append_some hfront hback

theorem reads_cons_some {line : String} {lines : List String} {first second : List Sample} (hline : reads [line] = some first)
    (hlines : reads lines = some second) : reads (line :: lines) = some (first ++ second) :=
  reads_append_some hline hlines

/-- One line that is not read breaks the page. -/
theorem reads_eq_none {line : String} {lines : List String} (hmem : line ∈ lines) (hline : reads [line] = none) : reads lines = none := by
  obtain ⟨front, back, rfl⟩ := List.append_of_mem hmem
  rw [reads_append, show line :: back = [line] ++ back from rfl, reads_append, hline]
  cases reads front <;> rfl

theorem reads_each {α : Type} {xs : List α} {line : α → String} {sample : α → Sample} (hxs : ∀ x ∈ xs, reads [line x] = some [sample x]) :
    reads (xs.map line) = some (xs.map sample) := by
  induction xs with
  | nil => rfl
  | cons x xs ih =>
    obtain ⟨hx, hxs⟩ := List.forall_mem_cons.mp hxs
    exact reads_cons_some hx (ih hxs)

end Lines

section Series

/-- A name of a metric, or of a label. -/
def IsName (name : String) : Prop :=
  name.toList ≠ [] ∧ (name.toList.head?.all fun c => !c.isDigit) = true ∧ name.toList.all is_name_char = true

instance instDecidableIsName (name : String) : Decidable (IsName name) := inferInstanceAs (Decidable (_ ∧ _ ∧ _))

/-- A text without blanks. -/
def IsWord (text : String) : Prop := text.toList ≠ [] ∧ ∀ c ∈ text.toList, is_blank c = false ∧ c ≠ '\n'

/-- A text as it is quoted, but that line breaks stay. -/
def quote (cs : List Char) : List Char := cs.flatMap fun c => if c = '\\' then ['\\', '\\'] else if c = '"' then ['\\', '"'] else [c]

variable {name label value : String} {cs rest : List Char}

/-- A text that is given is a name if its characters are those of one. -/
theorem IsName.of_chars (hcs : cs ≠ [] ∧ (cs.head?.all fun c => !c.isDigit) = true ∧ cs.all is_name_char = true) :
    IsName (String.ofList cs) := by
  rwa [IsName, String.toList_ofList]

/-- A name with more characters of a name at its end. -/
theorem IsName.append (hname : IsName name) (hcs : cs.all is_name_char = true) : IsName (name ++ String.ofList cs) := by
  obtain ⟨hne, hfirst, hall⟩ := hname
  rw [IsName, String.toList_append, String.toList_ofList, List.all_append, hall, hcs]
  refine ⟨fun hnil => hne (List.append_eq_nil_iff.mp hnil).1, ?_, rfl⟩
  rwa [List.head?_append, List.head?_eq_some_head hne, Option.some_or, ← List.head?_eq_some_head hne]

theorem unbroken_of_chars (hcs : '\n' ∉ cs) : '\n' ∉ (String.ofList cs).toList := by
  rwa [String.toList_ofList]

/-- A name does not begin with another character. -/
theorem IsName.head_ne (hname : IsName name) {d : Char} (hd : is_name_char d = false) (rest : List Char) :
    (name.toList ++ rest).head? ≠ some d := by
  obtain ⟨hne, -, hall⟩ := hname
  cases hcs : name.toList with
  | nil => exact absurd hcs hne
  | cons c cs =>
    rw [hcs, List.all_cons, Bool.and_eq_true] at hall
    rintro heq
    obtain rfl := Option.some.inj heq
    cases hd.symm.trans hall.1

theorem parse_name_append (hname : IsName name) {d : Char} (hd : is_name_char d = false) (rest : List Char) :
    parse_name (name.toList ++ d :: rest) = some (name.toList, d :: rest) := by
  obtain ⟨hne, hfirst, hall⟩ := hname
  have hchars : ∀ c ∈ name.toList, is_name_char c = true := List.all_eq_true.mp hall
  have htake : (name.toList ++ d :: rest).takeWhile is_name_char = name.toList := by
    rw [List.takeWhile_append_of_pos hchars, List.takeWhile_cons_of_neg (by rw [hd]; exact Bool.false_ne_true), List.append_nil]
  have hdrop : (name.toList ++ d :: rest).dropWhile is_name_char = d :: rest := by
    rw [List.dropWhile_append_of_pos hchars, List.dropWhile_cons_of_neg (by rw [hd]; exact Bool.false_ne_true)]
  rw [parse_name, htake, hdrop]
  cases hcs : name.toList with
  | nil => exact absurd hcs hne
  | cons c cs =>
    rw [hcs] at hfirst
    simpa using hfirst

/-- What is quoted is read up to the end of the quotation. -/
theorem parse_text_quote (cs rest : List Char) :
    parse_text (quote cs ++ rest) = (parse_text rest).map fun (text, rest) => (cs ++ text, rest) := by
  induction cs with
  | nil => simp [quote]
  | cons c cs ih =>
    have hquote : quote (c :: cs) = (if c = '\\' then ['\\', '\\'] else if c = '"' then ['\\', '"'] else [c]) ++ quote cs := by
      rw [quote, List.flatMap_cons, ← quote]
    rw [hquote, List.append_assoc]
    by_cases hslash : c = '\\'
    · subst hslash
      rw [if_pos rfl, List.cons_append, List.singleton_append, parse_text, ih]
      cases parse_text rest <;> rfl
    · rw [if_neg hslash]
      by_cases hmark : c = '"'
      · subst hmark
        rw [if_pos rfl, List.cons_append, List.singleton_append, parse_text, ih]
        cases parse_text rest <;> rfl
      · rw [if_neg hmark, List.singleton_append]
        have hplain : parse_text (c :: (quote cs ++ rest)) = (parse_text (quote cs ++ rest)).map fun (text, rest) => (c :: text, rest) := by
          rw [parse_text]
          · exact hmark
          · exact fun _ hsame _ => hslash hsame
          · exact fun _ hsame _ => hslash hsame
          · exact fun _ hsame _ => hslash hsame
          · exact hslash
        rw [hplain, ih]
        cases parse_text rest <;> rfl

theorem parse_value_word (hvalue : IsWord value) : parse_value (' ' :: value.toList) = some value := by
  obtain ⟨hne, hchars⟩ := hvalue
  have hblank : ∀ c ∈ value.toList, is_blank c = false := fun c hc => (hchars c hc).1
  have hafter : (' ' :: value.toList).dropWhile is_blank = value.toList := by
    rw [List.dropWhile_cons_of_pos (by decide)]
    cases hcs : value.toList with
    | nil => rfl
    | cons c cs => exact List.dropWhile_cons_of_neg (by rw [hblank c (by rw [hcs]; exact .head _)]; exact Bool.false_ne_true)
  have htake : value.toList.takeWhile (!is_blank ·) = value.toList := List.takeWhile_eq_self_iff.mpr fun c hc => by rw [hblank c hc]; rfl
  have hdrop : value.toList.dropWhile (!is_blank ·) = [] := List.dropWhile_eq_nil_iff.mpr fun c hc => by rw [hblank c hc]; rfl
  rw [parse_value]
  simp only [hafter, htake, hdrop, String.ofList_toList]
  rw [if_pos]
  simpa [is_blank] using hne

theorem parse_labels_quote (hlabel : IsName label) (cs rest : List Char) (fuel : Nat) :
    parse_labels (fuel + 1) (label.toList ++ '=' :: '"' :: (quote cs ++ '"' :: '}' :: rest)) = some ([(label, String.ofList cs)], rest) := by
  rw [parse_labels, if_neg (hlabel.head_ne (by decide) _), parse_name_append hlabel (by decide)]
  simp only [parse_text_quote, parse_text, Option.map_some, List.append_nil, String.ofList_toList]

/-- A text that is not closed on its line makes no labels. -/
theorem parse_labels_open (hlabel : IsName label) (cs : List Char) (fuel : Nat) :
    parse_labels fuel (label.toList ++ '=' :: '"' :: quote cs) = none := by
  cases fuel with
  | zero => rfl
  | succ fuel =>
    have hopen : parse_text (quote cs) = none := by
      have hend := parse_text_quote cs []
      rwa [List.append_nil, parse_text, Option.map_none] at hend
    rw [parse_labels, if_neg (hlabel.head_ne (by decide) _), parse_name_append hlabel (by decide)]
    simp only [hopen]

theorem IsName.says_something (hname : IsName name) (rest : List Char) :
    ¬((name.toList ++ rest).isEmpty || (name.toList ++ rest).head? = some '#') = true := by
  have hmark := hname.head_ne (d := '#') (by decide) rest
  have hne : name.toList ++ rest ≠ [] := fun hnil => hname.1 (List.append_eq_nil_iff.mp hnil).1
  simp only [Bool.or_eq_true, List.isEmpty_iff, decide_eq_true_eq, not_or]
  exact ⟨hne, hmark⟩

theorem parse_line_labelled (hname : IsName name) (rest : List Char) :
    parse_line (name.toList ++ '{' :: rest) =
      (match parse_labels (rest.length + 1) rest with
        | none => none
        | some (labels, rest) => (parse_value rest).map (Sample.mk name labels)).map ([·]) := by
  rw [parse_line, if_neg (hname.says_something _), parse_sample, parse_name_append hname (by decide)]
  simp only [List.head?_cons, if_true, List.tail_cons, List.length_cons, String.ofList_toList]

theorem parse_line_plain (hname : IsName name) (hvalue : IsWord value) :
    parse_line (name.toList ++ ' ' :: value.toList) = some [⟨name, [], value⟩] := by
  have hbrace : (' ' :: value.toList).head? ≠ some '{' := by simp
  rw [parse_line, if_neg (hname.says_something _), parse_sample, parse_name_append hname (by decide)]
  simp only [if_neg hbrace, parse_value_word hvalue, Option.map_some, String.ofList_toList]

/-- A line with one label, whose text is quoted already. -/
def labelled (name label text value : String) : String := name ++ "\x7b" ++ label ++ "=\"" ++ text ++ "\"\x7d " ++ value

theorem labelled_toList (name label text value : String) :
    (labelled name label text value).toList =
      name.toList ++ '{' :: (label.toList ++ '=' :: '"' :: (text.toList ++ '"' :: '}' :: ' ' :: value.toList)) := by
  simp [labelled]

theorem IsName.unbroken (hname : IsName name) : '\n' ∉ name.toList := fun hbreak =>
  absurd (List.all_eq_true.mp hname.2.2 _ hbreak) (by decide)

theorem IsWord.unbroken (hvalue : IsWord value) : '\n' ∉ value.toList := fun hbreak => (hvalue.2 _ hbreak).2 rfl

theorem break_mem_quote : '\n' ∈ quote cs ↔ '\n' ∈ cs := by
  rw [quote, List.mem_flatMap]
  constructor
  · rintro ⟨c, hc, hbreak⟩
    split at hbreak
    · simp at hbreak
    · split at hbreak
      · simp at hbreak
      · obtain rfl := List.mem_singleton.mp hbreak
        exact hc
  · exact fun hbreak => ⟨'\n', hbreak, by simp⟩

theorem quote_eq_self (hcs : ∀ c ∈ cs, c ≠ '\\' ∧ c ≠ '"') : quote cs = cs := by
  induction cs with
  | nil => rfl
  | cons c cs ih =>
    obtain ⟨⟨hslash, hmark⟩, hcs⟩ := List.forall_mem_cons.mp hcs
    have hrest := ih hcs
    rw [quote] at hrest
    rw [quote, List.flatMap_cons, if_neg hslash, if_neg hmark, hrest, List.singleton_append]

theorem reads_line {line : String} (hline : '\n' ∉ line.toList) : reads [line] = parse_line line.toList := by
  rw [reads, List.flatMap_singleton, List.splitOn_eq_singleton hline, parse_lines]
  cases parse_line line.toList <;> simp [parse_lines]

theorem reads_comment {line : String} (hcomment : line.toList.head? = some '#') (hline : '\n' ∉ line.toList) : reads [line] = some [] := by
  rw [reads_line hline, parse_line, hcomment]
  simp

theorem reads_plain (hname : IsName name) (hvalue : IsWord value) : reads [name ++ " " ++ value] = some [⟨name, [], value⟩] := by
  have hchars : (name ++ " " ++ value).toList = name.toList ++ ' ' :: value.toList := by simp
  rw [reads_line, hchars, parse_line_plain hname hvalue]
  rw [hchars, List.mem_append, List.mem_cons]
  rintro (hbreak | hbreak | hbreak)
  · exact hname.unbroken hbreak
  · cases hbreak
  · exact hvalue.unbroken hbreak

/-- A line with a label is read, if its text has no line break. -/
theorem reads_labelled (hname : IsName name) (hlabel : IsName label) (hvalue : IsWord value) {shown text : String}
    (htext : text.toList = quote shown.toList) (hshown : '\n' ∉ shown.toList) :
    reads [labelled name label text value] = some [⟨name, [(label, shown)], value⟩] := by
  have hunbroken : '\n' ∉ (labelled name label text value).toList := by
    rw [labelled_toList, htext]
    simp only [List.mem_append, List.mem_cons, break_mem_quote, not_or]
    exact ⟨hname.unbroken, by decide, hlabel.unbroken, by decide, by decide, hshown, by decide, by decide, by decide, hvalue.unbroken⟩
  rw [reads_line hunbroken, labelled_toList, htext, parse_line_labelled hname, parse_labels_quote hlabel]
  simp only [parse_value_word hvalue, Option.map_some, String.ofList_toList]

/-- A line break in its text breaks it. -/
theorem reads_labelled_broken (hname : IsName name) (hlabel : IsName label) {shown text : String} (htext : text.toList = quote shown.toList)
    (hshown : '\n' ∈ shown.toList) : reads [labelled name label text value] = none := by
  obtain ⟨front, back, hsplit, hfront⟩ := List.eq_append_cons_of_mem hshown
  have hquote : quote shown.toList = quote front ++ '\n' :: quote back := by
    rw [hsplit, quote, List.flatMap_append, List.flatMap_cons]
    rfl
  have hchars : (labelled name label text value).toList =
      (name.toList ++ '{' :: (label.toList ++ '=' :: '"' :: quote front)) ++ '\n' :: (quote back ++ '"' :: '}' :: ' ' :: value.toList) := by
    rw [labelled_toList, htext, hquote]
    simp
  have hfirst : '\n' ∉ name.toList ++ '{' :: (label.toList ++ '=' :: '"' :: quote front) := by
    simp only [List.mem_append, List.mem_cons, break_mem_quote, not_or]
    exact ⟨hname.unbroken, by decide, hlabel.unbroken, by decide, by decide, hfront⟩
  rw [reads, List.flatMap_singleton, hchars, List.splitOn_append_cons_self, List.splitOn_eq_singleton hfirst, List.singleton_append,
    parse_lines, parse_line_labelled hname, parse_labels_open hlabel]
  rfl

end Series

end refract.machine.exposition
