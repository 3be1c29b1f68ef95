import Refract.Machine.Search
import Refract.Router.Execute

open refract.core refract.json refract.machine refract.router refract.stream

namespace refract.gateway

/-- The name of the field that a form names its model in. -/
def MARKER : Bytes := as_bytes "name=\"model\""

def CRLF : Bytes := [13, 10]

/-- The empty line at the end of a head. -/
def BLANK : Bytes := CRLF ++ CRLF

/-- What stands at a place is an attribute of its own: it is not the end of another
    one's name. -/
def attr_boundary (raw : Bytes) (abs : Nat) : Bool :=
  abs = 0 || (raw[abs - 1]?).any fun prev => prev = 59 || prev = 32 || prev = 9

/-- Where the model is named. Markers that are the end of another name are passed
    over. -/
def find_marker (raw : Bytes) : Nat → Nat → Option Nat
  | 0, _ => none
  | fuel + 1, search_from =>
    match position MARKER (raw.drop search_from) with
    | none => none
    | some marker_at =>
      let abs := search_from + marker_at
      if attr_boundary raw abs then some abs else find_marker raw fuel (abs + MARKER.length)

/-- The line after the first empty one. -/
def value_span (raw : Bytes) (marker_at : Nat) : Option (Nat × Nat) :=
  (position BLANK (raw.drop marker_at)).bind fun head_len =>
    let start := marker_at + (head_len + 4)
    (position CRLF (raw.drop start)).map fun len => (start, start + len)

def slice (raw : Bytes) (start stop : Nat) : Bytes := (raw.drop start).take (stop - start)

/-- Where the model's name stands. Every round of the search goes on. -/
def model_span (raw : Bytes) : Option (Nat × Nat) := (find_marker raw (raw.length + 1) 0).bind (value_span raw)

/-- The model that a form names. -/
def multipart_model (raw : Bytes) : Option String :=
  (model_span raw).bind fun span =>
    (from_utf8 (slice raw span.1 span.2)).toOption.bind fun value =>
      if (trim value).isEmpty then none else some (trim value)

section Search

variable {needle body raw : Bytes} {start stop i j : Nat}

theorem position_cons (needle : Bytes) (b : UInt8) (rest : Bytes) :
    position needle (b :: rest) = if needle.isPrefixOf (b :: rest) then some 0 else (position needle rest).map (· + 1) := rfl

/-- The first place of some bytes is found. -/
theorem position_eq_some_iff (hneedle : needle ≠ []) : position needle body = some i ↔ First (StandsAt needle body) 0 i := by
  induction body generalizing i with
  | nil =>
    refine iff_of_false nofun fun h => hneedle ?_
    have hstands := h.holds
    rw [StandsAt, List.drop_nil] at hstands
    exact List.prefix_nil.mp hstands
  | cons b rest ih =>
    have hnext : ∀ j, StandsAt needle (b :: rest) (j + 1) ↔ StandsAt needle rest j := fun j => Iff.rfl
    rw [position_cons]
    by_cases hstands : needle <+: b :: rest
    · rw [if_pos (List.isPrefixOf_iff_prefix.mpr hstands)]
      have hfirst : First (StandsAt needle (b :: rest)) 0 0 := ⟨hstands, Nat.le_refl 0, fun j _ hlt => absurd hlt (by omega)⟩
      exact ⟨fun h => Option.some.inj h ▸ hfirst, fun h => congrArg some (hfirst.unique h)⟩
    · rw [if_neg fun h => hstands (List.isPrefixOf_iff_prefix.mp h), Option.map_eq_some_iff]
      constructor
      · rintro ⟨j, hj, rfl⟩
        have hfirst := ih.mp hj
        refine ⟨(hnext j).mpr hfirst.holds, Nat.zero_le _, fun k _ hlt => ?_⟩
        cases k with
        | zero => exact hstands
        | succ k => exact fun h => hfirst.before k (Nat.zero_le k) (by omega) ((hnext k).mp h)
      · intro h
        cases i with
        | zero => exact absurd h.holds hstands
        | succ i =>
          refine ⟨i, ih.mpr ⟨(hnext i).mp h.holds, Nat.zero_le i, fun k _ hlt => ?_⟩, rfl⟩
          exact fun hk => h.before (k + 1) (Nat.zero_le _) (by omega) ((hnext k).mpr hk)

theorem position_drop_eq_some_iff (hneedle : needle ≠ []) :
    position needle (body.drop start) = some i ↔ First (StandsAt needle body) start (start + i) := by
  have hshift : ∀ k, StandsAt needle (body.drop start) k ↔ StandsAt needle body (start + k) := fun k => by
    rw [StandsAt, StandsAt, List.drop_drop]
  rw [position_eq_some_iff hneedle]
  constructor
  · intro h
    refine ⟨(hshift i).mp h.holds, by omega, fun j hj hlt => ?_⟩
    obtain ⟨k, rfl⟩ := Nat.exists_eq_add_of_le hj
    exact fun hk => h.before k (Nat.zero_le k) (by omega) ((hshift k).mpr hk)
  · intro h
    refine ⟨(hshift i).mpr h.holds, Nat.zero_le i, fun k _ hlt => ?_⟩
    exact fun hk => h.before (start + k) (by omega) (by omega) ((hshift k).mp hk)

theorem position_drop_eq_none_iff (hneedle : needle ≠ []) :
    position needle (body.drop start) = none ↔ ∀ j, start ≤ j → ¬StandsAt needle body j := by
  constructor
  · intro h j hj hstands
    obtain ⟨i, hfirst, -⟩ := exists_first hj hstands
    obtain ⟨k, rfl⟩ := Nat.exists_eq_add_of_le hfirst.start_le
    rw [(position_drop_eq_some_iff hneedle).mpr hfirst] at h
    cases h
  · intro h
    cases hposition : position needle (body.drop start) with
    | none => rfl
    | some i =>
      have hfirst := (position_drop_eq_some_iff hneedle).mp hposition
      exact absurd hfirst.holds (h _ hfirst.start_le)

end Search

/-- A marker that is an attribute of its own. -/
def Names (raw : Bytes) (i : Nat) : Prop := StandsAt MARKER raw i ∧ attr_boundary raw i = true

/-- The line between the first empty line after a place and the end of the line. -/
structure FieldAt (raw : Bytes) (marker_at start stop : Nat) : Prop where
  head : ∃ blank, First (StandsAt BLANK raw) marker_at blank ∧ start = blank + 4
  line : First (StandsAt CRLF raw) start stop

section Scan

variable {raw : Bytes} {marker_at start stop : Nat}

theorem marker_eq : MARKER = [110, 97, 109, 101, 61, 34, 109, 111, 100, 101, 108, 34] := by decide +kernel

theorem marker_length : MARKER.length = 12 := by rw [marker_eq]; rfl

theorem marker_ne_nil : MARKER ≠ [] := by rw [marker_eq]; exact List.cons_ne_nil _ _

theorem crlf_ne_nil : CRLF ≠ [] := List.cons_ne_nil _ _

theorem blank_ne_nil : BLANK ≠ [] := List.cons_ne_nil _ _

/-- A marker does not begin within another one. -/
theorem marker_apart {i j : Nat} (hi : StandsAt MARKER raw i) (hj : StandsAt MARKER raw j) (hlt : i < j) : i + MARKER.length ≤ j := by
  by_contra hle
  have hbyte := hj.getElem? (show 0 < MARKER.length by rw [marker_length]; decide)
  have hsame := hi.getElem? (show j - i < MARKER.length by omega)
  rw [show i + (j - i) = j + 0 by omega, hbyte] at hsame
  have hnone : ∀ k < 12, 0 < k → MARKER[0]? ≠ MARKER[k]? := by rw [marker_eq]; decide
  rw [marker_length] at hle
  exact hnone (j - i) (by omega) (by omega) hsame

/-- The search finds the first attribute. -/
theorem find_marker_eq_some_iff {fuel search_from j : Nat} (hfuel : raw.length < search_from + fuel) :
    find_marker raw fuel search_from = some j ↔ First (Names raw) search_from j := by
  induction fuel generalizing search_from with
  | zero =>
    refine iff_of_false nofun fun h => ?_
    have hle := h.holds.1.length_le marker_ne_nil
    have := h.start_le
    omega
  | succ fuel ih =>
    rw [find_marker]
    split
    next hnone =>
      have habsent := (position_drop_eq_none_iff marker_ne_nil).mp hnone
      exact iff_of_false nofun fun h => habsent j h.start_le h.holds.1
    next at_ hposition =>
      have hfirst := (position_drop_eq_some_iff marker_ne_nil).mp hposition
      by_cases hboundary : attr_boundary raw (search_from + at_) = true
      · rw [if_pos hboundary]
        have hnames : First (Names raw) search_from (search_from + at_) :=
          ⟨⟨hfirst.holds, hboundary⟩, by omega, fun k hk hlt h => hfirst.before k hk hlt h.1⟩
        exact ⟨fun h => Option.some.inj h ▸ hnames, fun h => congrArg some (hnames.unique h)⟩
      · have hlength := marker_length
        rw [if_neg hboundary, ih (by omega)]
        refine (first_iff_of_skip (by omega) fun k hk hlt h => ?_).symm
        -- No marker stands before the one that is passed over, and none within it.
        rcases Nat.lt_trichotomy k (search_from + at_) with hbefore | rfl | hafter
        · exact hfirst.before k hk hbefore h.1
        · exact hboundary h.2
        · have := marker_apart hfirst.holds h.1 hafter
          omega

theorem value_span_eq_some_iff : value_span raw marker_at = some (start, stop) ↔ FieldAt raw marker_at start stop := by
  rw [value_span, Option.bind_eq_some_iff]
  constructor
  · rintro ⟨head_len, hhead, hline⟩
    obtain ⟨len, hlen, hspan⟩ := Option.map_eq_some_iff.mp hline
    obtain ⟨rfl, rfl⟩ := Prod.mk.inj hspan
    exact ⟨⟨_, (position_drop_eq_some_iff blank_ne_nil).mp hhead, by omega⟩, (position_drop_eq_some_iff crlf_ne_nil).mp hlen⟩
  · rintro ⟨⟨blank, hblank, rfl⟩, hline⟩
    obtain ⟨head_len, rfl⟩ := Nat.exists_eq_add_of_le hblank.start_le
    obtain ⟨len, rfl⟩ := Nat.exists_eq_add_of_le hline.start_le
    have hlen : position CRLF (raw.drop (marker_at + (head_len + 4))) = some len := (position_drop_eq_some_iff crlf_ne_nil).mpr hline
    refine ⟨head_len, (position_drop_eq_some_iff blank_ne_nil).mpr hblank, ?_⟩
    dsimp only
    rw [hlen]
    rfl

theorem model_span_eq_some_iff :
    model_span raw = some (start, stop) ↔ ∃ marker_at, First (Names raw) 0 marker_at ∧ FieldAt raw marker_at start stop := by
  rw [model_span, Option.bind_eq_some_iff]
  refine exists_congr fun marker_at => and_congr ?_ value_span_eq_some_iff
  exact find_marker_eq_some_iff (by omega)

theorem from_utf8_eq_ok_iff {bytes : Bytes} {text : String} : from_utf8 bytes = .ok text ↔ bytes = as_bytes text := by
  constructor
  · intro h
    unfold from_utf8 at h
    split at h
    next s hs =>
      obtain rfl := Except.ok.inj h
      unfold String.fromUTF8? at hs
      split at hs
      · obtain rfl := Option.some.inj hs
        rfl
      · cases hs
    · cases h
  · rintro rfl
    exact from_utf8_as_bytes text

/-- What is read of a form. -/
theorem multipart_model_eq_some_iff {model : String} :
    multipart_model raw = some model ↔ ∃ start stop value, model_span raw = some (start, stop) ∧
      slice raw start stop = as_bytes value ∧ trim value = model ∧ model ≠ "" := by
  rw [multipart_model, Option.bind_eq_some_iff]
  constructor
  · rintro ⟨⟨start, stop⟩, hspan, h⟩
    obtain ⟨value, hvalue, h⟩ := Option.bind_eq_some_iff.mp h
    split at h
    · cases h
    next hempty =>
      refine ⟨start, stop, value, hspan, ?_, Option.some.inj h, ?_⟩
      · refine from_utf8_eq_ok_iff.mp ?_
        cases hread : from_utf8 (slice raw start stop) with
        | error => rw [hread] at hvalue; cases hvalue
        | ok text => rw [hread] at hvalue; rw [Option.some.inj hvalue]
      · rintro rfl
        exact hempty (by rw [Option.some.inj h]; rfl)
  · rintro ⟨start, stop, value, hspan, hvalue, rfl, hempty⟩
    refine ⟨(start, stop), hspan, Option.bind_eq_some_iff.mpr ⟨value, ?_, ?_⟩⟩
    · rw [from_utf8_eq_ok_iff.mpr hvalue]
      rfl
    · exact if_neg fun h => hempty (String.isEmpty_iff.mp h)

/-- What is rewritten of a form. -/
theorem rewrite_multipart_model_eq_some_iff {upstream_model : String} {rewritten : Bytes} :
    rewrite_multipart_model raw upstream_model = some rewritten ↔ ∃ marker_at start stop,
      First (StandsAt MARKER raw) 0 marker_at ∧ FieldAt raw marker_at start stop ∧
      rewritten = raw.take start ++ as_bytes upstream_model ++ raw.drop stop := by
  have hspan : rewrite_multipart_model raw upstream_model = (position MARKER raw).bind fun marker_at =>
      (value_span raw marker_at).map fun span => raw.take span.1 ++ as_bytes upstream_model ++ raw.drop span.2 := by
    unfold rewrite_multipart_model value_span
    change (position MARKER raw).bind _ = _
    refine congrArg _ (funext fun marker_at => ?_)
    change (position BLANK (raw.drop marker_at)).bind _ = _
    cases position BLANK (raw.drop marker_at) with
    | none => rfl
    | some head_len =>
      change (position CRLF _).bind _ = _
      dsimp only [Option.bind_some]
      cases position CRLF (raw.drop (marker_at + (head_len + 4))) <;> rfl
  rw [hspan, Option.bind_eq_some_iff]
  refine exists_congr fun marker_at => ?_
  rw [position_eq_some_iff marker_ne_nil, Option.map_eq_some_iff, Prod.exists]
  constructor
  · rintro ⟨hfirst, start, stop, hfield, rfl⟩
    exact ⟨start, stop, hfirst, value_span_eq_some_iff.mp hfield, rfl⟩
  · rintro ⟨start, stop, hfirst, hfield, rfl⟩
    exact ⟨hfirst, start, stop, value_span_eq_some_iff.mpr hfield, rfl⟩

end Scan

/-- A name as a form can give it: one line, without white space around it. -/
structure Name (name : String) : Prop where
  line : ∀ i, ¬StandsAt CRLF (as_bytes name) i
  trimmed : trim name = name
  nonempty : name ≠ ""

section Lines

variable {raw line other : Bytes} {start stop : Nat}

/-- A line ends where its end first stands. -/
theorem first_line (hline : ∀ i, ¬StandsAt CRLF line i) (rest : Bytes) :
    First (StandsAt CRLF (line ++ (CRLF ++ rest))) 0 line.length where
  holds := (standsAt_append_right (i := 0)).mpr (List.prefix_append CRLF rest)
  start_le := Nat.zero_le _
  before i _ hlt h := by
    by_cases hwithin : i + CRLF.length ≤ line.length
    · exact hline i ((standsAt_append_left hwithin).mp h)
    · -- The last byte of the line would be followed by a line feed.
      have hlength : CRLF.length = 2 := rfl
      have hbyte := h.getElem? (show 1 < CRLF.length by decide)
      rw [show i + 1 = line.length by omega, List.getElem?_append_right (Nat.le_refl _), Nat.sub_self] at hbyte
      cases hbyte

/-- Lines are told apart by their ends. -/
theorem line_unique (hline : ∀ i, ¬StandsAt CRLF line i) (hother : ∀ i, ¬StandsAt CRLF other i) {rest rest' : Bytes}
    (h : line ++ (CRLF ++ rest) = other ++ (CRLF ++ rest')) : line = other ∧ rest = rest' := by
  have hfirst := first_line hline rest
  rw [h] at hfirst
  obtain ⟨hsame, hrest⟩ := List.append_inj h (hfirst.unique (first_line hother rest'))
  exact ⟨hsame, List.append_cancel_left hrest⟩

/-- The bytes around a slice. -/
theorem slice_append_drop (hle : start ≤ stop) : slice raw start stop ++ raw.drop stop = raw.drop start := by
  have hdrop : raw.drop stop = (raw.drop start).drop (stop - start) := by rw [List.drop_drop, Nat.add_sub_cancel' hle]
  rw [slice, hdrop, List.take_append_drop]

theorem take_append_slice (hle : start ≤ stop) : raw.take start ++ slice raw start stop = raw.take stop := by
  rw [slice, ← List.take_add, Nat.add_sub_cancel' hle]

/-- A line holds no end of a line. -/
theorem slice_line (h : First (StandsAt CRLF raw) start stop) (i : Nat) : ¬StandsAt CRLF (slice raw start stop) i := by
  intro hstands
  have hlength : CRLF.length = 2 := rfl
  have hle := hstands.length_le crlf_ne_nil
  have hslice : (slice raw start stop).length ≤ stop - start := List.length_take_le _ _
  have htake : (slice raw start stop).take (stop - start) = (raw.drop start).take (stop - start) := by
    rw [slice, List.take_take, Nat.min_self]
  have hcongr := (standsAt_congr htake (by omega)).mp hstands
  rw [StandsAt, List.drop_drop] at hcongr
  exact h.before (start + i) (by omega) (by omega) hcongr

/-- What ends a line stands after it. -/
theorem drop_stop (h : First (StandsAt CRLF raw) start stop) : raw.drop stop = CRLF ++ raw.drop (stop + 2) := by
  obtain ⟨rest, hrest⟩ := h.holds
  rw [← List.drop_drop, ← hrest]
  rfl

theorem slice_stop (h : First (StandsAt CRLF raw) start stop) : slice raw stop (stop + 2) = CRLF := by
  rw [slice, drop_stop h, Nat.add_sub_cancel_left]
  rfl

/-- Where a line was put in after another one, that one was not put in. -/
theorem drop_of_rewritten {name rewritten : Bytes} {place : Nat} (h : First (StandsAt CRLF raw) start stop)
    (hname : ∀ i, ¬StandsAt CRLF name i) (hplace : stop + 2 ≤ place)
    (hsame : raw.take start ++ name ++ raw.drop stop = raw.take place ++ rewritten) : rewritten = raw.drop place := by
  have hbetween : raw.take place = raw.take start ++ (slice raw start stop ++ (CRLF ++ slice raw (stop + 2) place)) := by
    have hline : raw.take stop ++ slice raw stop (stop + 2) = raw.take (stop + 2) := take_append_slice (by omega)
    rw [← take_append_slice hplace, ← hline, ← take_append_slice h.start_le, slice_stop h, List.append_assoc, List.append_assoc]
  rw [hbetween, drop_stop h, List.append_assoc, List.append_assoc, List.append_assoc, List.append_assoc] at hsame
  obtain ⟨-, htail⟩ := line_unique hname (slice_line h) (List.append_cancel_left hsame)
  rw [← slice_append_drop hplace] at htail
  exact (List.append_cancel_left htail).symm

end Lines

section Names

/-- A text around its trimming. -/
theorem exists_of_trim (s : String) : ∃ left right, s = left ++ trim s ++ right := by
  have hfront : s.toList = s.toList.takeWhile is_whitespace ++ s.toList.dropWhile is_whitespace :=
    List.takeWhile_append_dropWhile.symm
  have hback := congrArg List.reverse
    (List.takeWhile_append_dropWhile (p := is_whitespace) (l := (s.toList.dropWhile is_whitespace).reverse)).symm
  rw [List.reverse_reverse, List.reverse_append] at hback
  refine ⟨String.ofList (s.toList.takeWhile is_whitespace),
    String.ofList ((s.toList.dropWhile is_whitespace).reverse.takeWhile is_whitespace).reverse, ?_⟩
  rw [← String.toList_inj, String.toList_append, String.toList_append, trim, String.toList_ofList, String.toList_ofList,
    String.toList_ofList, trimChars, List.append_assoc, ← hback]
  exact hfront

variable {raw : Bytes} {start stop : Nat} {model : String}

/-- What is read of a form is a name. -/
theorem name_of_multipart_model (h : multipart_model raw = some model) : Name model := by
  obtain ⟨start, stop, value, hspan, hvalue, rfl, hempty⟩ := multipart_model_eq_some_iff.mp h
  obtain ⟨marker_at, -, hfield⟩ := model_span_eq_some_iff.mp hspan
  refine ⟨fun i hstands => ?_, trim_trim value, hempty⟩
  obtain ⟨left, right, hvalue'⟩ := exists_of_trim value
  have hline := slice_line hfield.line ((as_bytes left).length + i)
  rw [hvalue, hvalue', as_bytes_append, as_bytes_append, List.append_assoc, standsAt_append_right] at hline
  exact hline ((standsAt_append_left (hstands.length_le crlf_ne_nil)).mpr hstands)

/-- A marker stands before the empty line that ends its head. -/
theorem marker_before_blank {marker_at blank : Nat} (hmarker : StandsAt MARKER raw marker_at)
    (hblank : First (StandsAt BLANK raw) marker_at blank) : marker_at + MARKER.length ≤ blank :=
  hmarker.disjoint hblank.holds (by rw [marker_eq]; decide) (by decide) hblank.start_le

theorem attr_boundary_congr {other : Bytes} {i : Nat} (hsame : raw.take start = other.take start) (hi : i ≤ start) :
    attr_boundary raw i = attr_boundary other i := by
  by_cases hzero : i = 0
  · simp [attr_boundary, hzero]
  · have hget := congrArg (·[i - 1]?) hsame
    simp only [List.getElem?_take, if_pos (show i - 1 < start by omega)] at hget
    rw [attr_boundary, attr_boundary, hget]

/-- A name that is put in for what is read is read then. -/
theorem multipart_model_rewritten (hspan : model_span raw = some (start, stop)) {name : String} (hname : Name name) (rest : Bytes) :
    multipart_model (raw.take start ++ (as_bytes name ++ (CRLF ++ rest))) = some name := by
  obtain ⟨marker_at, hnames, ⟨blank, hblank, rfl⟩, hline⟩ := model_span_eq_some_iff.mp hspan
  have hmarker := marker_before_blank hnames.holds.1 hblank
  have hlength : (raw.take (blank + 4)).length = blank + 4 := by
    have := hline.holds.length_le crlf_ne_nil
    have := hline.start_le
    rw [List.length_take]
    omega
  generalize hresult : raw.take (blank + 4) ++ (as_bytes name ++ (CRLF ++ rest)) = result
  have hsame : raw.take (blank + 4) = result.take (blank + 4) := by
    rw [← hresult, List.take_left' hlength]
  have hfirst : First (StandsAt CRLF (raw.take (blank + 4) ++ (as_bytes name ++ (CRLF ++ rest)))) _ _ :=
    (first_line hname.line rest).append_right
  rw [hresult, hlength] at hfirst
  refine multipart_model_eq_some_iff.mpr ⟨blank + 4, _, name, model_span_eq_some_iff.mpr ⟨marker_at, ?_, ⟨blank, ?_, rfl⟩, hfirst⟩,
    ?_, hname.trimmed, hname.nonempty⟩
  · refine hnames.congr fun j hj => ?_
    rw [Names, Names, standsAt_congr hsame (by omega), attr_boundary_congr hsame (by omega)]
  · have hblank_length : BLANK.length = 4 := rfl
    exact hblank.congr fun j hj => standsAt_congr hsame (by omega)
  · rw [slice, ← hresult, List.drop_left' hlength, Nat.add_sub_cancel_left, List.take_left]

end Names

/-- A form is passed on with another model in the place of the one that was read,
    and with nothing else changed. -/
def Replaced (raw : Bytes) (model upstream_model : String) (result : Bytes) : Prop :=
  ∃ start stop left right, model_span raw = some (start, stop) ∧ slice raw start stop = left ++ as_bytes model ++ right ∧
    result = raw.take start ++ (left ++ as_bytes upstream_model ++ right) ++ raw.drop stop ∧
    multipart_model result = some upstream_model

/-- No empty line comes between a marker and the first attribute, and the line that
    the attribute names has no white space around it. -/
structure Direct (raw : Bytes) : Prop where
  aligned : ∀ i j k, StandsAt MARKER raw i → First (Names raw) 0 j → i ≤ k → k < j → ¬StandsAt BLANK raw k
  bare : ∀ j start stop value, First (Names raw) 0 j → FieldAt raw j start stop → slice raw start stop = as_bytes value →
    trim value = value

section Forms

variable {raw : Bytes} {marker_at start stop : Nat} {model upstream_model : String}

theorem field_unique {start' stop' : Nat} (h : FieldAt raw marker_at start stop) (h' : FieldAt raw marker_at start' stop') :
    start = start' ∧ stop = stop' := by
  obtain ⟨⟨blank, hblank, rfl⟩, hline⟩ := h
  obtain ⟨⟨blank', hblank', rfl⟩, hline'⟩ := h'
  obtain rfl := hblank.unique hblank'
  exact ⟨rfl, hline.unique hline'⟩

theorem as_bytes_inj {s t : String} (h : as_bytes s = as_bytes t) : s = t := by
  have hread := from_utf8_as_bytes s
  rw [h, from_utf8_as_bytes] at hread
  exact (Except.ok.inj hread).symm

/-- The line after the first marker is rewritten. -/
theorem rewrite_of_first {blank finish : Nat} (hfirst : First (StandsAt MARKER raw) 0 marker_at)
    (hblank : First (StandsAt BLANK raw) marker_at blank) (hend : StandsAt CRLF raw finish) (hle : blank + 4 ≤ finish)
    (upstream_model : String) :
    ∃ stop, stop ≤ finish ∧ FieldAt raw marker_at (blank + 4) stop ∧
      rewrite_multipart_model raw upstream_model = some (raw.take (blank + 4) ++ as_bytes upstream_model ++ raw.drop stop) := by
  obtain ⟨stop, hline, hstop⟩ := exists_first hle hend
  have hfield : FieldAt raw marker_at (blank + 4) stop := ⟨⟨blank, hblank, rfl⟩, hline⟩
  exact ⟨stop, hstop, hfield, rewrite_multipart_model_eq_some_iff.mpr ⟨_, _, _, hfirst, hfield, rfl⟩⟩

/-- The first marker is rewritten, whose line is the one that is read or an
    earlier one. -/
theorem rewrite_spec {named_at : Nat} (hnames : First (Names raw) 0 named_at) (hfield : FieldAt raw named_at start stop)
    (upstream_model : String) :
    ∃ marker_at start' stop', First (StandsAt MARKER raw) 0 marker_at ∧ marker_at ≤ named_at ∧ FieldAt raw marker_at start' stop' ∧
      rewrite_multipart_model raw upstream_model = some (raw.take start' ++ as_bytes upstream_model ++ raw.drop stop') ∧
      ((∀ k, marker_at ≤ k → k < named_at → ¬StandsAt BLANK raw k) ∧ start' = start ∧ stop' = stop ∨
        (∃ k, marker_at ≤ k ∧ k < named_at ∧ StandsAt BLANK raw k) ∧ stop' + 2 ≤ start) := by
  obtain ⟨marker_at, hfirst, hle⟩ := exists_first (Nat.zero_le named_at) hnames.holds.1
  obtain ⟨⟨blank, hblank, rfl⟩, hline⟩ := hfield
  obtain ⟨blank', hblank', hearly⟩ := exists_first (hle.trans hblank.start_le) hblank.holds
  by_cases haligned : named_at ≤ blank'
  · obtain rfl := (hblank'.later hle haligned).unique hblank
    have hfield : FieldAt raw marker_at (blank' + 4) stop := ⟨⟨blank', hblank', rfl⟩, hline⟩
    refine ⟨marker_at, _, _, hfirst, hle, hfield, rewrite_multipart_model_eq_some_iff.mpr ⟨_, _, _, hfirst, hfield, rfl⟩, .inl ⟨?_, rfl, rfl⟩⟩
    exact fun k hk hlt => hblank'.before k hk (by omega)
  · -- The empty line is before the attribute, and so is the line after it.
    have hapart : blank' + BLANK.length ≤ named_at :=
      hblank'.holds.disjoint hnames.holds.1 (by rw [marker_eq]; decide) (by rw [marker_eq]; decide) (by omega)
    have hlength : BLANK.length = 4 := rfl
    have hnamed_at := marker_before_blank hnames.holds.1 hblank
    have hend : StandsAt CRLF raw blank := (List.prefix_append CRLF CRLF).trans hblank.holds
    obtain ⟨stop', hstop, hfield', hrewrite⟩ := rewrite_of_first hfirst hblank' hend (by omega) upstream_model
    exact ⟨marker_at, _, _, hfirst, hle, hfield', hrewrite, .inr ⟨⟨blank', hblank'.start_le, by omega, hblank'.holds⟩, by omega⟩⟩

theorem prepare_multipart_body_of_ne {candidate : Candidate} {route : Route} {rewritten : Bytes}
    (hne : candidate.upstream_model ≠ route.model) (h : rewrite_multipart_model raw candidate.upstream_model = some rewritten) :
    prepare_multipart_body candidate route raw = .raw rewritten := by
  rw [prepare_multipart_body, if_neg hne, h]
  rfl

/-- When the model of a form is replaced, and nothing else. -/
theorem replaced_iff {candidate : Candidate} {route : Route} (hfound : multipart_model raw = some route.model) :
    ∃ result, prepare_multipart_body candidate route raw = .raw result ∧
      (Replaced raw route.model candidate.upstream_model result ↔
        candidate.upstream_model = route.model ∨ Name candidate.upstream_model ∧ Direct raw) := by
  obtain ⟨start, stop, value, hspan, hvalue, htrim, hempty⟩ := multipart_model_eq_some_iff.mp hfound
  obtain ⟨named_at, hnames, hfield⟩ := model_span_eq_some_iff.mp hspan
  have hle := hfield.line.start_le
  by_cases hsame : candidate.upstream_model = route.model
  · refine ⟨raw, by rw [prepare_multipart_body, if_pos hsame], iff_of_true ?_ (.inl hsame)⟩
    obtain ⟨left, right, hvalue'⟩ := exists_of_trim value
    rw [htrim] at hvalue'
    have hbytes : slice raw start stop = as_bytes left ++ as_bytes route.model ++ as_bytes right := by
      rw [hvalue, ← as_bytes_append, ← as_bytes_append, ← hvalue']
    refine ⟨start, stop, _, _, hspan, hbytes, ?_, hsame ▸ hfound⟩
    rw [hsame, ← hbytes, take_append_slice hle, List.take_append_drop]
  · obtain ⟨marker_at, start', stop', hfirst, hmarker, hfield', hrewrite, hcases⟩ := rewrite_spec hnames hfield candidate.upstream_model
    refine ⟨_, prepare_multipart_body_of_ne hsame hrewrite, ?_⟩
    constructor
    · rintro ⟨start'', stop'', left, right, hspan', hslice, hresult, hread⟩
      obtain ⟨rfl, rfl⟩ := Prod.mk.inj (Option.some.inj (hspan.symm.trans hspan'))
      have hname := name_of_multipart_model hread
      rcases hcases with ⟨haligned, rfl, rfl⟩ | ⟨-, hearly⟩
      · -- The line is the one that was read: nothing can have stood around its name.
        have hlengths := congrArg List.length hresult
        simp only [List.length_append] at hlengths
        obtain rfl : left = [] := List.length_eq_zero_iff.mp (by omega)
        obtain rfl : right = [] := List.length_eq_zero_iff.mp (by omega)
        refine .inr ⟨hname, fun i j k hi hj hik hkj => ?_, fun j first last text hj hat htext => ?_⟩
        · obtain rfl := hj.unique hnames
          refine haligned k (Nat.le_trans ?_ hik) hkj
          by_contra hlt
          exact hfirst.before i (Nat.zero_le i) (by omega) hi
        · obtain rfl := hj.unique hnames
          obtain ⟨rfl, rfl⟩ := field_unique hat hfield
          rw [hslice, List.nil_append, List.append_nil] at htext
          rw [← as_bytes_inj htext, ← htrim, trim_trim]
      · -- An earlier line was rewritten: the one that was read is as it was.
        rw [List.append_assoc (raw.take start)] at hresult
        have hdrop := drop_of_rewritten hfield'.line hname.line hearly hresult
        rw [← slice_append_drop hle, hslice] at hdrop
        exact absurd (as_bytes_inj (List.append_cancel_left (List.append_cancel_right (List.append_cancel_right hdrop)))) hsame
    · rintro (h | ⟨hname, hplain⟩)
      · exact absurd h hsame
      · rcases hcases with ⟨-, rfl, rfl⟩ | ⟨⟨k, hk, hlt, hstands⟩, -⟩
        · have hbare : value = route.model := by
            rw [← htrim]
            exact (hplain.bare _ _ _ _ hnames hfield hvalue).symm
          refine ⟨_, _, [], [], hspan, ?_, ?_, ?_⟩
          · rw [hvalue, hbare, List.nil_append, List.append_nil]
          · rw [List.nil_append, List.append_nil]
          · rw [drop_stop hfield.line, List.append_assoc]
            exact multipart_model_rewritten hspan hname _
        · exact absurd hstands (hplain.aligned _ _ k hfirst.holds hnames hk hlt)

end Forms

/-- A part of a form: its head, and what it holds. -/
structure Part where
  head : Bytes
  content : Bytes

def delimiter (boundary : Bytes) : Bytes := as_bytes "--" ++ boundary

def Part.bytes (boundary : Bytes) (self : Part) : Bytes :=
  delimiter boundary ++ CRLF ++ self.head ++ BLANK ++ self.content ++ CRLF

/-- A form with a field for the model. The other parts may hold anything. -/
structure Form where
  boundary : Bytes
  before : List Part
  /-- The head of the field up to its name, and from there on. -/
  disposition : Bytes
  attributes : Bytes
  after : List Part
  separated : disposition.getLast? ∈ [some 59, some 32, some 9]
  ends : ∀ i, StandsAt BLANK (MARKER ++ attributes ++ BLANK) i → i = (MARKER ++ attributes).length

namespace Form

variable (form : Form)

def lead : Bytes := form.before.flatMap (Part.bytes form.boundary) ++ delimiter form.boundary ++ CRLF ++ form.disposition

/-- The form up to the model's name. -/
def opening : Bytes := form.lead ++ (MARKER ++ form.attributes ++ BLANK)

def closing : Bytes := form.after.flatMap (Part.bytes form.boundary) ++ delimiter form.boundary ++ as_bytes "--" ++ CRLF

/-- The form with a model. -/
def bytes (model : String) : Bytes := form.opening ++ (as_bytes model ++ (CRLF ++ form.closing))

/-- The model of the form is read, and another one put in its place. -/
def Served (model upstream_model : String) : Prop :=
  multipart_model (form.bytes model) = some model ∧
    rewrite_multipart_model (form.bytes model) upstream_model = some (form.bytes upstream_model) ∧
    multipart_model (form.bytes upstream_model) = some upstream_model

/-- No empty line comes after a marker but the one before the model. -/
def Clear : Prop :=
  ∀ i k, StandsAt MARKER form.opening i → i ≤ k → k + BLANK.length < form.opening.length → ¬StandsAt BLANK form.opening k

end Form

section Fields

variable {form : Form} {model upstream_model : String}

theorem opening_length : form.opening.length = form.lead.length + (MARKER ++ form.attributes).length + BLANK.length := by
  rw [Form.opening, List.length_append, @List.length_append _ (MARKER ++ form.attributes), Nat.add_assoc]

theorem opening_marker : StandsAt MARKER form.opening form.lead.length := by
  refine (standsAt_append_right (i := 0)).mpr ?_
  exact (List.prefix_append MARKER _).trans (List.prefix_append _ BLANK)

theorem opening_blank : StandsAt BLANK form.opening (form.lead.length + (MARKER ++ form.attributes).length) :=
  standsAt_append_right.mpr ((standsAt_append_right (i := 0)).mpr (List.prefix_refl BLANK))

/-- The head of the field has no empty line before its end. -/
theorem opening_ends {k : Nat} (hk : StandsAt BLANK form.opening k) (hle : form.lead.length ≤ k) :
    k = form.lead.length + (MARKER ++ form.attributes).length := by
  obtain ⟨i, rfl⟩ := Nat.exists_eq_add_of_le hle
  exact congrArg _ (form.ends i (standsAt_append_right.mp hk))

/-- The name of the field is an attribute of its own. -/
theorem bytes_names : Names (form.bytes model) form.lead.length := by
  have hlength := @opening_length form
  refine ⟨(standsAt_append_left ?_).mpr opening_marker, ?_⟩
  · rw [List.length_append] at hlength
    omega
  · have hlast := form.separated
    have hne : form.disposition ≠ [] := by
      rintro hnil
      rw [hnil] at hlast
      simp at hlast
    have hget : (form.bytes model)[form.lead.length - 1]? = form.disposition.getLast? := by
      rw [Form.bytes, Form.opening, List.append_assoc, List.getElem?_append_left, ← List.getLast?_eq_getElem?, Form.lead, List.getLast?_append,
        List.getLast?_eq_some_getLast hne]
      · rfl
      · have := List.length_pos_iff.mpr hne
        rw [Form.lead, List.length_append]
        omega
    rw [attr_boundary, hget]
    simp only [List.mem_cons, List.not_mem_nil, or_false] at hlast
    rcases hlast with h | h | h <;> simp [h]

theorem take_opening : (form.bytes model).take form.opening.length = form.opening := List.take_left

theorem drop_opening : (form.bytes model).drop form.opening.length = as_bytes model ++ (CRLF ++ form.closing) := List.drop_left

/-- Without an empty line in between, every marker leads to the model. -/
theorem fieldAt_of_clear (hclear : form.Clear) (hname : Name model) {marker_at : Nat} (hmarker : StandsAt MARKER (form.bytes model) marker_at)
    (hle : marker_at ≤ form.lead.length) :
    FieldAt (form.bytes model) marker_at form.opening.length (form.opening.length + (as_bytes model).length) := by
  have hlength := @opening_length form
  have hblank : BLANK.length = 4 := rfl
  refine ⟨⟨_, ⟨(standsAt_append_left (by omega)).mpr opening_blank, by omega, fun j hj hlt hstands => ?_⟩, hlength⟩,
    (first_line hname.line _).append_right⟩
  rw [List.length_append] at hlength hlt
  refine hclear marker_at j ((standsAt_append_left (by omega)).mp hmarker) hj (by omega) ((standsAt_append_left (by omega)).mp hstands)

theorem multipart_model_of_clear (hclear : form.Clear) (hname : Name model) : multipart_model (form.bytes model) = some model := by
  obtain ⟨named_at, hnames, hle⟩ := exists_first (Nat.zero_le _) (@bytes_names form model)
  have hfield := fieldAt_of_clear hclear hname hnames.holds.1 hle
  refine multipart_model_eq_some_iff.mpr ⟨_, _, model, model_span_eq_some_iff.mpr ⟨named_at, hnames, hfield⟩, ?_, hname.trimmed, hname.nonempty⟩
  rw [slice, drop_opening, Nat.add_sub_cancel_left, List.take_left]

/-- When the model of a form is read and replaced. -/
theorem served_iff (hne : upstream_model ≠ model) : form.Served model upstream_model ↔ Name model ∧ Name upstream_model ∧ form.Clear := by
  constructor
  · rintro ⟨hread, hrewrite, hreread⟩
    have hname := name_of_multipart_model hreread
    refine ⟨name_of_multipart_model hread, hname, fun i k hi hik hk hstands => ?_⟩
    have hlength := @opening_length form
    have hblank_length : BLANK.length = 4 := rfl
    have hmarker_length := marker_length
    have hsame : ∀ {needle : Bytes} {j : Nat}, j + needle.length ≤ form.opening.length →
        (StandsAt needle (form.bytes model) j ↔ StandsAt needle form.opening j) := fun h => standsAt_append_left h
    -- The first marker and the first empty line after it are early, and so is the line that is rewritten.
    obtain ⟨marker_at, hfirst, hmarker⟩ := exists_first (Nat.zero_le i) ((hsame (hi.length_le marker_ne_nil)).mpr hi)
    obtain ⟨blank, hblank, hle⟩ := exists_first (hmarker.trans hik) ((hsame (by omega)).mpr hstands)
    have hearly : blank < form.lead.length := by
      by_contra hlate
      have := opening_ends ((hsame (by omega)).mp hblank.holds) (by omega)
      omega
    have hapart : blank + BLANK.length ≤ form.lead.length :=
      hblank.holds.disjoint bytes_names.1 (by rw [marker_eq]; decide) (by rw [marker_eq]; decide) (by omega)
    have hlast : StandsAt BLANK (form.bytes model) (form.lead.length + (MARKER ++ form.attributes).length) :=
      (hsame (by omega)).mpr opening_blank
    have hend : StandsAt CRLF (form.bytes model) (form.lead.length + (MARKER ++ form.attributes).length) :=
      (List.prefix_append CRLF CRLF).trans hlast
    obtain ⟨stop, hstop, hfield, hrewritten⟩ := rewrite_of_first hfirst hblank hend (by omega) upstream_model
    have hbytes : (form.bytes model).take (blank + 4) ++ as_bytes upstream_model ++ (form.bytes model).drop stop =
        (form.bytes model).take form.opening.length ++ (as_bytes upstream_model ++ (CRLF ++ form.closing)) := by
      rw [take_opening]
      exact Option.some.inj (hrewritten.symm.trans hrewrite)
    have hdrop := drop_of_rewritten hfield.line hname.line (show stop + 2 ≤ form.opening.length by omega) hbytes
    rw [drop_opening] at hdrop
    exact hne (as_bytes_inj (List.append_cancel_right hdrop))
  · rintro ⟨hmodel, hupstream, hclear⟩
    refine ⟨multipart_model_of_clear hclear hmodel, ?_, multipart_model_of_clear hclear hupstream⟩
    have hnames := @bytes_names form model
    obtain ⟨marker_at, hfirst, hle⟩ := exists_first (Nat.zero_le _) hnames.1
    refine rewrite_multipart_model_eq_some_iff.mpr ⟨_, _, _, hfirst, fieldAt_of_clear hclear hmodel hfirst.holds hle, ?_⟩
    rw [take_opening, ← List.drop_drop, drop_opening, List.drop_left, List.append_assoc]
    rfl

end Fields

/-- The model that is read of a form is replaced, and nothing else, exactly where
    it is the upstream's already, or no empty line comes between a marker and the
    attribute and no white space is around the model. The two agree on a field of
    a form, whatever is in its other parts, exactly where no empty line comes
    between a marker and the field's own. -/
theorem multipart_agrees (raw : Bytes) (candidate : Candidate) (route : Route) (form : Form) (model upstream_model : String) :
    (multipart_model raw = some route.model →
      ∃ result, prepare_multipart_body candidate route raw = .raw result ∧
        (Replaced raw route.model candidate.upstream_model result ↔
          candidate.upstream_model = route.model ∨ Name candidate.upstream_model ∧ Direct raw)) ∧
      (upstream_model ≠ model → (form.Served model upstream_model ↔ Name model ∧ Name upstream_model ∧ form.Clear)) :=
  ⟨fun hfound => replaced_iff hfound, fun hne => served_iff hne⟩

/-- A candidate whose upstream has another name for the model of forms. -/
def renamed : Route where
  inbound := .chat
  model := "whisper-1"
  attempts := [{
    channel := { id := 1, owner_id := 1, tags := [], visibility := .shared, user_id := none }
    endpoint := { protocol := .chat }
    model := ⟨"whisper-1", some "real-model"⟩
    rank := ⟨false, 0, 0⟩ }]
  attempt_cap := 1
  max_upstream_calls := 0
  identity := none

/-- A form with nothing but a model. -/
def plain_form : Bytes :=
  as_bytes "--B\r\nContent-Disposition: form-data; name=\"model\"\r\n\r\nwhisper-1\r\n--B--\r\n"

/-- The same form. -/
def model_form : Form where
  boundary := as_bytes "B"
  before := []
  disposition := as_bytes "Content-Disposition: form-data; "
  attributes := []
  after := []
  separated := by decide +kernel
  ends i hblank := by
    have hle := List.IsPrefix.length_le hblank
    have hlength : (MARKER ++ [] ++ BLANK).length = 16 := by decide +kernel
    rw [List.length_drop, hlength, show BLANK.length = 4 by decide +kernel] at hle
    have hall : ∀ i < 13, BLANK <+: (MARKER ++ [] ++ BLANK).drop i → i = (MARKER ++ []).length := by decide +kernel
    exact hall i (by omega) hblank

/-- A form with a file before, whose own name looks like the model's field. -/
def filename_trap : Bytes :=
  as_bytes "--B\r\nContent-Disposition: form-data; name=\"file\"; filename=\"model\"\r\n\r\nfake\r\n" ++ plain_form

theorem multipart_agrees_of_plain_form :
    ∃ result, prepare_multipart_body (renamed.candidate (0 : Fin 1)) renamed plain_form = .raw result ∧
      (Replaced plain_form renamed.model (renamed.candidate (0 : Fin 1)).upstream_model result ↔
        (renamed.candidate (0 : Fin 1)).upstream_model = renamed.model ∨
          Name (renamed.candidate (0 : Fin 1)).upstream_model ∧ Direct plain_form) :=
  (multipart_agrees plain_form _ _ model_form "whisper-1" "real-model").1 (by decide +kernel)

theorem trap_read : multipart_model filename_trap = some renamed.model := by decide +kernel

theorem trap_rewritten : (rewrite_multipart_model filename_trap "real-model").bind multipart_model = some "whisper-1" := by decide +kernel

/-- The file is rewritten, and not the model that is read. -/
theorem file_rewritten :
    ¬ ∀ (raw : Bytes) (candidate : Candidate) (route : Route), multipart_model raw = some route.model →
      ∃ result, prepare_multipart_body candidate route raw = .raw result ∧
        Replaced raw route.model candidate.upstream_model result := by
  intro h
  obtain ⟨result, hresult, hreplaced⟩ := h filename_trap (renamed.candidate (0 : Fin 1)) renamed trap_read
  obtain ⟨rewritten, hrewritten, hmodel⟩ := Option.bind_eq_some_iff.mp trap_rewritten
  have hne : (renamed.candidate (0 : Fin 1)).upstream_model ≠ renamed.model := by decide
  rw [prepare_multipart_body_of_ne hne hrewritten] at hresult
  obtain rfl := PreparedBody.raw.inj hresult
  obtain ⟨-, -, -, -, -, -, -, hread⟩ := hreplaced
  rw [hmodel] at hread
  exact absurd hread (by decide)

end refract.gateway
