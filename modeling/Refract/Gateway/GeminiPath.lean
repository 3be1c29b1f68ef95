import Mathlib.Data.List.Infix
import Refract.Core.Address
import Refract.Core.Validation
import Refract.Machine.WebPath
import Refract.Stream.Utf8

open refract.core refract.json refract.machine.web refract.stream

namespace refract.gateway

section Route

def strip_prefix (s start : String) : Option String :=
  if start.toList.isPrefixOf s.toList then some (String.ofList (s.toList.drop start.toList.length)) else none

def trim_matches (s : String) (c : Char) : String := String.ofList ((s.toList.dropWhile (· = c)).rdropWhile (· = c))

def split_once (s : String) (c : Char) : Option (String × String) :=
  if c ∈ s.toList then
    some (String.ofList (s.toList.takeWhile (· ≠ c)), String.ofList ((s.toList.dropWhile (· ≠ c)).drop 1))
  else none

/-- What the rest of a path says, without the slashes around it and the collection's name. -/
def gemini_spec (rest : String) : String :=
  let spec := trim_matches rest '/'
  ( strip_prefix spec "models/").getD spec

/-- The call of a verb. -/
def gemini_call (model verb : String) : Except GatewayError (String × Action) :=
  if verb = "countTokens" then .ok (model, .passthrough .geminiCountTokens)
  else if verb = "embedContent" then .ok (model, .passthrough .geminiEmbed)
  else if verb = "batchEmbedContents" then .ok (model, .passthrough .geminiBatchEmbed)
  else if verb ≠ "generateContent" ∧ verb ≠ "streamGenerateContent" then
    .error (.invalid_request ("unsupported Gemini action `:" ++ verb ++
      "`; supported: generateContent, streamGenerateContent, countTokens, embedContent, batchEmbedContents"))
  else .ok (model, if "stream".toList.isPrefixOf verb.toList then .stream else .generate)

/-- The model and the action that the route for models reads from the rest of a path. -/
def gemini_action (rest : String) : Except GatewayError (String × Action) :=
  let spec := gemini_spec rest
  let (model, verb) := (split_once spec ':').getD (spec, "generateContent")
  gemini_call model verb

/-- The actions that are named in a path. -/
def gemini_actions : List Action :=
  [.generate, .stream, .passthrough .geminiCountTokens, .passthrough .geminiEmbed, .passthrough .geminiBatchEmbed]

/-- What comes after the route's own part of a path, decoded. -/
def route_rest (path : String) : Option String :=
  ( strip_prefix path "/v1beta/models/").bind fun rest => (from_utf8 (percent_decode (as_bytes rest))).toOption

/-- The call that is received under a path. -/
def received_call (path : String) : Option (String × Action) :=
  (route_rest path).bind fun rest => (gemini_action rest).toOption

theorem gemini_call_ok {action : Action} (haction : action ∈ gemini_actions) (model : String) :
    gemini_call model action.gemini_verb = .ok (model, action) := by
  simp only [gemini_actions, List.mem_cons, List.not_mem_nil, or_false] at haction
  obtain rfl | rfl | rfl | rfl | rfl := haction <;> rfl

theorem eq_of_gemini_call {model verb name : String} {action : Action} (h : gemini_call model verb = .ok (name, action)) :
    name = model ∧ action ∈ gemini_actions ∧ verb = action.gemini_verb := by
  rw [gemini_call] at h
  split_ifs at h with hcount hembed hbatch hother hstream
  · obtain ⟨rfl, rfl⟩ := Prod.mk.inj (Except.ok.inj h)
    exact ⟨rfl, by decide, hcount⟩
  · obtain ⟨rfl, rfl⟩ := Prod.mk.inj (Except.ok.inj h)
    exact ⟨rfl, by decide, hembed⟩
  · obtain ⟨rfl, rfl⟩ := Prod.mk.inj (Except.ok.inj h)
    exact ⟨rfl, by decide, hbatch⟩
  · obtain ⟨rfl, rfl⟩ := Prod.mk.inj (Except.ok.inj h)
    rw [not_and_or, not_not, not_not] at hother
    refine ⟨rfl, by decide, hother.resolve_left fun hgenerate => ?_⟩
    rw [hgenerate] at hstream
    exact absurd hstream (by decide)
  · obtain ⟨rfl, rfl⟩ := Prod.mk.inj (Except.ok.inj h)
    rw [not_and_or, not_not, not_not] at hother
    refine ⟨rfl, by decide, hother.resolve_right fun hstreams => hstream ?_⟩
    rw [hstreams]
    decide

theorem strip_prefix_eq_some {s start rest : String} (h : strip_prefix s start = some rest) : s = start ++ rest := by
  rw [ strip_prefix, Option.ite_none_right_eq_some, List.isPrefixOf_iff_prefix] at h
  obtain ⟨⟨back, hback⟩, hrest⟩ := h
  rw [← Option.some.inj hrest, ← hback, List.drop_left' rfl, ← String.toList_inj, String.toList_append,
    String.toList_ofList, hback]

theorem strip_prefix_eq_none {s start : String} (h : strip_prefix s start = none) : ¬ start.toList <+: s.toList := by
  intro hstart
  rw [ strip_prefix, if_pos (List.isPrefixOf_iff_prefix.mpr hstart)] at h
  cases h

theorem strip_prefix_of_prefix (start : String) (rest : List Char) :
    strip_prefix (String.ofList (start.toList ++ rest)) start = some (String.ofList rest) := by
  rw [ strip_prefix, String.toList_ofList, if_pos (List.isPrefixOf_iff_prefix.mpr (List.prefix_append _ _)), List.drop_left' rfl]

/-- A list is cut at the first of a character. -/
theorem cut_at {c : Char} {front : List Char} (hfront : c ∉ front) (back : List Char) :
    (front ++ c :: back).takeWhile (· ≠ c) = front ∧ (front ++ c :: back).dropWhile (· ≠ c) = c :: back := by
  induction front with
  | nil => simp
  | cons d front ih =>
    rw [List.mem_cons, not_or] at hfront
    have hother : decide (d ≠ c) = true := decide_eq_true (Ne.symm hfront.1)
    rw [List.cons_append, List.takeWhile_cons, List.dropWhile_cons, hother, if_pos rfl, if_pos rfl]
    exact ⟨by rw [(ih hfront.2).1], (ih hfront.2).2⟩

/-- The text of a call that has been received: its name and verb around a colon, or the
    name alone. -/
theorem spec_of_gemini_action {rest name : String} {action : Action} (h : gemini_action rest = .ok (name, action)) :
    action ∈ gemini_actions ∧ ':' ∉ name.toList ∧
      (':' ∈ (gemini_spec rest).toList → (gemini_spec rest).toList = name.toList ++ ':' :: action.gemini_verb.toList) ∧
      (':' ∉ (gemini_spec rest).toList → gemini_spec rest = name) := by
  rw [gemini_action] at h
  by_cases hcolon : ':' ∈ (gemini_spec rest).toList
  · obtain ⟨front, back, hspec, hfront⟩ := List.eq_append_cons_of_mem hcolon
    rw [split_once, if_pos hcolon, hspec, (cut_at hfront back).1, (cut_at hfront back).2] at h
    obtain ⟨hname, haction, hverb⟩ := eq_of_gemini_call h
    rw [List.drop_one, List.tail_cons] at hverb
    rw [hname, String.toList_ofList, ← hverb, String.toList_ofList]
    exact ⟨haction, hfront, fun _ => hspec, fun hnone => absurd hcolon hnone⟩
  · rw [split_once, if_neg hcolon] at h
    obtain ⟨hname, haction, -⟩ := eq_of_gemini_call h
    exact ⟨haction, by rw [hname]; exact hcolon, fun hmem => absurd hmem hcolon, fun _ => hname.symm⟩

theorem trim_matches_sublist (s : String) (c : Char) : (trim_matches s c).toList.Sublist s.toList := by
  rw [trim_matches, String.toList_ofList]
  exact (List.rdropWhile_prefix _ _).sublist.trans (List.dropWhile_sublist _)

theorem trim_matches_head {s : String} {c : Char} (h : trim_matches s c = s) : s.toList.head? ≠ some c := by
  intro hhead
  obtain ⟨cs, hcs⟩ := List.head?_eq_some_iff.mp hhead
  have hlength := congrArg (fun s : String => s.toList.length) h
  have hle := ((List.rdropWhile_prefix (· = c) (cs.dropWhile (· = c))).sublist.trans (List.dropWhile_sublist _)).length_le
  simp only [trim_matches, String.toList_ofList, hcs, List.dropWhile_cons, decide_true, if_true, List.length_cons] at hlength
  omega

theorem trim_matches_eq_self {s : String} {c : Char} (hhead : s.toList.head? ≠ some c) (hlast : s.toList.getLast? ≠ some c) :
    trim_matches s c = s := by
  have hfront : s.toList.dropWhile (· = c) = s.toList := by
    cases hs : s.toList with
    | nil => rfl
    | cons d cs =>
      rw [hs, List.head?_cons, Ne, Option.some.injEq] at hhead
      rw [List.dropWhile_cons, decide_eq_false hhead, if_neg Bool.false_ne_true]
  have hback : s.toList.rdropWhile (· = c) = s.toList := by
    rw [List.rdropWhile_eq_self_iff]
    intro hnonempty hend
    rw [List.getLast?_eq_some_getLast hnonempty, of_decide_eq_true hend] at hlast
    exact hlast rfl
  rw [trim_matches, hfront, hback, String.ofList_toList]

theorem gemini_spec_sublist (rest : String) : (gemini_spec rest).toList.Sublist rest.toList := by
  have htrimmed := trim_matches_sublist rest '/'
  rw [gemini_spec]
  cases hcollection : strip_prefix (trim_matches rest '/') "models/" with
  | none => exact htrimmed
  | some spec =>
    rw [strip_prefix_eq_some hcollection, String.toList_append] at htrimmed
    exact (List.sublist_append_right _ _).trans htrimmed

theorem mem_dropWhile {p : Char → Bool} {c : Char} {cs : List Char} (hc : p c = false) (h : c ∈ cs) : c ∈ cs.dropWhile p := by
  rw [← List.takeWhile_append_dropWhile (p := p) (l := cs)] at h
  refine (List.mem_append.mp h).resolve_left fun hfront => ?_
  rw [List.mem_takeWhile_imp hfront] at hc
  cases hc

/-- Other characters than the slashes and those of the collection's name stay. -/
theorem mem_gemini_spec {c : Char} (hslash : c ≠ '/') (hc : c ∉ "models/".toList) {rest : String} (h : c ∈ rest.toList) :
    c ∈ (gemini_spec rest).toList := by
  have htrimmed : c ∈ (trim_matches rest '/').toList := by
    have hother : decide (c = '/') = false := decide_eq_false hslash
    rw [trim_matches, String.toList_ofList, List.rdropWhile, List.mem_reverse]
    exact mem_dropWhile hother (List.mem_reverse.mpr (mem_dropWhile hother h))
  rw [gemini_spec]
  cases hcollection : strip_prefix (trim_matches rest '/') "models/" with
  | none => exact htrimmed
  | some spec =>
    rw [strip_prefix_eq_some hcollection, String.toList_append, List.mem_append] at htrimmed
    exact htrimmed.resolve_left hc

/-- What is left whole has neither a slash nor the collection's name in front. -/
theorem unstripped_of_gemini_spec {rest : String} (h : gemini_spec rest = rest) :
    rest.toList.head? ≠ some '/' ∧ ¬ "models/".toList <+: rest.toList := by
  rw [gemini_spec] at h
  cases hcollection : strip_prefix (trim_matches rest '/') "models/" with
  | none =>
    rw [hcollection] at h
    have htrimmed : trim_matches rest '/' = rest := h
    have hnone := strip_prefix_eq_none hcollection
    rw [htrimmed] at hnone
    exact ⟨trim_matches_head htrimmed, hnone⟩
  | some spec =>
    rw [hcollection] at h
    have hspec : spec = rest := h
    have hle := (trim_matches_sublist rest '/').length_le
    rw [strip_prefix_eq_some hcollection, hspec, String.toList_append, List.length_append] at hle
    have hseven : "models/".toList.length = 7 := by decide
    omega

theorem gemini_spec_eq_self {rest : String} (hhead : rest.toList.head? ≠ some '/') (hlast : rest.toList.getLast? ≠ some '/')
    (hcollection : ¬ "models/".toList <+: rest.toList) : gemini_spec rest = rest := by
  rw [gemini_spec, trim_matches_eq_self hhead hlast, strip_prefix, if_neg (by rwa [List.isPrefixOf_iff_prefix])]
  rfl

/-- A text around a colon is received as its name and verb. -/
theorem gemini_action_of_spec {rest name : String} {action : Action} (haction : action ∈ gemini_actions)
    (hname : ':' ∉ name.toList) (hspec : (gemini_spec rest).toList = name.toList ++ ':' :: action.gemini_verb.toList) :
    gemini_action rest = .ok (name, action) := by
  have hcolon : ':' ∈ (gemini_spec rest).toList := by rw [hspec]; exact List.mem_append_right _ List.mem_cons_self
  rw [gemini_action, split_once, if_pos hcolon, hspec, (cut_at hname _).1, (cut_at hname _).2]
  dsimp only [Option.getD_some]
  rw [List.drop_one, List.tail_cons, String.ofList_toList, String.ofList_toList, gemini_call_ok haction]

end Route

section Weights

/-- What a byte weighs, so that neither reading a written one nor putting in a verb
    makes a text heavier. -/
def byte_weight (b : UInt8) : Nat := if b = 37 ∨ b = 123 then 21 else if b = 92 then 2 else 1

def char_weight (c : Char) : Nat := weight byte_weight (String.utf8EncodeChar c)

theorem byte_weight_pos (b : UInt8) : 0 < byte_weight b := by
  rw [byte_weight]
  split_ifs <;> decide

theorem byte_weight_le_mark (b : UInt8) : byte_weight b ≤ byte_weight 37 := by
  have hmark : byte_weight 37 = 21 := rfl
  rw [hmark, byte_weight]
  split_ifs <;> decide

theorem char_weight_pos (c : Char) : 0 < char_weight c := by
  have hlength : 0 < (String.utf8EncodeChar c).length := by rw [String.length_utf8EncodeChar]; exact c.utf8Size_pos
  obtain ⟨b, bs, hbytes⟩ := List.exists_cons_of_ne_nil (List.ne_nil_of_length_pos hlength)
  have hpos := byte_weight_pos b
  rw [char_weight, hbytes, weight_cons]
  omega

theorem weight_as_bytes (s : String) : weight byte_weight (as_bytes s) = weight char_weight s.toList := by
  rw [as_bytes_eq, weight_flatMap]
  rfl

theorem weight_bytes (cs : List Char) : weight byte_weight (cs.flatMap String.utf8EncodeChar) = weight char_weight cs :=
  weight_flatMap _ _

theorem shrinks_of_sublist {cs ds : List Char} (h : cs.Sublist ds) : Shrinks char_weight cs ds := .of_sublist char_weight_pos h

theorem verb_lt_place {action : Action} (haction : action ∈ gemini_actions) :
    weight char_weight action.gemini_verb.toList < weight char_weight "\x7baction\x7d".toList := by
  simp only [gemini_actions, List.mem_cons, List.not_mem_nil, or_false] at haction
  obtain rfl | rfl | rfl | rfl | rfl := haction <;> decide

/-- Where a light text is put in for a heavier one, the whole gets lighter. -/
theorem replace_from_lighter {w : Char → Nat} {pattern text : List Char} (htext : weight w text < weight w pattern)
    (cs : List Char) :
    (pattern <:+: cs → weight w (replace_from pattern text 0 cs) < weight w cs) ∧
    (¬ pattern <:+: cs → replace_from pattern text 0 cs = cs) := by
  have hpattern : pattern ≠ [] := fun hnil => by rw [hnil] at htext; exact absurd htext (Nat.not_lt_zero _)
  induction hlength : cs.length using Nat.strong_induction_on generalizing cs with
  | _ n ih =>
    by_cases hstart : pattern <+: cs
    · refine ⟨fun _ => ?_, fun hnone => absurd hstart.isInfix hnone⟩
      obtain ⟨rest, rfl⟩ := hstart
      have hpos := List.length_pos_of_ne_nil hpattern
      rw [List.length_append] at hlength
      obtain ⟨hlt, heq⟩ := ih rest.length (by omega) rest rfl
      have hle : weight w (replace_from pattern text 0 rest) ≤ weight w rest := by
        by_cases hinfix : pattern <:+: rest
        · exact (hlt hinfix).le
        · rw [heq hinfix]
      rw [replace_from_pattern hpattern, weight_append, weight_append]
      omega
    · cases cs with
      | nil => exact ⟨fun hinfix => absurd (List.infix_nil.mp hinfix) hpattern, fun _ => rfl⟩
      | cons c cs =>
        obtain ⟨hlt, heq⟩ := ih cs.length (by rw [← hlength, List.length_cons]; omega) cs rfl
        rw [replace_from_cons hstart, List.infix_cons_iff, or_iff_right hstart, weight_cons, weight_cons]
        exact ⟨fun hinfix => Nat.add_lt_add_left (hlt hinfix) _, fun hinfix => by rw [heq hinfix]⟩

theorem contains_iff {s part : String} : contains s part = true ↔ part.toList <:+: s.toList := by
  rw [contains, List.any_eq_true, List.infix_iff_prefix_suffix]
  simp only [List.mem_tails, List.isPrefixOf_iff_prefix]
  exact exists_congr fun _ => and_comm

end Weights

section Names

/-- The names that keep their meaning in a path. -/
structure PlainName (name : String) : Prop where
  unmarked : ∀ c ∈ name.toList, c ∉ [':', '?', '#', '\\', '\t', '\n', '\r']
  /-- The verb is not put into the name. -/
  place : contains name "\x7baction\x7d" = false
  /-- No percent sign is followed by two digits of sixteen. -/
  escape : has_escape (as_bytes name) = false
  slash : name.toList.head? ≠ some '/'
  collection : strip_prefix name "models/" = none
  /-- No segment that ends in a slash is a dot segment. -/
  dots : ∀ segment ∈ (name.toList.splitOn '/').dropLast, is_dot segment = false

/-- The name in the path of a call, where the place for the verb is filled in. -/
def called_name (name : String) (action : Action) : List Char :=
  replace_from "\x7baction\x7d".toList action.gemini_verb.toList 0 name.toList

/-- The path of the models in front of a name. -/
def collection : List Char := "v1beta/models/".toList

/-- The text of a call's path. -/
def call_text (name : List Char) (verb : String) : List Char := collection ++ (name ++ ':' :: verb.toList)

/-- Characters that are left out of addresses, that end a path, and that stand for another. -/
def is_left_out (c : Char) : Bool := c = '\t' || c = '\n' || c = '\r'

def is_mark (c : Char) : Bool := c = '?' || c = '#'

def to_slash (c : Char) : Char := if c = '\\' then '/' else c

theorem path_text_eq (text : List Char) :
    path_text text = (((text.rdropWhile (·.toNat ≤ 32)).filter (!is_left_out ·)).takeWhile (!is_mark ·)).map to_slash := rfl

/-- A verb is letters, of which there is a last one. -/
theorem verb_plain {action : Action} (haction : action ∈ gemini_actions) :
    (∀ c ∈ action.gemini_verb.toList, c.isAlpha) ∧ ∃ front last, action.gemini_verb.toList = front ++ [last] := by
  simp only [gemini_actions, List.mem_cons, List.not_mem_nil, or_false] at haction
  have hverb : (action.gemini_verb.toList.all Char.isAlpha) = true ∧ action.gemini_verb.toList ≠ [] := by
    obtain rfl | rfl | rfl | rfl | rfl := haction <;> decide
  refine ⟨List.all_eq_true.mp hverb.1, action.gemini_verb.toList.dropLast, action.gemini_verb.toList.getLast hverb.2, ?_⟩
  exact (List.dropLast_append_getLast hverb.2).symm

theorem alpha_bounds {c : Char} (h : c.isAlpha) : 65 ≤ c.toNat ∧ c.toNat ≤ 122 := by
  have hcases : (c.isUpper || c.isLower) = true := h
  obtain hupper | hlower := Bool.or_eq_true_iff.mp hcases
  · have hbounds : 'A'.val ≤ c.val ∧ c.val ≤ 'Z'.val := of_decide_eq_true hupper
    have hlow : 65 ≤ c.toNat := UInt32.le_iff_toNat_le.mp hbounds.1
    have hhigh : c.toNat ≤ 90 := UInt32.le_iff_toNat_le.mp hbounds.2
    omega
  · have hbounds : decide ('a'.val ≤ c.val) = true ∧ decide (c.val ≤ 'z'.val) = true := Bool.and_eq_true_iff.mp hlower
    have hlow : 97 ≤ c.toNat := UInt32.le_iff_toNat_le.mp (of_decide_eq_true hbounds.1)
    have hhigh : c.toNat ≤ 122 := UInt32.le_iff_toNat_le.mp (of_decide_eq_true hbounds.2)
    omega

theorem alpha_plain {c : Char} (h : c.isAlpha) :
    32 < c.toNat ∧ is_left_out c = false ∧ is_mark c = false ∧ to_slash c = c ∧ c ≠ '/' := by
  have hother {d : Char} (hd : d.isAlpha = false) : c ≠ d := fun heq => by
    rw [heq, hd] at h
    cases h
  refine ⟨by have hbounds := alpha_bounds h; omega, ?_, ?_, if_neg (hother (by decide)), hother (by decide)⟩
  · simp only [is_left_out, decide_eq_false (hother (show Char.isAlpha '\t' = false by decide)),
      decide_eq_false (hother (show Char.isAlpha '\n' = false by decide)),
      decide_eq_false (hother (show Char.isAlpha '\r' = false by decide)), Bool.or_false]
  · simp only [is_mark, decide_eq_false (hother (show Char.isAlpha '?' = false by decide)),
      decide_eq_false (hother (show Char.isAlpha '#' = false by decide)), Bool.or_false]

theorem path_text_call {name : List Char} {action : Action} (haction : action ∈ gemini_actions) :
    path_text (call_text name action.gemini_verb) =
      if (name.filter (!is_left_out ·)).any is_mark then
        collection ++ ((name.filter (!is_left_out ·)).takeWhile (!is_mark ·)).map to_slash
      else collection ++ ((name.filter (!is_left_out ·)).map to_slash ++ ':' :: action.gemini_verb.toList) := by
  obtain ⟨hletters, front, last, hlast⟩ := verb_plain haction
  have hplain : ∀ c ∈ ':' :: action.gemini_verb.toList, is_left_out c = false ∧ is_mark c = false ∧ to_slash c = c := by
    intro c hc
    obtain rfl | hverb := List.mem_cons.mp hc
    · decide
    · have hc := alpha_plain (hletters c hverb)
      exact ⟨hc.2.1, hc.2.2.1, hc.2.2.2.1⟩
  have hcollection : ∀ c ∈ collection, is_left_out c = false ∧ is_mark c = false ∧ to_slash c = c := by
    have hall : collection.all (fun c => !is_left_out c && !is_mark c && to_slash c == c) = true := by decide
    intro c hc
    have hplain := List.all_eq_true.mp hall c hc
    simpa only [Bool.and_eq_true, Bool.not_eq_true', beq_iff_eq, and_assoc] using hplain
  have hkept {cs : List Char} (hcs : ∀ c ∈ cs, is_left_out c = false ∧ is_mark c = false ∧ to_slash c = c) :
      cs.filter (!is_left_out ·) = cs ∧ cs.map to_slash = cs :=
    ⟨List.filter_eq_self.mpr fun c hc => by rw [(hcs c hc).1, Bool.not_false],
      (List.map_congr_left fun c hc => (hcs c hc).2.2).trans (List.map_id _)⟩
  have hend : (call_text name action.gemini_verb).rdropWhile (·.toNat ≤ 32) = call_text name action.gemini_verb := by
    have hvisible := (alpha_plain (hletters last (by rw [hlast]; exact List.mem_append_right _ (List.mem_singleton_self _)))).1
    have hwhole : call_text name action.gemini_verb = (collection ++ (name ++ ':' :: front)) ++ [last] := by
      rw [call_text, hlast]
      simp only [List.append_assoc, List.cons_append]
    rw [hwhole, List.rdropWhile_concat_neg _ _ _ (by simpa using hvisible)]
  rw [path_text_eq, hend, call_text, List.filter_append, List.filter_append, (hkept hcollection).1, (hkept hplain).1,
    List.takeWhile_append_of_pos (fun c hc => by rw [(hcollection c hc).2.1, Bool.not_false]), List.map_append,
    (hkept hcollection).2]
  by_cases hmark : (name.filter (!is_left_out ·)).any is_mark = true
  · rw [if_pos hmark, List.takeWhile_append, if_neg]
    intro hlength
    obtain ⟨c, hc, hmark⟩ := List.any_eq_true.mp hmark
    have hall := List.takeWhile_eq_self_iff.mp ((List.takeWhile_prefix _).eq_of_length hlength) c hc
    rw [hmark] at hall
    cases hall
  · rw [if_neg hmark]
    have hunmarked : ∀ c ∈ name.filter (!is_left_out ·), (!is_mark c) = true := fun c hc => by
      rw [eq_false_of_ne_true fun h => hmark (List.any_eq_true.mpr ⟨c, hc, h⟩), Bool.not_false]
    rw [List.takeWhile_append_of_pos hunmarked,
      List.takeWhile_eq_self_iff.mpr (fun c hc => by rw [(hplain c hc).2.1, Bool.not_false]), List.map_append, (hkept hplain).2]

end Names

section Decoding

variable {safe : Char → Bool}

/-- What the encoding of paths leaves as it is. -/
structure SafeSet (safe : Char → Bool) : Prop where
  alphanum : ∀ c : Char, c.isAlphanum → safe c = true
  marks : ∀ c ∈ ['/', ':', '%'], safe c = true

/-- The bytes of a text, each with whether its character is left. -/
def entries (safe : Char → Bool) (cs : List Char) : List (UInt8 × Bool) :=
  cs.flatMap fun c => (String.utf8EncodeChar c).map (·, safe c)

theorem entries_fst (cs : List Char) : (entries safe cs).map Prod.fst = cs.flatMap String.utf8EncodeChar := by
  rw [entries, List.map_flatMap]
  exact List.flatMap_congr fun c _ => by rw [List.map_map]; exact List.map_id _

theorem written_entries (cs : List Char) :
    written (entries safe cs) = (percent_encode safe cs).flatMap String.utf8EncodeChar := by
  rw [written, entries, percent_encode, List.flatMap_assoc, List.flatMap_assoc]
  refine List.flatMap_congr fun c _ => ?_
  rw [List.flatMap_map]
  cases safe c with
  | true => simp
  | false =>
    simp only [Bool.false_eq_true, if_false]
    rw [List.flatMap_assoc]
    rfl

theorem hex_byte {b : UInt8} (h : (hex_value b).isSome) : b.toNat < 128 ∧ (Char.ofNat b.toNat).isAlphanum := by
  have hall : ∀ n < 256, (hex_value (UInt8.ofNat n)).isSome → n < 128 ∧ (Char.ofNat n).isAlphanum := by decide +kernel
  exact hall b.toNat b.toNat_lt (by rwa [UInt8.ofNat_toNat])

theorem marked_entries (hsafe : SafeSet safe) (cs : List Char) : Marked (entries safe cs) := by
  intro entry hentry hkept
  obtain ⟨c, -, hc⟩ := List.mem_flatMap.mp hentry
  obtain ⟨b, hb, rfl⟩ := List.mem_map.mp hc
  -- A byte of seven bits is a character of its own.
  obtain hmark | hdigit := hkept
  · have hchar : c.toNat = 37 := (mem_utf8EncodeChar (by rw [show b = 37 from hmark]; decide) c).mp hb |>.trans
      (by rw [show b = 37 from hmark]; rfl)
    refine hsafe.marks c ?_
    rw [← Char.ofNat_toNat c, hchar]
    decide
  · obtain ⟨hlt, halphanum⟩ := hex_byte hdigit
    refine hsafe.alphanum c ?_
    rwa [← Char.ofNat_toNat c, (mem_utf8EncodeChar hlt c).mp hb]

/-- What is received of a path is its text, decoded. -/
theorem percent_decode_encode (hsafe : SafeSet safe) (cs : List Char) :
    percent_decode (as_bytes (String.ofList (percent_encode safe cs))) = percent_decode (cs.flatMap String.utf8EncodeChar) := by
  rw [as_bytes_eq, String.toList_ofList, ← written_entries, percent_decode_written (marked_entries hsafe cs), entries_fst]

theorem as_bytes_of_from_utf8 {bytes : Bytes} {s : String} (h : from_utf8 bytes = .ok s) : as_bytes s = bytes := by
  rw [from_utf8] at h
  cases hread : String.fromUTF8? ⟨bytes.toArray⟩ with
  | none => rw [hread] at h; cases h
  | some t =>
    rw [hread] at h
    rw [← Except.ok.inj h]
    unfold String.fromUTF8? at hread
    split_ifs at hread with hvalid
    rw [← Option.some.inj hread]
    rfl

end Decoding

section Calls

variable {safe : Char → Bool} {name : String} {action : Action}

/-- The text of the path that an address gets from the text of a call. -/
def plain_path (text : List Char) : List Char := slashed (remove_dots [] ((path_text text).splitOn '/'))

/-- The path of a call. -/
def call_path (safe : Char → Bool) (name : String) (action : Action) : String :=
  String.ofList (url_path safe (call_text (called_name name action) action.gemini_verb))

/-- What is received comes from the part of the path behind the route's own. -/
theorem received_parts (hsafe : SafeSet safe) {path : List Char}
    (h : received_call (String.ofList (percent_encode safe path)) = some (name, action)) :
    ∃ behind rest, path = '/' :: (collection ++ behind) ∧
      percent_decode (behind.flatMap String.utf8EncodeChar) = as_bytes rest ∧ gemini_action rest = .ok (name, action) := by
  rw [received_call, Option.bind_eq_some_iff] at h
  obtain ⟨rest, hrest, hcall⟩ := h
  rw [route_rest, Option.bind_eq_some_iff] at hrest
  obtain ⟨raw, hraw, hrest⟩ := hrest
  have hfront := congrArg String.toList (strip_prefix_eq_some hraw)
  rw [String.toList_ofList, String.toList_append] at hfront
  obtain ⟨behind, hbehind, hraw⟩ := exists_of_percent_encode (by decide) hfront
  have hread : from_utf8 (percent_decode (as_bytes raw)) = .ok rest := by
    cases hdecoded : from_utf8 (percent_decode (as_bytes raw)) with
    | error e => rw [hdecoded] at hrest; cases hrest
    | ok text => rw [hdecoded] at hrest; rw [Option.some.inj hrest]
  refine ⟨behind, rest, hbehind, ?_, ?_⟩
  · rw [as_bytes_of_from_utf8 hread, ← percent_decode_encode hsafe behind, ← hraw, String.ofList_toList]
  · cases haction : gemini_action rest with
    | error e => rw [haction] at hcall; cases hcall
    | ok call => rw [haction] at hcall; rw [Option.some.inj hcall]

theorem mem_as_bytes_colon {s : String} : 58 ∈ as_bytes s ↔ ':' ∈ s.toList := by
  rw [mem_as_bytes (by decide)]
  constructor
  · rintro ⟨c, hc, hcolon⟩
    have hchar : c = ':' := by rw [← Char.ofNat_toNat c, hcolon]; rfl
    rwa [← hchar]
  · exact fun hcolon => ⟨':', hcolon, rfl⟩

theorem weight_called_le (haction : action ∈ gemini_actions) (name : String) :
    weight char_weight (called_name name action) ≤ weight char_weight name.toList := by
  have hlighter := replace_from_lighter (verb_lt_place haction) name.toList
  by_cases hinfix : "\x7baction\x7d".toList <:+: name.toList
  · exact (hlighter.1 hinfix).le
  · rw [called_name, hlighter.2 hinfix]

theorem to_slash_lighter (c : Char) : to_slash c = c ∨ char_weight (to_slash c) < char_weight c := by
  by_cases hc : c = '\\'
  · rw [hc]
    exact .inr (by decide)
  · exact .inl (if_neg hc)

/-- The verb is in the last segment, which stays. -/
theorem colon_mem_path (haction : action ∈ gemini_actions) (front : List Char) :
    ':' ∈ slashed (remove_dots [] ((front ++ ':' :: action.gemini_verb.toList).splitOn '/')) := by
  obtain ⟨segments, last, -, happend⟩ := exists_last_segment front
  have hslash : '/' ∉ ':' :: action.gemini_verb.toList := by
    rw [List.mem_cons, not_or]
    exact ⟨by decide, fun hmem => (alpha_plain ((verb_plain haction).1 _ hmem)).2.2.2.2 rfl⟩
  have hcolon : ':' ∈ last ++ ':' :: action.gemini_verb.toList := List.mem_append_right _ List.mem_cons_self
  rw [happend _ hslash]
  exact List.mem_flatMap.mpr ⟨_, last_mem_remove_dots (not_dot_of_mem hcolon (by decide)) [] segments,
    List.mem_cons_of_mem _ hcolon⟩

/-- A verb is a segment's end, whatever comes before. -/
theorem splitOn_call (haction : action ∈ gemini_actions) (name : List Char) :
    ∃ segments last, name.splitOn '/' = segments ++ [last] ∧
      (collection ++ (name ++ ':' :: action.gemini_verb.toList)).splitOn '/' =
        ["v1beta".toList, "models".toList] ++ (segments ++ [last ++ ':' :: action.gemini_verb.toList]) := by
  obtain ⟨segments, last, hname, happend⟩ := exists_last_segment name
  have hslash : '/' ∉ ':' :: action.gemini_verb.toList := by
    rw [List.mem_cons, not_or]
    exact ⟨by decide, fun hmem => (alpha_plain ((verb_plain haction).1 _ hmem)).2.2.2.2 rfl⟩
  have hcollection (text : List Char) : collection ++ text = "v1beta/models".toList ++ '/' :: text := by
    have hwhole : collection = "v1beta/models".toList ++ ['/'] := by decide
    rw [hwhole, List.append_assoc, List.singleton_append]
  have hfront : "v1beta/models".toList.splitOn '/' = ["v1beta".toList, "models".toList] := by decide
  refine ⟨segments, last, hname, ?_⟩
  rw [hcollection, List.splitOn_append_cons_self, happend _ hslash, hfront]

theorem bytes_call (name : String) (verb : String) :
    (name.toList ++ ':' :: verb.toList).flatMap String.utf8EncodeChar = as_bytes name ++ 58 :: as_bytes verb := by
  have hcolon : String.utf8EncodeChar ':' = [58] := by decide
  rw [List.flatMap_append, List.flatMap_cons, hcolon, as_bytes_eq, as_bytes_eq, List.singleton_append]

/-- A call's text that is the same to the address and to the route has such a name. -/
theorem plain_name_of_text (haction : action ∈ gemini_actions) {rest : String} (hcolon : ':' ∉ name.toList)
    (hplain : ∀ c ∈ name.toList, is_left_out c = false ∧ is_mark c = false ∧ to_slash c = c)
    (hplace : ¬ "\x7baction\x7d".toList <:+: name.toList)
    (hescape : has_escape ((name.toList ++ ':' :: action.gemini_verb.toList).flatMap String.utf8EncodeChar) = false)
    (hspec : gemini_spec rest = rest) (hrest : rest.toList = name.toList ++ ':' :: action.gemini_verb.toList)
    (hdots : ∀ segment ∈ (collection ++ (name.toList ++ ':' :: action.gemini_verb.toList)).splitOn '/', is_dot segment = false) :
    PlainName name := by
  obtain ⟨hhead, hcollection⟩ := unstripped_of_gemini_spec hspec
  rw [hrest] at hhead hcollection
  refine ⟨fun c hc => ?_, ?_, ?_, fun hslash => hhead ?_, ?_, fun segment hsegment => hdots segment ?_⟩
  · obtain ⟨hleft, hmark, hslash⟩ := hplain c hc
    have hother : c ≠ ':' := fun heq => hcolon (heq ▸ hc)
    have hback : c ≠ '\\' := fun heq => by rw [heq] at hslash; exact absurd hslash (by decide)
    simp only [is_left_out, is_mark, Bool.or_eq_false_iff, decide_eq_false_iff_not] at hleft hmark
    simp only [List.mem_cons, List.not_mem_nil, or_false, not_or]
    exact ⟨hother, hmark.1, hmark.2, hback, hleft.1.1, hleft.1.2, hleft.2⟩
  · rwa [← Bool.not_eq_true, contains_iff]
  · rw [bytes_call, has_escape_append (by decide), Bool.or_eq_false_iff] at hescape
    exact hescape.1
  · obtain ⟨cs, hcs⟩ := List.head?_eq_some_iff.mp hslash
    rw [hcs]
    rfl
  · rw [ strip_prefix, if_neg]
    rw [List.isPrefixOf_iff_prefix]
    exact fun hstart => hcollection (hstart.trans (List.prefix_append _ _))
  · obtain ⟨segments, last, hname, hwhole⟩ := splitOn_call haction name.toList
    rw [hname, List.dropLast_concat] at hsegment
    rw [hwhole]
    exact List.mem_append_right _ (List.mem_append_left _ hsegment)

/-- A name that comes back has nothing in it that an address or the route reads in
    another way. No step makes it heavier, so that none has changed it. -/
theorem plain_name_of_received (hsafe : SafeSet safe) (h : received_call (call_path safe name action) = some (name, action)) :
    PlainName name := by
  rw [call_path, url_path] at h
  obtain ⟨behind, rest, hpath, hdecoded, hcall⟩ := received_parts hsafe h
  obtain ⟨haction, hcolon, hspec, hwhole⟩ := spec_of_gemini_action hcall
  have hcalled := weight_called_le haction name
  have hfiltered := shrinks_of_sublist (List.filter_sublist (p := (!is_left_out ·)) (l := called_name name action))
  have hrest : weight char_weight rest.toList ≤ weight char_weight behind := by
    rw [← weight_as_bytes, ← hdecoded, ← weight_bytes]
    exact weight_percent_decode_le byte_weight_le_mark _
  have hspecRest := shrinks_of_sublist (gemini_spec_sublist rest)
  have hsublist := remove_dots_sublist [] ((path_text (call_text (called_name name action) action.gemini_verb)).splitOn '/')
  rw [List.nil_append, slashed_splitOn, hpath] at hsublist
  have hbehind := (shrinks_of_sublist hsublist).le
  by_cases hmark : ((called_name name action).filter (!is_left_out ·)).any is_mark = true
  · exfalso
    have hcut : weight char_weight (((called_name name action).filter (!is_left_out ·)).takeWhile (!is_mark ·)) <
        weight char_weight ((called_name name action).filter (!is_left_out ·)) := by
      refine (shrinks_of_sublist (List.takeWhile_sublist _)).resolve_left fun hall => ?_
      obtain ⟨c, hc, hmark⟩ := List.any_eq_true.mp hmark
      have hplain := List.takeWhile_eq_self_iff.mp hall c hc
      rw [hmark] at hplain
      cases hplain
    have hname : weight char_weight name.toList ≤ weight char_weight (gemini_spec rest).toList := by
      by_cases hmem : ':' ∈ (gemini_spec rest).toList
      · rw [hspec hmem, weight_append]
        omega
      · rw [hwhole hmem]
    have hslashes := (Shrinks.map to_slash_lighter
      (((called_name name action).filter (!is_left_out ·)).takeWhile (!is_mark ·))).le
    rw [path_text_call haction, if_pos hmark, weight_cons, weight_cons, weight_append, weight_append] at hbehind
    have hfilteredLe := hfiltered.le
    have hspecLe := hspecRest.le
    omega
  · have hslashes := Shrinks.map to_slash_lighter ((called_name name action).filter (!is_left_out ·))
    rw [path_text_call haction, if_neg hmark] at hpath hsublist hbehind
    have hmem : ':' ∈ (gemini_spec rest).toList := by
      have hpathColon := colon_mem_path haction (collection ++ ((called_name name action).filter (!is_left_out ·)).map to_slash)
      rw [List.append_assoc, hpath, List.mem_cons, List.mem_append] at hpathColon
      have hcolonBehind := (hpathColon.resolve_left (by decide)).resolve_left (by decide)
      have hbyte : 58 ∈ behind.flatMap String.utf8EncodeChar := List.mem_flatMap.mpr ⟨':', hcolonBehind, by decide⟩
      have hreceived := mem_percent_decode (by decide) (by decide) hbyte
      rw [hdecoded, mem_as_bytes_colon] at hreceived
      exact mem_gemini_spec (by decide) (by decide) hreceived
    have hspecLe := hspecRest.le
    rw [weight_cons, weight_cons, weight_append, weight_append, weight_append] at hbehind
    rw [hspec hmem, weight_append] at hspecLe
    have hslashesLe := hslashes.le
    have hfilteredLe := hfiltered.le
    -- The weights are those of the name all along, so that every step has left it alone.
    have hplace : ¬ "\x7baction\x7d".toList <:+: name.toList := fun hinfix => by
      have hlt := (replace_from_lighter (verb_lt_place haction) name.toList).1 hinfix
      rw [← called_name] at hlt
      omega
    have hname : called_name name action = name.toList := (replace_from_lighter (verb_lt_place haction) name.toList).2 hplace
    have hkept := hfiltered.eq (by omega)
    have hunslashed := hslashes.eq (by omega)
    have hspecRestEq : gemini_spec rest = rest := by
      refine String.toList_inj.mp (hspecRest.eq ?_)
      rw [hspec hmem, weight_append]
      omega
    rw [hunslashed, hkept, hname] at hpath hsublist
    have hbehindEq : behind = name.toList ++ ':' :: action.gemini_verb.toList := by
      have hwhole := (shrinks_of_sublist hsublist).eq (by
        rw [hunslashed, hkept, hname] at hbehind
        rw [weight_cons, weight_cons, weight_append, weight_append, weight_append]
        omega)
      exact List.append_cancel_left (List.cons.inj hwhole).2
    refine plain_name_of_text haction hcolon (fun c hc => ?_) hplace ?_ hspecRestEq (by rw [← hspec hmem, hspecRestEq]) ?_
    · have hc' : c ∈ (called_name name action).filter (!is_left_out ·) := by rwa [hkept, hname]
      have hleft := List.filter_eq_self.mp hkept c (by rwa [hname])
      have hslash := List.map_inj_left.mp (hunslashed.trans (List.map_id _).symm) c hc'
      exact ⟨by simpa using hleft, eq_false_of_ne_true fun h => hmark (List.any_eq_true.mpr ⟨c, hc', h⟩), hslash⟩
    · rw [← hbehindEq]
      refine eq_false_of_ne_true fun hescape => ?_
      have hlt := weight_percent_decode_lt byte_weight_pos byte_weight_le_mark hescape
      rw [hdecoded, weight_as_bytes, weight_bytes] at hlt
      have hspecLe' := hspecRest.le
      rw [hspec hmem, weight_append] at hspecLe'
      omega
    · intro segment hsegment
      refine eq_false_of_ne_true fun hdot => ?_
      have hlt := remove_dots_shorter ⟨segment, hsegment, hdot⟩ []
      rw [List.nil_append, slashed_splitOn, hpath, hbehindEq] at hlt
      exact lt_irrefl _ hlt

/-- The text of a call with such a name is not changed. -/
theorem plain_path_of_plain_name (hname : PlainName name) (haction : action ∈ gemini_actions) :
    plain_path (call_text (called_name name action) action.gemini_verb) =
      '/' :: (collection ++ (name.toList ++ ':' :: action.gemini_verb.toList)) := by
  have hplace : ¬ "\x7baction\x7d".toList <:+: name.toList := by
    rw [← contains_iff, hname.place]
    exact Bool.false_ne_true
  have hcalled : called_name name action = name.toList := (replace_from_lighter (verb_lt_place haction) name.toList).2 hplace
  have hplain : ∀ c ∈ name.toList, is_left_out c = false ∧ is_mark c = false ∧ to_slash c = c := by
    intro c hc
    have hother := hname.unmarked c hc
    simp only [List.mem_cons, List.not_mem_nil, or_false, not_or] at hother
    simp [is_left_out, is_mark, to_slash, hother]
  have hfilter : name.toList.filter (!is_left_out ·) = name.toList :=
    List.filter_eq_self.mpr fun c hc => by rw [(hplain c hc).1, Bool.not_false]
  have hslashes : name.toList.map to_slash = name.toList :=
    (List.map_congr_left fun c hc => (hplain c hc).2.2).trans (List.map_id _)
  have hmark : ¬ name.toList.any is_mark = true := by
    intro hany
    obtain ⟨c, hc, hmark⟩ := List.any_eq_true.mp hany
    rw [(hplain c hc).2.1] at hmark
    cases hmark
  obtain ⟨segments, last, hsegments, hwhole⟩ := splitOn_call haction name.toList
  have hdots : ∀ segment ∈ (collection ++ (name.toList ++ ':' :: action.gemini_verb.toList)).splitOn '/',
      is_dot segment = false := by
    intro segment hsegment
    rw [hwhole, List.mem_append, List.mem_append, List.mem_singleton] at hsegment
    obtain hfront | hsegment | hlast := hsegment
    · have hcollection : ∀ segment ∈ ["v1beta".toList, "models".toList], is_dot segment = false := by decide
      exact hcollection segment hfront
    · refine hname.dots segment ?_
      rwa [hsegments, List.dropLast_concat]
    · rw [hlast]
      exact not_dot_of_mem (List.mem_append_right last (List.mem_cons_self (a := ':'))) (by decide)
  rw [plain_path, hcalled, path_text_call haction, hfilter, if_neg hmark, hslashes, remove_dots_eq hdots, List.nil_append,
    slashed_splitOn]

theorem call_path_of_plain_name (hname : PlainName name) (hsafe : SafeSet safe) (haction : action ∈ gemini_actions) :
    call_path safe name action =
      String.ofList ("/v1beta/models/".toList ++ percent_encode safe (name.toList ++ ':' :: action.gemini_verb.toList)) := by
  have hfront : percent_encode safe "/v1beta/models/".toList = "/v1beta/models/".toList := by
    refine percent_encode_safe fun c hc => ?_
    have hall : "/v1beta/models/".toList.all (fun c => c.isAlphanum || c == '/') = true := by decide
    have hplain := List.all_eq_true.mp hall c hc
    rw [Bool.or_eq_true, beq_iff_eq] at hplain
    obtain halphanum | hslash := hplain
    · exact hsafe.alphanum c halphanum
    · exact hsafe.marks c (by rw [hslash]; decide)
  have hcollection : '/' :: collection = "/v1beta/models/".toList := by decide
  rw [call_path, url_path, ← plain_path, plain_path_of_plain_name hname haction, ← List.cons_append, hcollection,
    percent_encode_append, hfront]

/-- Such a name comes back with its verb. -/
theorem received_of_plain_name (hsafe : SafeSet safe) (haction : action ∈ gemini_actions) (hname : PlainName name) :
    received_call (call_path safe name action) = some (name, action) := by
  obtain ⟨hletters, front, last, hlast⟩ := verb_plain haction
  have hverb : has_escape (58 :: as_bytes action.gemini_verb) = false := by
    simp only [gemini_actions, List.mem_cons, List.not_mem_nil, or_false] at haction
    obtain rfl | rfl | rfl | rfl | rfl := haction <;> decide
  have hescape : has_escape ((name.toList ++ ':' :: action.gemini_verb.toList).flatMap String.utf8EncodeChar) = false := by
    rw [bytes_call, has_escape_append (by decide), hname.escape, hverb, Bool.or_self]
  have hread : from_utf8 ((name.toList ++ ':' :: action.gemini_verb.toList).flatMap String.utf8EncodeChar) =
      .ok (String.ofList (name.toList ++ ':' :: action.gemini_verb.toList)) := by
    rw [← from_utf8_as_bytes, as_bytes_eq, String.toList_ofList]
  have hspec : gemini_spec (String.ofList (name.toList ++ ':' :: action.gemini_verb.toList)) =
      String.ofList (name.toList ++ ':' :: action.gemini_verb.toList) := by
    have htext : (String.ofList (name.toList ++ ':' :: action.gemini_verb.toList)).toList =
        name.toList ++ ':' :: action.gemini_verb.toList := String.toList_ofList
    refine gemini_spec_eq_self ?_ ?_ ?_ <;> rw [htext]
    · cases hchars : name.toList with
      | nil =>
        rw [List.nil_append, List.head?_cons, Ne, Option.some.injEq]
        decide
      | cons c cs =>
        have hslash := hname.slash
        rwa [hchars] at hslash
    · have hletter := (alpha_plain (hletters last (by rw [hlast]; exact List.mem_append_right _ (List.mem_singleton_self _)))).2.2.2.2
      have hwhole : name.toList ++ ':' :: action.gemini_verb.toList = (name.toList ++ ':' :: front) ++ [last] := by
        rw [hlast, List.append_assoc, List.cons_append]
      rw [hwhole, List.getLast?_concat, Ne, Option.some.injEq]
      exact hletter
    · exact fun hstart => strip_prefix_eq_none hname.collection (prefix_of_prefix_append_cons (by decide) hstart)
  have hcolon : ':' ∉ name.toList := fun hc => hname.unmarked ':' hc (by decide)
  rw [received_call, call_path_of_plain_name hname hsafe haction, route_rest, strip_prefix_of_prefix, Option.bind_some,
    percent_decode_encode hsafe, percent_decode_eq_self hescape, hread]
  rw [show (Except.ok (String.ofList (name.toList ++ ':' :: action.gemini_verb.toList)) : Except Utf8Error String).toOption =
      some (String.ofList (name.toList ++ ':' :: action.gemini_verb.toList)) from rfl, Option.bind_some,
    gemini_action_of_spec haction hcolon (by rw [hspec, String.toList_ofList])]
  rfl

end Calls

section Addresses

variable {Url : Type} {urls : Urls Url} {safe : Char → Bool} {front : String}

/-- Where the names and the verbs are put in, behind a server. -/
def path_template : String := "/v1beta/models/\x7bmodel\x7d:\x7baction\x7d"

/-- A server to the library of addresses: what comes after it and a slash is a path. -/
structure Origin (urls : Urls Url) (safe : Char → Bool) (front : String) : Prop where
  plain : '\x7b' ∉ front.toList
  parse : ∀ rest : String, ∃ url, urls.parse (front ++ "/" ++ rest) = .ok url ∧
    urls.path url = String.ofList (url_path safe rest.toList)
  append_pair : ∀ url key value, urls.path (urls.append_pair url key value) = urls.path url

/-- An address whose calls are those of the gateway's own route on a server. -/
inductive Fronts (front : String) (address : UpstreamAddress) : Prop
  | official (hunofficial : address.unofficial = false) (hfront : front = Protocol.gemini.default_base_url)
  | joined (base : String) (hunofficial : address.unofficial = true) (hfull : address.full_address = false)
      (hbase : given address.base_url = some base)
      (htemplate : ∀ action ∈ gemini_actions,
        join_segments base [(given address.version_prefix).getD Protocol.gemini.default_version_prefix,
          address.path_for .gemini action] = front ++ path_template)
  | full (hunofficial : address.unofficial = true) (hfull : address.full_address = true)
      (hbase : given address.base_url = some (front ++ path_template))

theorem substitute_template (hfront : '\x7b' ∉ front.toList) (name : String) (action : Action) :
    substitute_placeholders (front ++ path_template) action name =
      front ++ "/" ++ String.ofList (call_text (called_name name action) action.gemini_verb) := by
  have hplace : '\x7b' ∈ (front ++ path_template).toList := by
    rw [String.toList_append]
    exact List.mem_append_right _ (by decide)
  have htail {text : List Char} : replace_from "\x7bmodel\x7d".toList text 0 ":\x7baction\x7d".toList = ":\x7baction\x7d".toList := rfl
  have hmodel : replace path_template "\x7bmodel\x7d" name = "/v1beta/models/" ++ (name ++ ":\x7baction\x7d") := by
    have hparts : path_template = "/v1beta/models/" ++ ("\x7bmodel\x7d" ++ ":\x7baction\x7d") := by decide
    rw [hparts, replace_append rfl (by decide)]
    refine congrArg ("/v1beta/models/" ++ ·) (String.toList_inj.mp ?_)
    rw [replace, String.toList_ofList, String.toList_append, replace_from_pattern (by decide), htail, String.toList_append]
  have haction : replace (name ++ ":\x7baction\x7d") "\x7baction\x7d" action.gemini_verb =
      String.ofList (called_name name action ++ ':' :: action.gemini_verb.toList) := by
    have hverb : replace_from "\x7baction\x7d".toList action.gemini_verb.toList 0 "\x7baction\x7d".toList =
        action.gemini_verb.toList := by
      have hwhole := @replace_from_pattern "\x7baction\x7d".toList action.gemini_verb.toList (by decide) []
      rwa [List.append_nil, replace_from, List.append_nil] at hwhole
    have hcolon : ":\x7baction\x7d".toList = ':' :: "\x7baction\x7d".toList := by decide
    rw [replace, String.toList_append, hcolon, replace_from_append_cons (by decide) (by decide), hverb, called_name]
  have hcollection : "/v1beta/models/" = "/" ++ String.ofList collection := by decide
  rw [substitute_placeholders, if_pos hplace, replace_append rfl hfront, replace_append rfl hfront, hmodel,
    replace_append rfl (by decide), haction, hcollection, call_text, @String.ofList_append collection, String.append_assoc, String.append_assoc]

theorem append_gemini_sse_query_path (horigin : Origin urls safe front) (url : Url) (protocol : Protocol) (action : Action) :
    urls.path (append_gemini_sse_query urls url protocol action) = urls.path url := by
  unfold append_gemini_sse_query
  split_ifs
  · rfl
  · rfl
  · exact horigin.append_pair url _ _

/-- The path that a call to an address goes to, unless it does not look like one. -/
theorem resolve_gemini (horigin : Origin urls safe front) {address : UpstreamAddress} (haddress : Fronts front address)
    {action : Action} (haction : action ∈ gemini_actions) (name : String) :
    (∃ url, address.resolve urls .gemini action name = .ok url ∧ urls.path url = call_path safe name action) ∨
      (path_ok .gemini action (call_path safe name action) = false ∧
        ∃ error, address.resolve urls .gemini action name = .error error) := by
  obtain ⟨url, hparsed, hpath⟩ := horigin.parse (String.ofList (call_text (called_name name action) action.gemini_verb))
  rw [String.toList_ofList] at hpath
  have htext := substitute_template horigin.plain name action
  have hsse := append_gemini_sse_query_path horigin url .gemini action
  cases haddress with
  | official hunofficial hfront =>
    have hjoined : join_segments Protocol.gemini.default_base_url
        [Protocol.gemini.default_version_prefix, default_path_for .gemini action] = front ++ path_template := by
      rw [hfront]
      simp only [gemini_actions, List.mem_cons, List.not_mem_nil, or_false] at haction
      obtain rfl | rfl | rfl | rfl | rfl := haction <;> decide +kernel
    refine .inl ⟨append_gemini_sse_query urls url .gemini action, ?_, hsse.trans hpath⟩
    rw [UpstreamAddress.resolve, hunofficial]
    simp only [Bool.not_false, if_true, UpstreamAddress.build_official, hjoined, htext, parse_url, hparsed]
    rfl
  | full hunofficial hfull hbase =>
    refine .inl ⟨url, ?_, hpath⟩
    rw [UpstreamAddress.resolve, hunofficial, hfull, hbase]
    simp only [Bool.not_true, Bool.false_eq_true, if_false, htext, parse_url, hparsed]
    rfl
  | joined base hunofficial hfull hbase htemplate =>
    rw [UpstreamAddress.resolve, hunofficial, hfull, hbase]
    simp only [Bool.not_true, Bool.false_eq_true, if_false, htemplate action haction, htext, parse_url, hparsed,
      Except.mapError, bind, Except.bind]
    cases hok : path_ok .gemini action (urls.path url) with
    | true => exact .inl ⟨append_gemini_sse_query urls url .gemini action, rfl, hsse.trans hpath⟩
    | false =>
      refine .inr ⟨?_, _, rfl⟩
      rwa [hpath] at hok

/-- The path of a call with a name that is kept looks like one. -/
theorem path_ok_of_plain_name (hsafe : SafeSet safe) {name : String} {action : Action} (haction : action ∈ gemini_actions)
    (hname : PlainName name) : path_ok .gemini action (call_path safe name action) = true := by
  obtain ⟨hletters, letters, last, hlast⟩ := verb_plain haction
  have hverb : percent_encode safe (':' :: action.gemini_verb.toList) = ':' :: action.gemini_verb.toList := by
    refine percent_encode_safe fun c hc => ?_
    obtain rfl | hletter := List.mem_cons.mp hc
    · exact hsafe.marks _ (by decide)
    · have halphanum : (c.isAlpha || c.isDigit) = true := by rw [hletters c hletter, Bool.true_or]
      exact hsafe.alphanum c halphanum
  have hpath : (call_path safe name action).toList =
      "/v1beta".toList ++ ("/models/".toList ++ (percent_encode safe name.toList ++ ':' :: action.gemini_verb.toList)) := by
    have hfront : "/v1beta/models/".toList = "/v1beta".toList ++ "/models/".toList := by decide
    rw [call_path_of_plain_name hname hsafe haction, String.toList_ofList, percent_encode_append, hverb, hfront, List.append_assoc]
  have htrimmed : trim_slashes (call_path safe name action) = call_path safe name action := by
    have hletter := (alpha_plain (hletters last (by rw [hlast]; exact List.mem_append_right _ (List.mem_singleton_self _)))).2.2.2.2
    have hwhole : (call_path safe name action).toList =
        ("/v1beta".toList ++ ("/models/".toList ++ (percent_encode safe name.toList ++ ':' :: letters))) ++ [last] := by
      rw [hpath, hlast]
      simp only [List.append_assoc, List.cons_append]
    rw [trim_slashes, hwhole, List.rdropWhile_concat_neg _ _ _ (by simpa using hletter), ← hwhole, String.ofList_toList]
  have hmodels : contains (call_path safe name action) "/models/" = true := by
    rw [contains_iff, hpath]
    exact ⟨"/v1beta".toList, percent_encode safe name.toList ++ ':' :: action.gemini_verb.toList, by rw [List.append_assoc]⟩
  have hsuffix (suffix : String) (h : suffix.toList = ':' :: action.gemini_verb.toList) :
      ends_with (call_path safe name action) suffix = true := by
    rw [ends_with, List.isSuffixOf_iff_suffix, hpath, h, ← List.append_assoc, ← List.append_assoc]
    exact List.suffix_append _ _
  have hnative : Protocol.gemini.path_looks_native (call_path safe name action) = true := by
    rw [Protocol.path_looks_native, htrimmed, hmodels, Bool.or_true]
  simp only [gemini_actions, List.mem_cons, List.not_mem_nil, or_false] at haction
  obtain rfl | rfl | rfl | rfl | rfl := haction
  · exact hnative
  · exact hnative
  · rw [path_ok, htrimmed]
    exact hsuffix _ (by decide)
  · rw [path_ok, htrimmed]
    exact hsuffix _ (by decide)
  · rw [path_ok, htrimmed]
    exact hsuffix _ (by decide)

/-- The call that an address makes is the one that the gateway's own route receives. -/
def ComesBack (urls : Urls Url) (address : UpstreamAddress) (name : String) (action : Action) : Prop :=
  ∃ url, address.resolve urls .gemini action name = .ok url ∧ received_call (urls.path url) = some (name, action)

theorem plain_name_of_comes_back (hsafe : SafeSet safe) (horigin : Origin urls safe front) {address : UpstreamAddress}
    (haddress : Fronts front address) {name : String} {action : Action} (haction : action ∈ gemini_actions)
    (h : ComesBack urls address name action) : PlainName name := by
  obtain ⟨other, hother, hcall⟩ := h
  obtain ⟨url, hresolved, hpath⟩ | ⟨-, error, hresolved⟩ := resolve_gemini horigin haddress haction name
  · rw [← Except.ok.inj (hresolved.symm.trans hother), hpath] at hcall
    exact plain_name_of_received hsafe hcall
  · cases hresolved.symm.trans hother

theorem comes_back_of_plain_name (hsafe : SafeSet safe) (horigin : Origin urls safe front) {address : UpstreamAddress}
    (haddress : Fronts front address) {name : String} {action : Action} (haction : action ∈ gemini_actions)
    (hname : PlainName name) : ComesBack urls address name action := by
  obtain ⟨url, hresolved, hpath⟩ | ⟨hrefused, -⟩ := resolve_gemini horigin haddress haction name
  · exact ⟨url, hresolved, by rw [hpath]; exact received_of_plain_name hsafe haction hname⟩
  · rw [path_ok_of_plain_name hsafe haction hname] at hrefused
    cases hrefused

end Addresses

section Instances

/-- What a path may hold of the characters of seven bits. -/
def path_safe (c : Char) : Bool := 32 < c.toNat && c.toNat < 127 && !"\"#<>?`\x7b\x7d".toList.contains c

theorem path_safe_set : SafeSet path_safe where
  alphanum := by
    intro c hc
    have hcases : (c.isAlpha || c.isDigit) = true := hc
    have hlt : c.toNat < 128 := by
      obtain halpha | hdigit := Bool.or_eq_true_iff.mp hcases
      · have hbounds := alpha_bounds halpha
        omega
      · have hbounds : decide ('0'.val ≤ c.val) = true ∧ decide (c.val ≤ '9'.val) = true := Bool.and_eq_true_iff.mp hdigit
        have hhigh : c.toNat ≤ 57 := UInt32.le_iff_toNat_le.mp (of_decide_eq_true hbounds.2)
        omega
    have hall : ∀ n < 128, (Char.ofNat n).isAlphanum → path_safe (Char.ofNat n) = true := by decide
    rw [← Char.ofNat_toNat c] at hc ⊢
    exact hall c.toNat hlt hc
  marks := by
    intro c hc
    simp only [List.mem_cons, List.not_mem_nil, or_false] at hc
    obtain rfl | rfl | rfl := hc <;> decide

/-- The addresses of one server, by their paths. -/
def server_urls (front : String) : Urls (String × List (String × String)) where
  parse s :=
    match strip_prefix s (front ++ "/") with
    | some rest => .ok (String.ofList (url_path path_safe rest.toList), [])
    | none => .error "relative URL without a base"
  path url := url.1
  query_pairs url := url.2
  append_pair url key value := (url.1, url.2 ++ [(key, value)])

theorem server_origin {front : String} (hfront : '\x7b' ∉ front.toList) : Origin (server_urls front) path_safe front where
  plain := hfront
  parse := by
    intro rest
    have hstrip : strip_prefix (front ++ "/" ++ rest) (front ++ "/") = some rest := by
      rw [ strip_prefix, @String.toList_append (front ++ "/"), if_pos (List.isPrefixOf_iff_prefix.mpr (List.prefix_append _ _)),
        List.drop_left' rfl, String.ofList_toList]
    exact ⟨(String.ofList (url_path path_safe rest.toList), []), by simp only [server_urls, hstrip], rfl⟩
  append_pair := fun _ _ _ => rfl

theorem tuned_name_unmarked : ∀ c ∈ "tuned/gemini 100%".toList, c ∉ [':', '?', '#', '\\', '\t', '\n', '\r'] := by
  have hall : "tuned/gemini 100%".toList.all (fun c => !(List.contains [':', '?', '#', '\\', '\t', '\n', '\r'] c)) = true := by
    decide
  intro c hc
  have hplain := List.all_eq_true.mp hall c hc
  rwa [Bool.not_eq_true', List.contains_eq_mem, decide_eq_false_iff_not] at hplain

def channel_of (name : String) : Channel :=
  { id := 1, owner_id := 1, tags := [], visibility := .shared, user_id := none, name := "relay", kind := .single .gemini,
    credential := ⟨"AIza"⟩, endpoints := [{ protocol := .gemini, models := [⟨name, none⟩] }] }

end Instances

end refract.gateway
