import Mathlib.Data.List.InsertIdx
import Refract.Codec.Chat.Request
import Refract.Json.RoundTrip

open refract.core refract.json refract.ir

namespace refract.codec.chat

/-- A part that a message has no place for. -/
def is_thought : ContentPart → Bool
  | .thinking _ _ | .redactedThinking _ => true
  | _ => false

/-- What the fields of a message can say: a text, then a refusal, then calls. -/
def said (text refusal : Option String) (calls : List (String × String × Map)) : List ContentPart :=
  text.toList.map .text ++ refusal.toList.map .refusal ++
    calls.map fun call => .toolUse call.1 call.2.1 (.object call.2.2) none

/-- Content that is such a message, apart from thoughts anywhere in it. -/
structure Answer (content : List ContentPart) : Prop where
  said : ∃ text refusal calls, content.filter (!is_thought ·) = said text refusal calls ∧
    text ≠ some "" ∧ refusal ≠ some "" ∧ ∀ call ∈ calls, (Value.object call.2.2).WellFormed

/-- Extensions as they are read from responses: those have no thoughts of their
    own, and no error. -/
def Ordinary (ext : Extensions) : Prop :=
  ∀ entry ∈ ext, strip_start entry.1 EXT ≠ some "dropped_thinking" ∧
    (strip_start entry.1 EXT = some "error" → entry.2.is_null = true)

section Dropped

theorem insertIdx_append_length {α : Type} (before after : List α) (a : α) :
    (before ++ after).insertIdx before.length a = before ++ a :: after := by
  induction before with
  | nil => rfl
  | cons b before ih => rw [List.cons_append, List.length_cons, List.insertIdx_succ_cons, ih, List.cons_append]

/-- A thought is read back from its record. -/
theorem dropped_part_json {part : ContentPart} (h : is_thought part = true) {position : Nat} (hlt : position < 18446744073709551616) :
    ∃ item, dropped_json position part = some item ∧ dropped_part item = part ∧
      (item.get "position").bind Value.as_u64 = some ⟨position, hlt⟩ := by
  cases part with
  | thinking text signature =>
    refine ⟨_, rfl, ?_, ?_⟩
    · cases signature <;> rfl
    · rw [Value.get_object, List.cons_append, List.lookup_cons_self, Option.bind_some, Value.as_u64_nat_of_lt hlt]
  | redactedThinking data =>
    refine ⟨_, rfl, rfl, ?_⟩
    rw [Value.get_object, List.lookup_cons_self, Option.bind_some, Value.as_u64_nat_of_lt hlt]
  | _ => cases h

theorem dropped_json_eq_none {part : ContentPart} (h : is_thought part = false) (position : Nat) :
    dropped_json position part = none := by
  cases part with
  | thinking => cases h
  | redactedThinking => cases h
  | _ => rfl

/-- Thoughts that were taken out with their positions go back where they were. -/
theorem restore_dropped_parts_json (done content : List ContentPart) (h : done.length + content.length ≤ 18446744073709551616) :
    restore_dropped_parts ((content.zipIdx done.length).filterMap fun (part, position) => dropped_json position part)
      (done ++ content.filter (!is_thought ·)) = done ++ content := by
  induction content generalizing done with
  | nil => rfl
  | cons part content ih =>
    have hdone : (done ++ [part]).length = done.length + 1 := List.length_append
    have hrest := ih (done ++ [part]) (by rw [hdone]; simp only [List.length_cons] at h; omega)
    rw [hdone, List.append_assoc, List.append_assoc, List.singleton_append, List.singleton_append] at hrest
    rw [List.zipIdx_cons, List.filterMap_cons]
    dsimp only
    cases hthought : is_thought part with
    | false =>
      rw [dropped_json_eq_none hthought, List.filter_cons_of_pos (by simp [hthought])]
      exact hrest
    | true =>
      have hlt : done.length < 18446744073709551616 := by simp only [List.length_cons] at h; omega
      obtain ⟨item, hitem, hpart, hposition⟩ := dropped_part_json hthought hlt
      have hmin : min done.length (done ++ content.filter (!is_thought ·)).length = done.length :=
        Nat.min_eq_left (by rw [List.length_append]; omega)
      rw [hitem, List.filter_cons_of_neg (by simp [hthought]), restore_dropped_parts, List.foldl_cons, hposition, hpart]
      dsimp only [Option.getD_some]
      rw [hmin, insertIdx_append_length]
      exact hrest

end Dropped

section Message

variable {serde : Serde} {content : List ContentPart}

/-- What is read from a list by parts that are no thoughts is in what is left without. -/
theorem filterMap_without_thoughts {β : Type} {f : ContentPart → Option β} (h : ∀ part, is_thought part = true → f part = none) :
    content.filterMap f = (content.filter (!is_thought ·)).filterMap f := by
  rw [List.filterMap_filter]
  refine List.filterMap_congr fun part _ => ?_
  cases hthought : is_thought part with
  | true => exact h part hthought
  | false => rfl

theorem filter_without_thoughts {p : ContentPart → Bool} (h : ∀ part, is_thought part = true → p part = false) :
    content.filter p = (content.filter (!is_thought ·)).filter p := by
  rw [List.filter_filter]
  refine List.filter_congr fun part _ => ?_
  cases hthought : is_thought part with
  | true => rw [h part hthought]; rfl
  | false => simp

variable {text refusal : Option String} {calls : List (String × String × Map)}
  (hsaid : content.filter (!is_thought ·) = said text refusal calls)

include hsaid

theorem visible_said : content.filter is_visible = text.toList.map .text := by
  rw [filter_without_thoughts, hsaid]
  · have hcalls : (calls.map fun call => ContentPart.toolUse call.1 call.2.1 (.object call.2.2) none).filter is_visible = [] := by
      refine List.filter_eq_nil_iff.mpr fun part hpart => ?_
      obtain ⟨call, -, rfl⟩ := List.mem_map.mp hpart
      exact Bool.false_ne_true
    rw [said, List.filter_append, hcalls, List.append_nil]
    cases text <;> cases refusal <;> rfl
  · intro part hpart
    cases part with
    | thinking => rfl
    | redactedThinking => rfl
    | _ => cases hpart

theorem tool_calls_said : content.filterMap (tool_call_json serde) =
    calls.map fun call => .object [("id", .string call.1), ("type", .string "function"),
      ("function", .object [("name", .string call.2.1), ("arguments", .string (serde.to_string (.object call.2.2)))])] := by
  rw [filterMap_without_thoughts, hsaid]
  · have hcalls : ∀ calls : List (String × String × Map), (calls.map fun call =>
        ContentPart.toolUse call.1 call.2.1 (.object call.2.2) none).filterMap (tool_call_json serde) =
          calls.map fun call => .object [("id", .string call.1), ("type", .string "function"),
            ("function", .object [("name", .string call.2.1), ("arguments", .string (serde.to_string (.object call.2.2)))])] := by
      intro calls
      rw [List.filterMap_map, ← List.filterMap_eq_map]
      rfl
    rw [said, List.filterMap_append, hcalls]
    cases text <;> cases refusal <;> rfl
  · intro part hpart
    cases part with
    | thinking => rfl
    | redactedThinking => rfl
    | _ => cases hpart

theorem refusal_text_said : refusal_text content = refusal := by
  have hsame : refusal_text content = refusal_text (content.filter (!is_thought ·)) := by
    rw [refusal_text, refusal_text, filterMap_without_thoughts, List.any_filter]
    · have hrefusal : (fun part => !is_thought part && part.is_refusal) = ContentPart.is_refusal := by
        funext part
        cases part <;> rfl
      rw [hrefusal]
    · intro part hpart
      cases part with
      | thinking => rfl
      | redactedThinking => rfl
      | _ => cases hpart
  have hcalls : ∀ before : List ContentPart, refusal_text (before ++
      calls.map fun call => ContentPart.toolUse call.1 call.2.1 (.object call.2.2) none) = refusal_text before := by
    intro before
    have hnone : (calls.map fun call => ContentPart.toolUse call.1 call.2.1 (.object call.2.2) none).any ContentPart.is_refusal = false := by
      rw [List.any_map]
      exact List.any_eq_false.mpr fun _ _ => Bool.false_ne_true
    have hempty : ∀ f : ContentPart → Option String, (∀ id name input, f (.toolUse id name input none) = none) →
        (calls.map fun call => ContentPart.toolUse call.1 call.2.1 (.object call.2.2) none).filterMap f = [] := by
      intro f hf
      rw [List.filterMap_map]
      exact List.filterMap_eq_nil_iff.mpr fun call _ => hf _ _ _
    rw [refusal_text, refusal_text, List.any_append, hnone, Bool.or_false, List.filterMap_append, hempty _ fun _ _ _ => rfl,
      List.append_nil]
  rw [hsame, hsaid, said, hcalls]
  cases text <;> cases refusal <;> simp [refusal_text, ContentPart.is_refusal]

omit hsaid

theorem reasoning_text_of_no_thoughts (h : ∀ part ∈ content, is_thought part = false) : reasoning_text content = "" := by
  rw [reasoning_text, List.filterMap_eq_nil_iff.mpr fun part hpart => ?_]
  · rfl
  · have hpart := h part hpart
    cases part with
    | thinking => cases hpart
    | _ => rfl

end Message

section RoundTrip

variable {serde : Serde}

/-- The calls of a message are read back. -/
theorem parse_tool_calls_said (hserde : serde.Lawful) {calls : List (String × String × Map)}
    (hcalls : ∀ call ∈ calls, (Value.object call.2.2).WellFormed) :
    parse_tool_calls serde (calls.map fun call => .object [("id", .string call.1), ("type", .string "function"),
      ("function", .object [("name", .string call.2.1), ("arguments", .string (serde.to_string (.object call.2.2)))])]) =
        calls.map fun call => .toolUse call.1 call.2.1 (.object call.2.2) none := by
  rw [parse_tool_calls, List.map_map]
  refine List.map_congr_left fun call hcall => ?_
  have harguments : parse_arguments serde (some (.string (serde.to_string (.object call.2.2)))) = .object call.2.2 := by
    have hblank := hserde.to_string_ne_empty (hcalls call hcall)
    rw [parse_arguments, hserde.trim_to_string _ (hcalls call hcall), if_neg hblank, hserde.from_str_to_string _ (hcalls call hcall)]
    rfl
  exact congrArg (ContentPart.toolUse call.1 call.2.1 · none) harguments

/-- A message is read back, apart from the thoughts it has no place for. -/
theorem choice_content_said (hserde : serde.Lawful) {content : List ContentPart} {text refusal : Option String}
    {calls : List (String × String × Map)} (hsaid : content.filter (!is_thought ·) = said text refusal calls)
    (htext : text ≠ some "") (hrefusal : refusal ≠ some "") (hcalls : ∀ call ∈ calls, (Value.object call.2.2).WellFormed)
    {dropped : Option (List Value)} (hdropped : dropped = none → ∀ part ∈ content, is_thought part = false) :
    choice_content serde (some (.object (response_message serde content))) dropped =
      restore_dropped_parts (dropped.getD []) (said text refusal calls) := by
  have hvisible := visible_said hsaid
  have htools := @tool_calls_said serde _ _ _ _ hsaid
  have hrefused := refusal_text_said hsaid
  have hcontent : parse_content ((Value.object (response_message serde content)).get "content") = text.toList.map .text := by
    change parse_content (some (if _ then _ else _)) = _
    rw [hvisible]
    cases text with
    | none => split <;> rfl
    | some text =>
      have hne : text ≠ "" := fun heq => htext (congrArg some heq)
      rw [if_neg (by simp)]
      simp [content_json, ContentPart.is_text, ContentPart.as_text, ContentPart.texts, parse_content, hne]
  have hrefusal_field : (Value.object (response_message serde content)).get "refusal" = refusal.map .string := by
    rw [Value.get_object, response_message, hrefused]
    simp [List.lookup_append, lookup_member, List.lookup_cons]
  have hcalls_field : (((Value.object (response_message serde content)).get "tool_calls").bind Value.as_array).getD [] =
      content.filterMap (tool_call_json serde) := by
    rw [Value.get_object, response_message]
    cases hempty : content.filterMap (tool_call_json serde) <;> simp [List.lookup_append, lookup_member, List.lookup_cons]
  have hreasoning : dropped = none → (Value.object (response_message serde content)).get "reasoning_content" = none := by
    intro hnone
    rw [Value.get_object, response_message, reasoning_text_of_no_thoughts (hdropped hnone)]
    simp [List.lookup_append, lookup_member, List.lookup_cons]
  have hsaid_parts : (((str (some (.object (response_message serde content))) "refusal").filter (· ≠ "")).map
      ContentPart.refusal).toList = refusal.toList.map .refusal := by
    rw [str, Option.bind_some, Value.get_str, hrefusal_field]
    cases refusal with
    | none => rfl
    | some refusal =>
      have hne : refusal ≠ "" := fun heq => hrefusal (congrArg some heq)
      simp [Option.filter, Value.as_str, hne]
  have hparts : ∀ reasoning : List ContentPart, reasoning = [] →
      reasoning ++ parse_content ((some (Value.object (response_message serde content))).bind (·.get "content")) ++
        (((str (some (.object (response_message serde content))) "refusal").filter (· ≠ "")).map ContentPart.refusal).toList ++
        parse_tool_calls serde ((((some (Value.object (response_message serde content))).bind (·.get "tool_calls")).bind
          Value.as_array).getD []) = said text refusal calls := by
    rintro _ rfl
    rw [Option.bind_some, Option.bind_some, hcontent, hcalls_field, htools, parse_tool_calls_said hserde hcalls, hsaid_parts]
    rfl
  unfold choice_content
  cases dropped with
  | some dropped => exact congrArg (restore_dropped_parts dropped) (hparts [] rfl)
  | none =>
    have hunsaid : str (some (.object (response_message serde content))) "reasoning_content" = none := by
      rw [str, Option.bind_some, Value.get_str, hreasoning rfl]
      rfl
    refine congrArg (restore_dropped_parts []) (hparts _ ?_)
    rw [hunsaid]
    rfl

/-- A field that is written already stays as it is. -/
theorem lookup_restore_of_isSome {ext : Extensions} {body : Map} {key : String} (h : (body.lookup key).isSome = true) :
    (restore_extensions ext body).lookup key = body.lookup key := by
  induction ext generalizing body with
  | nil => rfl
  | cons entry ext ih =>
    rw [restore_extensions, List.foldl_cons]
    dsimp only
    split
    next field hfield =>
      split
      · exact ih h
      next hwritten =>
        have hne : key ≠ field := by
          rintro rfl
          exact hwritten (.inr (.inr h))
        have hsame := Map.get_insert_of_ne body field entry.2 hne
        exact (ih (hsame.symm ▸ h)).trans hsame
    · exact ih h

/-- A field that no extension holds is not written back. -/
theorem lookup_restore_of_forall {ext : Extensions} {body : Map} {key : String} {P : Value → Prop}
    (hext : ∀ entry ∈ ext, strip_start entry.1 EXT = some key → P entry.2) (hbody : ∀ value, body.lookup key = some value → P value) :
    ∀ value, (restore_extensions ext body).lookup key = some value → P value := by
  induction ext generalizing body with
  | nil => exact hbody
  | cons entry ext ih =>
    obtain ⟨hentry, hrest⟩ := List.forall_mem_cons.mp hext
    rw [restore_extensions, List.foldl_cons]
    dsimp only
    split
    next field hfield =>
      split
      · exact ih hrest hbody
      · refine ih hrest fun value hvalue => ?_
        by_cases hkey : key = field
        · subst hkey
          rw [Map.get_insert_self] at hvalue
          exact Option.some.inj hvalue ▸ hentry hfield
        · rw [Map.get_insert_of_ne _ _ _ hkey] at hvalue
          exact hbody value hvalue
    · exact ih hrest hbody

/-- The records of the thoughts of a content. -/
def thoughts (content : List ContentPart) : List Value :=
  content.zipIdx.filterMap fun (part, position) => dropped_json position part

theorem thoughts_eq_nil (content : List ContentPart) (h : content.length ≤ 18446744073709551616) :
    thoughts content = [] ↔ ∀ part ∈ content, is_thought part = false := by
  rw [thoughts, List.filterMap_eq_nil_iff]
  constructor
  · intro hnone part hpart
    obtain ⟨position, hlt, rfl⟩ := List.mem_iff_getElem.mp hpart
    have hmem : (content[position], position) ∈ content.zipIdx := List.mk_mem_zipIdx_iff_getElem?.mpr (List.getElem?_eq_getElem hlt)
    cases hthought : is_thought content[position] with
    | false => rfl
    | true =>
      obtain ⟨item, hitem, -, -⟩ := dropped_part_json hthought (show position < 18446744073709551616 by omega)
      cases hitem.symm.trans (hnone _ hmem)
  · intro hall entry hentry
    have hmem := List.mem_zipIdx hentry
    exact dropped_json_eq_none (hall entry.1 (hmem.2.2 ▸ List.getElem_mem _)) entry.2

/-- What a response is written as, before the protocol's own fields. -/
def response_fields (serde : Serde) (ir : UnifiedResponse) : Map :=
  [("id", .string ir.id), ("object", .string "chat.completion"), ("created", .number (.int ir.created)),
    ("model", .string ir.model), ("choices", .array [.object [("index", .nat 0),
      ("message", .object (response_message serde ir.content)),
      ("finish_reason", (ir.stop_reason.map fun reason => .string (stop_reason_to_finish reason)).getD .null)]]),
    ("usage", usage_json ir.usage)] ++
  member "dropped_thinking" (if (thoughts ir.content).isEmpty then none else some (.array (thoughts ir.content)))

theorem encode_response_fields (ir : UnifiedResponse) :
    encode_response serde ir = .object (restore_extensions ir.extensions (response_fields serde ir)) := rfl

/-- The thoughts are written where there are any, and only then. -/
theorem get_dropped_thinking {ir : UnifiedResponse} (hext : Ordinary ir.extensions) :
    (encode_response serde ir).get "dropped_thinking" =
      if (thoughts ir.content).isEmpty then none else some (.array (thoughts ir.content)) := by
  have hfield : (response_fields serde ir).lookup "dropped_thinking" =
      if (thoughts ir.content).isEmpty then none else some (.array (thoughts ir.content)) := by
    simp [response_fields, lookup_member, List.lookup_cons]
  rw [encode_response_fields, Value.get_object]
  by_cases hempty : (thoughts ir.content).isEmpty = true
  · rw [if_pos hempty] at hfield ⊢
    have hnone := @lookup_restore_of_forall ir.extensions (response_fields serde ir) "dropped_thinking" (fun _ => False)
      (fun entry hentry hstrip => (hext entry hentry).1 hstrip) (fun value hvalue => by cases hfield.symm.trans hvalue)
    exact Option.eq_none_iff_forall_ne_some.mpr hnone
  · rw [if_neg hempty] at hfield ⊢
    rw [lookup_restore_of_isSome (by rw [hfield]; rfl), hfield]

/-- A response of what a message can say, with thoughts anywhere in it, is read
    back as it was. A vector has fewer parts than a machine word can count. -/
theorem decode_response_encode_response (hserde : serde.Lawful) (now : Int) {ir : UnifiedResponse} (hcontent : Answer ir.content)
    (hext : Ordinary ir.extensions) (hlength : ir.content.length ≤ 18446744073709551616) :
    ∃ response, decode_response serde now (encode_response serde ir) = .ok response ∧ response.content = ir.content := by
  obtain ⟨⟨text, refusal, calls, hsaid, htext, hrefusal, hcalls⟩⟩ := hcontent
  have herror : ((encode_response serde ir).get "error").filter (!·.is_null) = none := by
    have hnull := @lookup_restore_of_forall ir.extensions (response_fields serde ir) "error" (fun value => value.is_null = true)
      (fun entry hentry hstrip => (hext entry hentry).2 hstrip) (fun value hvalue => by
        simp [response_fields, lookup_member, List.lookup_cons] at hvalue)
    refine Option.filter_eq_none_iff.mpr fun value hvalue => ?_
    rw [hnull value hvalue]
    exact Bool.false_ne_true
  have hchoices : (encode_response serde ir).get "choices" = some (.array [.object [("index", .nat 0),
      ("message", .object (response_message serde ir.content)),
      ("finish_reason", (ir.stop_reason.map fun reason => .string (stop_reason_to_finish reason)).getD .null)]]) := by
    rw [encode_response_fields, Value.get_object, lookup_restore_of_isSome rfl]
    rfl
  have hdropped := @get_dropped_thinking serde ir hext
  rw [encode_response_fields, Value.get_object] at hchoices hdropped
  have hthoughts : (if (thoughts ir.content).isEmpty then none else some (Value.array (thoughts ir.content))).bind Value.as_array =
      if (thoughts ir.content).isEmpty then none else some (thoughts ir.content) := by
    split <;> rfl
  unfold decode_response
  rw [herror, encode_response_fields]
  refine ⟨_, rfl, ?_⟩
  dsimp only
  rw [Map.get, Map.get, hchoices, hdropped, hthoughts]
  refine (choice_content_said hserde hsaid htext hrefusal hcalls fun hnone => ?_).trans ?_
  · rw [← thoughts_eq_nil ir.content hlength]
    by_contra hne
    rw [if_neg (by simpa using hne)] at hnone
    cases hnone
  · have hitems : (if (thoughts ir.content).isEmpty then none else some (thoughts ir.content)).getD [] = thoughts ir.content := by
      split
      next hempty => exact (List.isEmpty_iff.mp hempty).symm
      · rfl
    rw [hitems, ← hsaid]
    exact restore_dropped_parts_json [] ir.content (by simpa using hlength)

end RoundTrip

section Samples

/-- A response of some content. -/
def answering (content : List ContentPart) : UnifiedResponse := { id := "r", model := "m", created := 0, content := content }

/-- Thoughts before, between and after a text and a call. -/
def thoughtful : List ContentPart :=
  [.redactedThinking "x", .text "a", .thinking "" none, .toolUse "c" "f" (.object []) none, .thinking "b" (some "s")]

theorem decode_response_encode_response_thoughtful :
    ∃ response, decode_response Serde.compact 0 (encode_response Serde.compact (answering thoughtful)) = .ok response ∧
      response.content = thoughtful :=
  @decode_response_encode_response _ Serde.compact_lawful 0 (answering thoughtful)
    ⟨some "a", none, [("c", "f", [])], rfl, by decide, by decide, by simp⟩ (fun entry hentry => by cases hentry) (by decide)

def is_signed_call : ContentPart → Bool
  | .toolUse _ _ _ (some _) => true
  | _ => false

/-- The signature of a call has no place in a message, and an extension may stand
    for an error. -/
theorem signed_call_not_read_back :
    (∃ response, decode_response Serde.compact 0
        (encode_response Serde.compact (answering [.toolUse "c" "f" (.object []) (some "s")])) = .ok response ∧
      response.content ≠ [.toolUse "c" "f" (.object []) (some "s")]) ∧
    ∃ error, decode_response Serde.compact 0
      (encode_response Serde.compact { answering [] with extensions := [("chat.error", .object [])] }) = .error error := by
  refine ⟨⟨_, rfl, fun heq => ?_⟩, _, rfl⟩
  have hsigned := congrArg (List.any · is_signed_call) heq
  revert hsigned
  decide +kernel

end Samples

end refract.codec.chat
