import Refract.Codec.Passage

open refract.core refract.json refract.ir refract.machine

namespace refract.codec

/-- What every protocol can answer: a text, the errands that the model sends, and what the
    answer was counted as. -/
structure Reply where
  id : String
  model : String
  text : Option String
  errands : List Errand
  stop : StopReason
  input_tokens : U64
  output_tokens : U64

namespace Reply

variable (reply : Reply)

def texts : List ContentPart := (reply.text.map ContentPart.text).toList

/-- An answer that ran to its end, unless its tokens ran out. -/
structure Sound : Prop where
  id_ne : reply.id ≠ ""
  worded : reply.text ≠ some ""
  errands : ∀ errand ∈ reply.errands, errand.Sendable
  stops : reply.stop = .maxTokens ∨ reply.stop = if reply.errands.isEmpty then .stop else .toolUse

/-- Parts of an answer. The text may stand before the calls or after them. -/
def Says (content : List ContentPart) : Prop :=
  ∃ calls, List.Forall₂ Makes reply.errands calls ∧ (content = reply.texts ++ calls ∨ content = calls ++ reply.texts)

end Reply

/-- A response that gives an answer. Gemini's reason to stop is kept with it, and the counts
    of the prompt's parts may be lost. -/
structure Gives (reply : Reply) (ir : UnifiedResponse) : Prop where
  id : ir.id = reply.id
  model : ir.model = reply.model
  content : reply.Says ir.content
  stop_reason : ir.stop_reason = some reply.stop
  input_tokens : ir.usage.input_tokens = reply.input_tokens
  output_tokens : ir.usage.output_tokens = reply.output_tokens
  reasoning : ir.usage.reasoning_tokens ≤ ir.usage.output_tokens
  extensions : ir.extensions = [] ∨
    ir.extensions = [("gemini.finishReason", .string (gemini.stop_reason_to_gemini reply.stop))]

variable {serde : Serde} {reply : Reply} {content : List ContentPart} {ir : UnifiedResponse} {uuid : String} {now : Int}

namespace Reply

variable {α : Type}

/-- What an answer consists of. -/
theorem Says.plain (h : reply.Says content) : ∀ part ∈ content, (∃ text, part = .text text) ∨ ∃ errand, Makes errand part := by
  obtain ⟨calls, hcalls, hcontent⟩ := h
  have htexts : ∀ part ∈ reply.texts, ∃ text, part = .text text := fun part hpart => by
    obtain ⟨text, -, rfl⟩ := Option.map_eq_some_iff.mp (Option.mem_toList.mp hpart)
    exact ⟨text, rfl⟩
  have hmade : ∀ part ∈ calls, ∃ errand, Makes errand part := forall_right hcalls fun errand _ hmakes => ⟨errand, hmakes⟩
  intro part hpart
  obtain rfl | rfl := hcontent
  · exact (List.mem_append.mp hpart).imp (htexts part) (hmade part)
  · exact (List.mem_append.mp hpart).symm.imp (htexts part) (hmade part)

/-- What is made of the calls of an answer. -/
theorem Says.flatMap_calls (h : reply.Says content) {f : ContentPart → List α} (htext : ∀ text, f (.text text) = []) :
    ∃ calls, List.Forall₂ Makes reply.errands calls ∧ content.flatMap f = calls.flatMap f := by
  obtain ⟨calls, hcalls, hcontent⟩ := h
  have htexts : reply.texts.flatMap f = [] := by
    refine List.flatMap_eq_nil_iff.mpr fun part hpart => ?_
    obtain ⟨text, -, rfl⟩ := Option.map_eq_some_iff.mp (Option.mem_toList.mp hpart)
    exact htext text
  refine ⟨calls, hcalls, ?_⟩
  obtain rfl | rfl := hcontent
  · rw [List.flatMap_append, htexts, List.nil_append]
  · rw [List.flatMap_append, htexts, List.append_nil]

/-- What is made of its text. -/
theorem Says.filterMap_texts (h : reply.Says content) {f : ContentPart → Option α}
    (hcall : ∀ id name input signature, f (.toolUse id name input signature) = none) : content.filterMap f = reply.texts.filterMap f := by
  obtain ⟨calls, hcalls, hcontent⟩ := h
  have hnone : calls.filterMap f = [] := by
    refine List.filterMap_eq_nil_iff.mpr (forall_right hcalls ?_)
    rintro errand _ ⟨signature, rfl⟩
    exact hcall _ _ _ _
  obtain rfl | rfl := hcontent
  · rw [List.filterMap_append, hnone, List.append_nil]
  · rw [List.filterMap_append, hnone, List.nil_append]

/-- Parts that are written one by one and read back one by one. -/
theorem Says.passed {γ : Type} {write : ContentPart → List γ} {Read : γ → ContentPart → Prop} (h : reply.Says content)
    (htext : ∀ text, ∃ c, write (.text text) = [c] ∧ Read c (.text text))
    (hcall : ∀ errand ∈ reply.errands, ∀ part, Makes errand part → ∃ c d, write part = [c] ∧ Read c d ∧ Makes errand d) :
    ∃ read, List.Forall₂ Read (content.flatMap write) read ∧ reply.Says read := by
  obtain ⟨calls, hcalls, hcontent⟩ := h
  obtain ⟨read, hreads, hread⟩ := forall_passed hcalls hcall
  have htexts : List.Forall₂ Read (reply.texts.flatMap write) reply.texts := by
    rw [texts]
    cases reply.text with
    | none => exact .nil
    | some text =>
      obtain ⟨c, hwrite, hc⟩ := htext text
      change List.Forall₂ Read ([ContentPart.text text].flatMap write) [.text text]
      rw [List.flatMap_singleton, hwrite]
      exact .cons hc .nil
  obtain rfl | rfl := hcontent
  · rw [List.flatMap_append]
    exact ⟨_, List.rel_append htexts hreads, read, hread, .inl rfl⟩
  · rw [List.flatMap_append]
    exact ⟨_, List.rel_append hreads htexts, read, hread, .inr rfl⟩

/-- A response calls a tool exactly where its answer has an errand. -/
theorem Says.any_tool_use (h : reply.Says content) : content.any ContentPart.is_tool_use = !reply.errands.isEmpty := by
  obtain ⟨calls, hcalls, hcontent⟩ := h
  have htexts : reply.texts.any ContentPart.is_tool_use = false := by
    rw [texts]
    cases reply.text <;> rfl
  have hsame : content.any ContentPart.is_tool_use = calls.any ContentPart.is_tool_use := by
    obtain rfl | rfl := hcontent
    · rw [List.any_append, htexts, Bool.false_or]
    · rw [List.any_append, htexts, Bool.or_false]
  rw [hsame]
  generalize reply.errands = errands at hcalls
  cases hcalls with
  | nil => rfl
  | cons hfirst _ =>
    obtain ⟨signature, rfl⟩ := hfirst
    rfl

end Reply

section Messages

theorem messages.decode_blocks_read {raws : List Value} {parts : List ContentPart}
    (h : List.Forall₂ (fun raw part => messages.decode_block serde raw = .ok [part]) raws parts) :
    messages.decode_blocks serde raws = .ok parts := by
  induction h with
  | nil => rw [messages.decode_blocks]
  | cons hfirst _ ih =>
    rw [messages.decode_blocks, hfirst, Except.bind, ih]
    rfl

theorem messages.stop_reason_read (hsound : reply.Sound) :
    messages.decode_stop_reason (messages.encode_stop_reason reply.stop) = reply.stop := by
  obtain hstop | hstop := hsound.stops
  · rw [hstop]
    rfl
  · rw [hstop]
    split <;> rfl

/-- What a written response is read into. -/
theorem messages.decode_written (hext : ∀ out, messages.restore_extensions ir.extensions out [] = out)
    (hcontent : messages.decode_blocks serde (messages.encode_blocks ir.content) = .ok content) :
    messages.decode_response serde now (messages.encode_response ir) = .ok
      { id := ir.id, model := ir.model, created := now, content := content
        stop_reason := (ir.stop_reason.map messages.encode_stop_reason).map messages.decode_stop_reason
        stop_sequence := ir.stop_sequence
        usage := { ir.usage with reasoning_tokens := 0 }
        extensions := [] } := by
  rw [messages.encode_response, hext, ← messages.decode_usage_encode_usage]
  change (messages.decode_blocks serde (messages.encode_blocks ir.content)).map _ = _
  rw [hcontent]
  obtain ⟨id, model, created, parts, stop_reason, stop_sequence, usage, extensions⟩ := ir
  cases stop_reason <;> cases stop_sequence <;> rfl

/-- An answer is the same after a response in this protocol. -/
theorem messages.reply_passes (hsound : reply.Sound) (h : Gives reply ir) :
    ∃ read, messages.decode_response serde now (messages.encode_response ir) = .ok read ∧ Gives reply read := by
  obtain ⟨content, hblocks, hcontent⟩ := @Reply.Says.passed reply ir.content _ messages.part_blocks
    (fun raw part => messages.decode_block serde raw = .ok [part]) h.content
    (fun text => ⟨.object [("type", .string "text"), ("text", .string text)], by rw [messages.part_blocks, messages.encode_block]; rfl,
      by rw [messages.decode_block]; rfl⟩)
    (fun errand herrand part hpart => by
      obtain ⟨raw, read, hwrite, hread, hmakes⟩ := @messages.makes_read serde errand part hpart
      exact ⟨raw, read, hwrite, hread.reads, hmakes⟩)
  have hext : ∀ out, messages.restore_extensions ir.extensions out [] = out := by
    intro out
    obtain hext | hext := h.extensions
    · rw [hext]
      rfl
    · rw [hext]
      rfl
  have hdecoded : messages.decode_blocks serde (messages.encode_blocks ir.content) = .ok content := by
    rw [messages.encode_blocks_eq]
    exact messages.decode_blocks_read hblocks
  refine ⟨_, messages.decode_written hext hdecoded, h.id, h.model, hcontent, ?_, h.input_tokens, h.output_tokens, Fin.zero_le _, .inl rfl⟩
  rw [h.stop_reason]
  exact congrArg some (messages.stop_reason_read hsound)

end Messages

section Gemini

/-- The candidate of a written answer. -/
def gemini.answered (serde : Serde) (content : List ContentPart) (finish : String) : Map :=
  [("content", .object [("parts", .array (content.filterMap (gemini.encode_part serde []))), ("role", .string "model")]),
    ("finishReason", .string finish), ("index", .nat 0)]

/-- A written answer. -/
def gemini.reply_fields (serde : Serde) (ir : UnifiedResponse) (finish : String) : Map :=
  [("candidates", .array [.object (gemini.answered serde ir.content finish)]), ("usageMetadata", gemini.encode_usage ir.usage)] ++
    member "modelVersion" (if ir.model = "" then none else some (.string ir.model)) ++ [("responseId", .string ir.id)]

theorem gemini.encode_response_reply (h : Gives reply ir) :
    gemini.encode_response serde ir = .object (gemini.reply_fields serde ir (gemini.stop_reason_to_gemini reply.stop)) := by
  have hreason := h.stop_reason
  unfold gemini.encode_response gemini.encode_candidate
  rw [hreason]
  obtain hext | hext := h.extensions
  · rw [hext]
    exact congrArg Value.object (List.append_nil _)
  · rw [hext]
    exact congrArg Value.object (List.append_nil _)

/-- The members of a written answer. -/
theorem gemini.reply_members (serde : Serde) (ir : UnifiedResponse) (finish : String) : ∀ obj, obj = gemini.reply_fields serde ir finish →
    Map.get obj "error" = none ∧
    Map.get obj "candidates" = some (.array [.object (gemini.answered serde ir.content finish)]) ∧
    gemini.field obj "usageMetadata" "usage_metadata" = some (gemini.encode_usage ir.usage) ∧
    gemini.field obj "modelVersion" "model_version" = (if ir.model = "" then none else some (.string ir.model)) ∧
    gemini.field obj "responseId" "response_id" = some (.string ir.id) ∧
    gemini.field obj "promptFeedback" "prompt_feedback" = none := by
  rintro _ rfl
  refine ⟨?_, ?_, ?_, ?_, ?_, ?_⟩
  all_goals simp [gemini.reply_fields, gemini.field, Map.get, List.lookup_append, lookup_member, lookup_cons_ite]

/-- The counts of an answer are read back, as the thoughts are counted in. -/
theorem gemini.usage_read {usage : Usage} (hreasoning : usage.reasoning_tokens ≤ usage.output_tokens) :
    ∃ cached, gemini.parse_usage (gemini.encode_usage usage) =
      { input_tokens := usage.input_tokens, output_tokens := usage.output_tokens, cached_input_tokens := cached, cache_write_tokens := 0,
        reasoning_tokens := usage.reasoning_tokens } := by
  have hcandidates : saturating_sub usage.output_tokens usage.reasoning_tokens + usage.reasoning_tokens = usage.output_tokens := by
    have hle : usage.reasoning_tokens.val ≤ usage.output_tokens.val := hreasoning
    have hlt := usage.output_tokens.isLt
    apply Fin.ext
    rw [Fin.val_add, saturating_sub_val, Nat.sub_add_cancel hle, Nat.mod_eq_of_lt hlt]
  have hobject : gemini.encode_usage usage = .object (gemini.usage_members usage) := rfl
  rw [hobject, gemini.parse_usage]
  rw [gemini.usage_members_thoughts, gemini.usage_members_candidates, gemini.usage_members_input, hcandidates]
  exact ⟨_, rfl⟩

theorem gemini.text_read (text : String) : ∃ raw, gemini.part_values serde [] (.text text) = [raw] ∧
    gemini.PartOf serde false raw (.text text) := ⟨.object [("text", .string text)], rfl, fun _ => rfl, rfl⟩

/-- An answer that calls a tool did not simply stop. -/
theorem gemini.stop_reason_read (hsound : reply.Sound) {content : List ContentPart} (hcontent : reply.Says content) :
    (if gemini.stop_reason_from_gemini (gemini.stop_reason_to_gemini reply.stop) = .stop ∧ content.any ContentPart.is_tool_use then
      .toolUse else gemini.stop_reason_from_gemini (gemini.stop_reason_to_gemini reply.stop)) = reply.stop := by
  rw [hcontent.any_tool_use]
  obtain hstop | hstop := hsound.stops
  · rw [hstop]
    rfl
  · rw [hstop]
    cases reply.errands <;> rfl

/-- An answer is the same after a response in this protocol. -/
theorem gemini.reply_passes (hsound : reply.Sound) (h : Gives reply ir) :
    ∃ read, gemini.decode_response serde uuid now (gemini.encode_response serde ir) = .ok read ∧ Gives reply read := by
  rw [gemini.encode_response_reply h]
  obtain ⟨herror, hcandidates, husage, hmodel, hid, hfeedback⟩ :=
    gemini.reply_members serde ir (gemini.stop_reason_to_gemini reply.stop) _ rfl
  generalize gemini.reply_fields serde ir (gemini.stop_reason_to_gemini reply.stop) = obj at herror hcandidates husage hmodel hid hfeedback ⊢
  obtain ⟨content, hparts, hcontent⟩ := @Reply.Says.passed reply ir.content _ (gemini.part_values serde []) (gemini.PartOf serde false)
    h.content gemini.text_read (fun errand herrand part => gemini.makes_read (hsound.errands errand herrand))
  obtain ⟨cached, hcounts⟩ := gemini.usage_read h.reasoning
  have hfirst : gemini.first_candidate obj = some (gemini.answered serde ir.content (gemini.stop_reason_to_gemini reply.stop)) := by
    rw [gemini.first_candidate, hcandidates]
    rfl
  have hfinish : gemini.finish_reason (gemini.first_candidate obj) = some (gemini.stop_reason_to_gemini reply.stop) := by
    rw [hfirst]
    rfl
  have hread : gemini.decode_parts serde (gemini.GeminiStreamDecoder.candidate_parts (gemini.first_candidate obj)) = content := by
    rw [hfirst]
    refine (congrArg (gemini.decode_parts serde) ?_).trans (gemini.decode_parts_read hparts 0)
    exact List.filterMap_eq_flatMap_toList _ _
  have hextensions : gemini.response_extensions obj = [("gemini.finishReason", .string (gemini.stop_reason_to_gemini reply.stop))] := by
    rw [gemini.response_extensions, hcandidates, hfeedback, hfirst]
    rfl
  have hnoerror : gemini.parse_error_body serde (.object obj) = none := by
    have hget : (Value.object obj).get "error" = none := herror
    rw [gemini.parse_error_body, hget]
    rfl
  have hidentity : gemini.GeminiStreamDecoder.response_id uuid obj = ir.id := by
    have hne : ir.id ≠ "" := by
      rw [h.id]
      exact hsound.id_ne
    rw [gemini.GeminiStreamDecoder.response_id, hid]
    simp [gemini.non_empty_str, Value.as_str, Option.filter, hne]
  have hnamed : (gemini.non_empty_str (gemini.field obj "modelVersion" "model_version")).getD "" = ir.model := by
    rw [hmodel]
    by_cases hempty : ir.model = ""
    · rw [if_pos hempty, hempty]
      rfl
    · simp [gemini.non_empty_str, Value.as_str, Option.filter, hempty]
  unfold gemini.decode_response
  dsimp only
  rw [hnoerror, hread]
  refine ⟨_, rfl, hidentity.trans h.id, hnamed.trans h.model, hcontent, ?_, ?_, ?_, ?_, .inr hextensions⟩
  · dsimp only
    rw [gemini.stop_reason, hfinish]
    exact congrArg some (gemini.stop_reason_read hsound hcontent)
  all_goals
    dsimp only
    rw [husage, Option.map_some, Option.getD_some, hcounts]
  · exact h.input_tokens
  · exact h.output_tokens
  · exact h.reasoning

end Gemini

section Chat

/-- Nothing of an answer is a thought or a refusal. -/
theorem chat.nothing_else (hcontent : reply.Says content) :
    chat.reasoning_text content = "" ∧ chat.refusal_text content = none ∧
      content.zipIdx.filterMap (fun entry => chat.dropped_json entry.2 entry.1) = [] := by
  have hplain := hcontent.plain
  refine ⟨?_, ?_, ?_⟩
  · refine (congrArg String.join (List.filterMap_eq_nil_iff.mpr fun part hpart => ?_)).trans rfl
    obtain ⟨text, rfl⟩ | ⟨errand, signature, rfl⟩ := hplain part hpart
    · rfl
    · rfl
  · have hrefusal : content.any ContentPart.is_refusal = false := by
      refine List.any_eq_false.mpr fun part hpart => ?_
      obtain ⟨text, rfl⟩ | ⟨errand, signature, rfl⟩ := hplain part hpart
      · exact Bool.false_ne_true
      · exact Bool.false_ne_true
    rw [chat.refusal_text, hrefusal]
    rfl
  · refine List.filterMap_eq_nil_iff.mpr fun entry hentry => ?_
    have hpart : entry.1 ∈ content := by
      obtain ⟨part, position⟩ := entry
      exact List.fst_mem_of_mem_zipIdx hentry
    obtain ⟨text, heq⟩ | ⟨errand, signature, heq⟩ := hplain entry.1 hpart
    · rw [heq]
      rfl
    · rw [heq]
      rfl

theorem chat.visible_texts (hcontent : reply.Says content) : content.filter chat.is_visible = reply.texts := by
  obtain ⟨calls, hcalls, hcontent⟩ := hcontent
  have hnone : calls.filter chat.is_visible = [] := by
    refine List.filter_eq_nil_iff.mpr (forall_right hcalls ?_)
    rintro errand _ ⟨signature, rfl⟩
    exact Bool.false_ne_true
  have htexts : reply.texts.filter chat.is_visible = reply.texts := by
    rw [Reply.texts]
    cases reply.text <;> rfl
  obtain rfl | rfl := hcontent
  · rw [List.filter_append, hnone, htexts, List.append_nil]
  · rw [List.filter_append, hnone, htexts, List.nil_append]

/-- The message of an answer. -/
def chat.answered (reply : Reply) (tool_calls : List Value) : Map :=
  [("role", .string "assistant"),
    ("content", if reply.texts.isEmpty ∧ ¬tool_calls.isEmpty then .null else chat.content_json reply.texts)] ++
  member "tool_calls" (if tool_calls.isEmpty then none else some (.array tool_calls))

theorem chat.response_message_answered (hcontent : reply.Says content) :
    chat.response_message serde content = chat.answered reply (content.filterMap (chat.tool_call_json serde)) := by
  obtain ⟨hreasoning, hrefusal, -⟩ := chat.nothing_else hcontent
  rw [chat.response_message, hreasoning, hrefusal, chat.visible_texts hcontent]
  simp [chat.answered, member]

/-- The parts of a message are read back, the text first. -/
theorem chat.choice_content_answered (hsound : reply.Sound) (tool_calls : List Value) :
    chat.choice_content serde (some (.object (chat.answered reply tool_calls))) none =
      reply.texts ++ chat.parse_tool_calls serde tool_calls := by
  have hcontent : chat.parse_content (Map.get (chat.answered reply tool_calls) "content") = reply.texts := by
    change chat.parse_content (some (if reply.texts.isEmpty ∧ ¬tool_calls.isEmpty then .null else chat.content_json reply.texts)) = _
    rw [Reply.texts]
    cases htext : reply.text with
    | none => split <;> rfl
    | some text =>
      have hne : text ≠ "" := fun heq => hsound.worded (by rw [htext, heq])
      change chat.parse_content (some (.string ("" ++ text))) = _
      rw [String.empty_append, chat.parse_content, if_neg hne]
      rfl
  cases tool_calls with
  | nil => exact congrArg (fun parts => [] ++ parts ++ [] ++ []) hcontent |>.trans (by simp [chat.parse_tool_calls])
  | cons call calls =>
    refine (congrArg (fun parts => [] ++ parts ++ [] ++ chat.parse_tool_calls serde (call :: calls)) hcontent).trans ?_
    rw [List.nil_append, List.append_nil]

theorem chat.stop_reason_read (hsound : reply.Sound) :
    chat.finish_reason_to_ir (chat.stop_reason_to_finish reply.stop) = reply.stop := by
  obtain hstop | hstop := hsound.stops
  · rw [hstop]
    rfl
  · rw [hstop]
    split <;> rfl

/-- The counts of an answer are read back. -/
theorem chat.usage_read (usage : Usage) :
    ∃ cached, chat.parse_usage (chat.usage_json usage) =
      { input_tokens := usage.input_tokens, output_tokens := usage.output_tokens, cached_input_tokens := cached, cache_write_tokens := 0,
        reasoning_tokens := usage.reasoning_tokens } := by
  have hreasoning : chat.count ((chat.usage_json usage).get "completion_tokens_details") "reasoning_tokens" = usage.reasoning_tokens := by
    have hget : (chat.usage_json usage).get "completion_tokens_details" =
        if 0 < usage.reasoning_tokens then some (.object [("reasoning_tokens", .nat usage.reasoning_tokens.val)]) else none := by
      unfold chat.usage_json
      split <;> split <;> simp [List.lookup_cons]
    have hcount := optional_count usage.reasoning_tokens
    rw [hget]
    split at hcount
    next hsome => rwa [if_pos hsome]
    next hnone => rwa [if_neg hnone]
  rw [chat.parse_usage, chat.usage_json_input, chat.usage_json_output, hreasoning]
  exact ⟨_, rfl⟩

/-- An answer is the same after a response in this protocol. -/
theorem chat.reply_passes (hserde : serde.Lawful) (hsound : reply.Sound) (h : Gives reply ir) :
    ∃ read, chat.decode_response serde now (chat.encode_response serde ir) = .ok read ∧ Gives reply read := by
  obtain ⟨-, -, hdropped⟩ := chat.nothing_else h.content
  have hwritten : chat.encode_response serde ir = .object [("id", .string ir.id), ("object", .string "chat.completion"),
      ("created", .number (.int ir.created)), ("model", .string ir.model),
      ("choices", .array [.object [("index", .nat 0),
        ("message", .object (chat.answered reply (ir.content.filterMap (chat.tool_call_json serde)))),
        ("finish_reason", .string (chat.stop_reason_to_finish reply.stop))]]),
      ("usage", chat.usage_json ir.usage)] := by
    rw [chat.encode_response, h.stop_reason, chat.response_message_answered h.content, hdropped]
    obtain hext | hext := h.extensions
    · rw [hext]
      rfl
    · rw [hext]
      rfl
  obtain ⟨calls, hcalls, hsame⟩ := @Reply.Says.flatMap_calls _ _ _ h.content (fun part => (chat.tool_call_json serde part).toList)
    fun text => rfl
  obtain ⟨read, hraws, hread⟩ := forall_passed hcalls fun errand herrand part => chat.makes_read hserde (hsound.errands errand herrand)
  have hparsed : chat.parse_tool_calls serde (ir.content.filterMap (chat.tool_call_json serde)) = read := by
    rw [List.filterMap_eq_flatMap_toList, hsame]
    exact chat.parse_tool_calls_read hraws
  obtain ⟨cached, hcounts⟩ := chat.usage_read ir.usage
  rw [hwritten]
  have hdecoded : chat.decode_response serde now (.object [("id", .string ir.id), ("object", .string "chat.completion"),
      ("created", .number (.int ir.created)), ("model", .string ir.model),
      ("choices", .array [.object [("index", .nat 0),
        ("message", .object (chat.answered reply (ir.content.filterMap (chat.tool_call_json serde)))),
        ("finish_reason", .string (chat.stop_reason_to_finish reply.stop))]]),
      ("usage", chat.usage_json ir.usage)]) = .ok
        { id := ir.id, model := ir.model, created := ((Value.number (.int ir.created)).as_i64).getD now
          content := chat.choice_content serde (some (.object (chat.answered reply (ir.content.filterMap (chat.tool_call_json serde))))) none
          stop_reason := some (chat.finish_reason_to_ir (chat.stop_reason_to_finish reply.stop))
          usage := chat.parse_usage (chat.usage_json ir.usage) } := rfl
  rw [hdecoded]
  refine ⟨_, rfl, h.id, h.model, ⟨read, hread, .inl ?_⟩, congrArg some (chat.stop_reason_read hsound), ?_, ?_, ?_, .inl rfl⟩
  · rw [← hparsed]
    exact chat.choice_content_answered hsound _
  all_goals
    dsimp only
    rw [hcounts]
  · exact h.input_tokens
  · exact h.output_tokens
  · exact h.reasoning

end Chat

section Responses

theorem responses.call_read (hserde : serde.Lawful) {errand : Errand} (herrand : errand.Sendable) (id : String) {part : ContentPart}
    (h : Makes errand part) : ∃ raw read, responses.encode_output_item serde id part = [raw] ∧
      responses.decode_output_item serde raw = [read] ∧ Makes errand read := by
  obtain ⟨signature, rfl⟩ := h
  have harguments : responses.parse_arguments serde (some (.string (serde.to_string (.object errand.input)))) = .object errand.input := by
    rw [responses.parse_arguments, hserde.trim_to_string _ herrand.input, if_neg (hserde.to_string_ne_empty herrand.input),
      hserde.from_str_to_string _ herrand.input]
    rfl
  refine ⟨_, _, rfl, rfl, none, ?_⟩
  exact congrArg (ContentPart.toolUse errand.id errand.name · none) harguments

theorem responses.decode_output_items_read {raws : List Value} {parts : List ContentPart}
    (h : List.Forall₂ (fun raw part => responses.decode_output_item serde raw = [part]) raws parts) :
    responses.decode_output_items serde raws = parts := by
  induction h with
  | nil => rfl
  | cons hfirst _ ih => exact congrArg₂ (· ++ ·) hfirst ih

/-- The items of an answer are read back, the text last. -/
theorem responses.output_read (hserde : serde.Lawful) (hsound : reply.Sound) (hcontent : reply.Says ir.content) :
    ∃ read, responses.decode_output_items serde (responses.encode_output_items serde ir) = read ∧ reply.Says read := by
  obtain ⟨calls, hcalls, hsame⟩ := hcontent.flatMap_calls
    (fun text => rfl : ∀ text, responses.encode_output_item serde ir.id (.text text) = [])
  obtain ⟨read, hraws, hread⟩ := forall_passed hcalls fun errand herrand part =>
    responses.call_read hserde (hsound.errands errand herrand) ir.id
  have hparts : ir.content.filterMap responses.encode_output_part = reply.texts.filterMap responses.encode_output_part :=
    hcontent.filterMap_texts fun _ _ _ _ => rfl
  refine ⟨read ++ reply.texts, ?_, read, hread, .inr rfl⟩
  rw [responses.encode_output_items, hsame, hparts, responses.decode_output_items, List.flatMap_append]
  refine congrArg₂ (· ++ ·) (responses.decode_output_items_read hraws) ?_
  rw [Reply.texts]
  cases reply.text <;> rfl

theorem responses.stop_reason_read (hsound : reply.Sound) (hcontent : reply.Says content) :
    responses.map_status (responses.status_str reply.stop)
        ((some ((responses.incomplete_details reply.stop).getD .null)).bind (·.get_str "reason")) (content.any ContentPart.is_tool_use)
        (content.any ContentPart.is_refusal) = reply.stop := by
  have hrefusal : content.any ContentPart.is_refusal = false := by
    refine List.any_eq_false.mpr fun part hpart => ?_
    obtain ⟨text, rfl⟩ | ⟨errand, signature, rfl⟩ := hcontent.plain part hpart
    · exact Bool.false_ne_true
    · exact Bool.false_ne_true
  rw [hcontent.any_tool_use, hrefusal]
  obtain hstop | hstop := hsound.stops
  · rw [hstop]
    rfl
  · rw [hstop]
    cases reply.errands <;> rfl

/-- What a written response is read into. -/
theorem responses.decode_written (hext : ∀ out, responses.write_extensions ir.extensions out [] = out) {reason : StopReason}
    (hreason : ir.stop_reason = some reason) (content : List ContentPart)
    (hcontent : responses.decode_output_items serde (responses.encode_output_items serde ir) = content) :
    responses.decode_response serde now (responses.encode_response serde ir) = .ok
      { id := ir.id, model := ir.model, created := ((Value.number (.int ir.created)).as_i64).getD now, content := content
        stop_reason := some (responses.map_status (responses.status_str reason)
          ((some ((responses.incomplete_details reason).getD .null)).bind (·.get_str "reason")) (content.any ContentPart.is_tool_use)
          (content.any ContentPart.is_refusal))
        usage := responses.decode_usage (responses.encode_usage ir.usage) } := by
  rw [responses.encode_response, hext, hreason, ← hcontent, responses.decode_response]
  cases ir.stop_sequence <;> rfl

/-- An answer is the same after a response in this protocol. -/
theorem responses.reply_passes (hserde : serde.Lawful) (hsound : reply.Sound) (h : Gives reply ir) :
    ∃ read, responses.decode_response serde now (responses.encode_response serde ir) = .ok read ∧ Gives reply read := by
  obtain ⟨content, hcontent, hsays⟩ := @responses.output_read serde reply ir hserde hsound h.content
  have hext : ∀ out, responses.write_extensions ir.extensions out [] = out := by
    intro out
    obtain hext | hext := h.extensions
    · rw [hext]
      rfl
    · rw [hext]
      rfl
  have hdecoded := @responses.decode_written serde ir now hext _ h.stop_reason content hcontent
  rw [responses.decode_usage_encode_usage] at hdecoded
  refine ⟨_, hdecoded, h.id, h.model, hsays, ?_, h.input_tokens, h.output_tokens, h.reasoning, .inl rfl⟩
  exact congrArg some (responses.stop_reason_read hsound hsays)

end Responses

/-- An answer is the same after a response in any protocol. -/
theorem reply_passes (hserde : serde.Lawful) (hsound : reply.Sound) (h : Gives reply ir) (protocol : Protocol) :
    ∃ read, decode_response serde uuid now protocol (encode_response serde protocol ir) = .ok read ∧ Gives reply read := by
  cases protocol with
  | chat => exact chat.reply_passes hserde hsound h
  | responses => exact responses.reply_passes hserde hsound h
  | messages => exact messages.reply_passes hsound h
  | gemini => exact gemini.reply_passes hsound h

end refract.codec
