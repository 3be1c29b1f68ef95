import Refract.Codec.Inputs
import Refract.Codec.Responses.Items

open refract.core refract.json refract.ir refract.machine

namespace refract.codec

section Thoughts

/-- What the model thought: a text with its signature, or data that is not shown. -/
inductive Thought where
  | thinking (text : String) (signature : Option String)
  | redacted (data : String)
  deriving DecidableEq

def messages.thought (block : Value) : Option Thought :=
  match (block.get_str "type").getD "" with
  | "thinking" => some (.thinking ((block.get_str "thinking").getD "") (block.get_str "signature"))
  | "redacted_thinking" => some (.redacted ((block.get_str "data").getD ""))
  | _ => none

def messages.answer_thoughts (answer : Value) : List Thought := (array (answer.get "content")).filterMap messages.thought

def messages.request_thoughts (request : Value) : List Thought :=
  (array (request.get "messages")).flatMap fun message => (array (message.get "content")).filterMap messages.thought

/-- A reasoning item says a text, and carries what is encrypted. -/
def responses.thought (item : Value) : Option Thought :=
  if item.get_str "type" = some "reasoning" then
    some (.thinking (responses.reasoning_text (array (item.get "content"))
      (responses.reasoning_text (array (item.get "summary")) "")) (item.get_str "encrypted_content"))
  else none

def part_thought : ContentPart → Option Thought
  | .thinking text signature => some (.thinking text signature)
  | .redactedThinking data => some (.redacted data)
  | _ => none

/-- A thought after a turn through a reasoning item. -/
def Thought.echoed : Thought → Thought
  | .thinking text signature => .thinking text signature
  | .redacted data => .thinking "" (some data)

end Thoughts

section Answer

variable {serde : Serde}

/-- Parts with their thoughts, none of them an item of Responses. -/
structure Thinks (parts : List ContentPart) (thoughts : List Thought) : Prop where
  thoughts : parts.filterMap part_thought = thoughts
  foreign : ∀ part ∈ parts, ∀ value, part ≠ .opaqueBlock "responses" value

theorem Thinks.single {part : ContentPart} {thought : Option Thought} (h : part_thought part = thought)
    (hforeign : ∀ value, part ≠ .opaqueBlock "responses" value) : Thinks [part] thought.toList where
  thoughts := by
    subst h
    rw [List.filterMap_cons, List.filterMap_nil]
    cases part_thought part <;> rfl
  foreign other hother := List.mem_singleton.mp hother ▸ hforeign

theorem messages.decode_block_thinks {block : Value} {parts : List ContentPart}
    (h : messages.decode_block serde block = .ok parts) : Thinks parts (messages.thought block).toList := by
  cases block with
  | string s =>
    rw [messages.decode_block] at h
    obtain rfl := Except.ok.inj h
    exact .single rfl (by simp)
  | object obj =>
    rw [messages.decode_block] at h
    dsimp only at h
    have hthought : messages.thought (.object obj) = match ((Map.get obj "type").bind Value.as_str).getD "" with
      | "thinking" => some (.thinking (((Map.get obj "thinking").bind Value.as_str).getD "") ((Map.get obj "signature").bind Value.as_str))
      | "redacted_thinking" => some (.redacted (((Map.get obj "data").bind Value.as_str).getD ""))
      | _ => none := rfl
    rw [hthought]
    split at h
    next hkind =>
      rw [hkind]
      obtain rfl := Except.ok.inj h
      exact .single rfl (by simp)
    iterate 2
      next hkind =>
        rw [hkind]
        obtain ⟨source, -, rfl⟩ := map_eq_ok.mp h
        exact .single rfl (by simp)
    iterate 2
      next hkind =>
        rw [hkind]
        obtain rfl := Except.ok.inj h
        exact .single rfl (by simp)
    iterate 2
      next hkind =>
        rw [hkind]
        obtain ⟨id, -, h⟩ := bind_eq_ok.mp h
        obtain ⟨content, -, rfl⟩ := map_eq_ok.mp h
        exact .single rfl (by simp)
    · cases h
    next hthinking hredacted _ _ _ =>
      obtain rfl := Except.ok.inj h
      split
      next hkind => exact absurd hkind hthinking
      next hkind => exact absurd hkind hredacted
      · exact .single rfl (by simp)
  | _ =>
    rw [messages.decode_block] at h
    · cases h
    · exact fun s hs => by cases hs
    · exact fun obj hobj => by cases hobj

theorem messages.decode_blocks_thinks {blocks : List Value} {parts : List ContentPart}
    (h : messages.decode_blocks serde blocks = .ok parts) : Thinks parts (blocks.filterMap messages.thought) := by
  induction blocks generalizing parts with
  | nil =>
    rw [messages.decode_blocks] at h
    obtain rfl := Except.ok.inj h
    exact ⟨rfl, by simp⟩
  | cons block blocks ih =>
    rw [messages.decode_blocks] at h
    obtain ⟨first, hfirst, hrest⟩ := bind_eq_ok.mp h
    obtain ⟨rest, hblocks, rfl⟩ := map_eq_ok.mp hrest
    have hblock := messages.decode_block_thinks hfirst
    have hlater := ih hblocks
    refine ⟨?_, fun part hpart => (List.mem_append.mp hpart).elim (hblock.foreign part) (hlater.foreign part)⟩
    rw [List.filterMap_append, hblock.thoughts, hlater.thoughts, List.filterMap_cons]
    cases messages.thought block with
    | none => rfl
    | some thought => rfl

/-- An item of an answer carries its thought. -/
theorem responses.encode_output_item_thoughts {id : String} {part : ContentPart} (h : ∀ value, part ≠ .opaqueBlock "responses" value) :
    (responses.encode_output_item serde id part).filterMap responses.thought =
      ((part_thought part).map Thought.echoed).toList := by
  cases part with
  | thinking text signature =>
    have hread : (responses.encode_output_item serde id (.thinking text signature)).filterMap responses.thought =
        [.thinking (responses.reasoning_text (((responses.summary_json text).as_array).getD []) "") signature] := by
      cases signature with
      | none => rfl
      | some signature => rfl
    rw [hread, responses.reasoning_text_summary]
    rfl
  | opaqueBlock protocol value =>
    have hprotocol : protocol ≠ "responses" := by
      rintro rfl
      exact h value rfl
    rw [responses.encode_output_item, if_neg hprotocol]
    rfl
  | _ => rfl

end Answer

section Request

variable {serde : Serde}

theorem part_thought_eq_none {part : ContentPart} (h : responses.is_content part = true) : part_thought part = none := by
  cases part with
  | thinking => cases h
  | redactedThinking => cases h
  | _ => rfl

theorem responses.message_content_thoughtless (content : Option Value) :
    ∀ part ∈ responses.decode_message_content content, part_thought part = none := by
  intro part hpart
  unfold responses.decode_message_content at hpart
  split at hpart
  · obtain rfl := List.mem_singleton.mp hpart
    rfl
  · obtain ⟨item, -, hitem⟩ := List.mem_filterMap.mp hpart
    exact part_thought_eq_none (responses.is_content_of_decode hitem)
  · cases hpart

/-- What an item says besides instructions is at most its thought. -/
theorem responses.item_thoughts (item : Value) :
    (((responses.item_utterances serde item).filter (·.1 ≠ .system)).map Prod.snd).filterMap part_thought =
      (responses.thought item).toList := by
  cases item with
  | object obj =>
    have hkind : (Value.object obj).get_str "type" = some "reasoning" ↔
        ((Value.object obj).get_str "type").getD (if Map.contains_key obj "role" then "message" else "") = "reasoning" := by
      rw [Option.getD_eq_iff, or_iff_left]
      rintro ⟨-, hdefault⟩
      cases hrole : Map.contains_key obj "role" <;> simp [hrole] at hdefault
    obtain ⟨next, h⟩ := @responses.decode_input_item_ok serde (.object obj) rfl []
    rw [responses.thought, if_congr hkind rfl rfl, responses.item_utterances, h]
    unfold responses.decode_input_item at h
    dsimp only at h ⊢
    split at h
    next hmessage =>
      obtain rfl := Except.ok.inj h
      rw [hmessage, if_neg (by decide)]
      rw [List.nil_append, responses.utterances_singleton]
      refine List.filterMap_eq_nil_iff.mpr fun part hpart => ?_
      obtain ⟨said, hsaid, rfl⟩ := List.mem_map.mp hpart
      obtain ⟨part, hread, rfl⟩ := List.mem_map.mp (List.mem_of_mem_filter hsaid)
      exact responses.message_content_thoughtless _ part hread
    next hcall =>
      obtain rfl := Except.ok.inj h
      rw [hcall, if_neg (by decide)]
      rfl
    next houtput =>
      obtain rfl := Except.ok.inj h
      rw [houtput, if_neg (by decide)]
      rfl
    next hreasoning =>
      obtain rfl := Except.ok.inj h
      rw [hreasoning, if_pos rfl]
      rfl
    next hreasoning =>
      obtain rfl := Except.ok.inj h
      rw [if_neg hreasoning]
      rfl
  | _ => rfl

theorem spoken_eq (messages : List Message) :
    spoken messages = ((responses.utterances messages).filter (·.1 ≠ .system)).map Prod.snd := by
  induction messages with
  | nil => rfl
  | cons message messages ih =>
    rw [← List.singleton_append, spoken_append, responses.utterances_append, List.filter_append, List.map_append, ← ih,
      responses.utterances_singleton, List.filter_map, List.map_map, spoken]
    refine congrArg (· ++ spoken messages) ?_
    by_cases hrole : message.role = .system
    · simp [hrole, Function.comp_def]
    · simp [hrole, Function.comp_def]

theorem messages.encode_block_thoughts {part : ContentPart} (h : Plain part) :
    (messages.encode_block part).toList.filterMap messages.thought = (part_thought part).toList := by
  cases part with
  | opaqueBlock protocol value =>
    obtain rfl : protocol = "responses" := h
    rw [messages.encode_block, if_neg (by decide)]
    rfl
  | thinking text signature =>
    rw [messages.encode_block]
    cases signature with
    | none => rfl
    | some signature => rfl
  | _ =>
    rw [messages.encode_block]
    rfl

theorem messages.encode_blocks_thoughts {content : List ContentPart} (h : ∀ part ∈ content, Plain part) :
    (messages.encode_blocks content).filterMap messages.thought = content.filterMap part_thought := by
  rw [messages.encode_blocks_eq, List.filterMap_flatMap, List.filterMap_eq_flatMap_toList]
  exact List.flatMap_congr fun part hpart => messages.encode_block_thoughts (h part hpart)

/-- The thoughts of a conversation are those that its items carry. -/
theorem responses.decode_input_thoughts {input : Option Value} {system : List ContentPart} {conversation : List Message}
    (h : responses.decode_input serde input = .ok (system, conversation)) :
    (conversation.flatMap (·.content)).filterMap part_thought = (array input).filterMap responses.thought := by
  unfold responses.decode_input at h
  split at h
  · obtain ⟨-, rfl⟩ := Prod.mk.inj (Except.ok.inj h)
    rfl
  next items =>
    obtain ⟨decoded, hdecoded, heq⟩ := map_eq_ok.mp h
    obtain ⟨-, rfl⟩ := Prod.mk.inj heq
    change (spoken decoded).filterMap part_thought = items.filterMap responses.thought
    rw [spoken_eq, responses.decode_input_items_utterances hdecoded, List.filter_flatMap, List.map_flatMap,
      List.filterMap_flatMap, List.filterMap_eq_flatMap_toList]
    exact List.flatMap_congr fun item _ => responses.item_thoughts item
  · cases h
  · obtain ⟨-, rfl⟩ := Prod.mk.inj (Except.ok.inj h)
    rfl

/-- The thoughts that are sent are those that the items carry. -/
theorem request_thoughts_eq {raw : Value} {ir : UnifiedRequest} (h : responses.decode_request serde raw = .ok ir) :
    messages.request_thoughts (messages.encode_request ir) = (array (raw.get "input")).filterMap responses.thought := by
  obtain ⟨hcalls, -⟩ := @decode_request_calls serde .responses (.inr rfl) raw ir h
  have hkept := @decode_request_kept serde raw .responses ir h
  have hmessages : (messages.encode_request ir).get "messages" = some (.array (messages.encode_messages ir.messages)) := by
    rw [messages.encode_request, Value.get_object, messages.lookup_restore hkept _ (by unfold Stored; decide)]
    simp [messages.request_fields, List.lookup_append, lookup_member, List.lookup_cons]
  have htext : ∀ block : Value, block.get_str "type" = some "text" → messages.thought block = none := by
    intro block hblock
    rw [messages.thought, hblock]
    rfl
  obtain ⟨obj, rfl, hread⟩ := responses.decode_request_decodesTo h
  obtain ⟨system, hinput⟩ := hread.conversation
  calc messages.request_thoughts (messages.encode_request ir)
      = (messages.encode_blocks (ir.messages.flatMap (·.content))).filterMap messages.thought := by
        rw [messages.request_thoughts, hmessages]
        exact messages.filterMap_encode_messages htext fun part hpart => (hcalls.plain part hpart).foreign
    _ = (ir.messages.flatMap (·.content)).filterMap part_thought := messages.encode_blocks_thoughts hcalls.plain
    _ = (array (Map.get obj "input")).filterMap responses.thought := responses.decode_input_thoughts hinput

end Request

section Claims

variable {serde : Serde} {now : Int} {answer request : Value} {ir : UnifiedResponse} {next : UnifiedRequest} {before after : List Value}

theorem encode_output_thoughts (h : messages.decode_response serde now answer = .ok ir) :
    (responses.encode_output_items serde ir).filterMap responses.thought = (messages.answer_thoughts answer).map Thought.echoed := by
  obtain ⟨hcontent, hforeign⟩ : Thinks ir.content (messages.answer_thoughts answer) := by
    unfold messages.decode_response at h
    split at h
    next obj =>
      split at h
      · cases h
      · obtain ⟨content, hcontent, rfl⟩ := map_eq_ok.mp h
        exact messages.decode_blocks_thinks hcontent
    · cases h
  have hmessage : ∀ message_parts : List Value, responses.thought (.object [("type", .string "message"),
      ("id", .string ("msg_" ++ ir.id)), ("role", .string "assistant"), ("status", .string "completed"),
      ("content", .array message_parts)]) = none := fun _ => rfl
  have hitems : (ir.content.flatMap (responses.encode_output_item serde ir.id)).filterMap responses.thought =
      (ir.content.filterMap part_thought).map Thought.echoed := by
    rw [List.filterMap_flatMap, List.map_filterMap, List.filterMap_eq_flatMap_toList]
    exact List.flatMap_congr fun part hpart => responses.encode_output_item_thoughts (hforeign part hpart)
  rw [← hcontent, ← hitems]
  unfold responses.encode_output_items
  dsimp only
  rw [List.filterMap_append]
  split
  · exact List.append_nil _
  · rw [List.filterMap_cons_none (hmessage _)]
    exact List.append_nil _

theorem Thought.echoed_eq (thought : Thought) : thought.echoed = thought ↔ ∀ data, thought ≠ .redacted data := by
  cases thought with
  | thinking => simp [Thought.echoed]
  | redacted => simp [Thought.echoed]

theorem messages.thought_redacted {block : Value} :
    (∃ data, messages.thought block = some (.redacted data)) ↔ block.get_str "type" = some "redacted_thinking" := by
  constructor
  · rintro ⟨data, hdata⟩
    unfold messages.thought at hdata
    split at hdata
    · cases hdata
    next hkind => exact (Option.getD_eq_iff.mp hkind).resolve_right (by simp)
    · cases hdata
  · intro hkind
    refine ⟨(block.get_str "data").getD "", ?_⟩
    rw [messages.thought, hkind]
    rfl

/-- What is sent of an answer that comes back among other items. -/
theorem echoed_thoughts_eq (hanswer : messages.decode_response serde now answer = .ok ir)
    (hinput : request.get "input" = some (.array (before ++ responses.encode_output_items serde ir ++ after)))
    (hrequest : responses.decode_request serde request = .ok next) :
    messages.request_thoughts (messages.encode_request next) = before.filterMap responses.thought ++
      (messages.answer_thoughts answer).map Thought.echoed ++ after.filterMap responses.thought := by
  rw [request_thoughts_eq hrequest, hinput, ← encode_output_thoughts hanswer]
  simp [array]

theorem thoughts_survive_iff (hanswer : messages.decode_response serde now answer = .ok ir)
    (hinput : request.get "input" = some (.array (before ++ responses.encode_output_items serde ir ++ after)))
    (hrequest : responses.decode_request serde request = .ok next) :
    messages.request_thoughts (messages.encode_request next) =
        before.filterMap responses.thought ++ messages.answer_thoughts answer ++ after.filterMap responses.thought ↔
      ∀ block ∈ array (answer.get "content"), block.get_str "type" ≠ some "redacted_thinking" := by
  rw [echoed_thoughts_eq hanswer hinput hrequest, List.append_cancel_right_eq, List.append_cancel_left_eq]
  constructor
  · intro hsame block hblock hkind
    obtain ⟨data, hdata⟩ := messages.thought_redacted.mpr hkind
    have hmem : Thought.redacted data ∈ messages.answer_thoughts answer := List.mem_filterMap.mpr ⟨block, hblock, hdata⟩
    rw [← List.map_id (messages.answer_thoughts answer), List.map_map, List.map_inj_left] at hsame
    exact (Thought.echoed_eq _).mp (hsame _ hmem) data rfl
  · intro hshown
    refine (List.map_congr_left fun thought hthought => ?_).trans (List.map_id _)
    obtain ⟨block, hblock, hread⟩ := List.mem_filterMap.mp hthought
    refine (Thought.echoed_eq thought).mpr ?_
    rintro data rfl
    exact hshown block hblock (messages.thought_redacted.mp ⟨data, hread⟩)

/-- An answer with a thought that is signed, and where it is asked for one that is
    not shown. -/
def thinking_answer (more : List Value) : Value :=
  .object [("content", .array (.object [("type", .string "thinking"), ("thinking", .string "t"), ("signature", .string "s")] :: more))]

def echo_request (items : List Value) : Value := .object [("model", .string "m"), ("input", .array items)]

def thinking_response (more : List ContentPart) : UnifiedResponse :=
  { id := "", model := "", created := 0, content := .thinking "t" (some "s") :: more }

theorem decode_thinking_answer {more : List Value} {parts : List ContentPart}
    (h : messages.decode_blocks Serde.compact more = .ok parts) :
    messages.decode_response Serde.compact 0 (thinking_answer more) = .ok (thinking_response parts) := by
  have hblocks : messages.decode_blocks Serde.compact
      (.object [("type", .string "thinking"), ("thinking", .string "t"), ("signature", .string "s")] :: more) =
      .ok (.thinking "t" (some "s") :: parts) := by
    rw [messages.decode_blocks, messages.decode_block, h]
    rfl
  have hread : messages.decode_response Serde.compact 0 (thinking_answer more) =
      (messages.decode_blocks Serde.compact (.object [("type", .string "thinking"), ("thinking", .string "t"),
        ("signature", .string "s")] :: more)).map fun content => { id := "", model := "", created := 0, content := content } := rfl
  rw [hread, hblocks]
  rfl

theorem thoughts_survive_of_signed : ∃ next,
    responses.decode_request Serde.compact (echo_request (responses.encode_output_items Serde.compact (thinking_response []))) =
        .ok next ∧
      messages.request_thoughts (messages.encode_request next) = [.thinking "t" (some "s")] := by
  obtain ⟨next, hnext⟩ : ∃ next, responses.decode_request Serde.compact
      (echo_request (responses.encode_output_items Serde.compact (thinking_response []))) = .ok next := ⟨_, rfl⟩
  have hanswer := @decode_thinking_answer [] [] (by rw [messages.decode_blocks])
  refine ⟨next, hnext, ?_⟩
  have hsame := (@thoughts_survive_iff _ _ _ _ _ _ [] [] hanswer rfl hnext).mpr (by simp [thinking_answer, array])
  exact hsame

theorem redacted_thought_not_survived : ∃ next,
    messages.decode_response Serde.compact 0
        (thinking_answer [.object [("type", .string "redacted_thinking"), ("data", .string "d")]]) =
          .ok (thinking_response [.redactedThinking "d"]) ∧
      responses.decode_request Serde.compact
        (echo_request (responses.encode_output_items Serde.compact (thinking_response [.redactedThinking "d"]))) = .ok next ∧
      messages.request_thoughts (messages.encode_request next) = [.thinking "t" (some "s"), .thinking "" (some "d")] := by
  obtain ⟨next, hnext⟩ : ∃ next, responses.decode_request Serde.compact
      (echo_request (responses.encode_output_items Serde.compact (thinking_response [.redactedThinking "d"]))) = .ok next :=
    ⟨_, rfl⟩
  have hanswer := @decode_thinking_answer [.object [("type", .string "redacted_thinking"), ("data", .string "d")]]
    [.redactedThinking "d"] (by rw [messages.decode_blocks, messages.decode_block, messages.decode_blocks]; rfl)
  exact ⟨next, hanswer, hnext, @echoed_thoughts_eq _ _ _ _ _ _ [] [] hanswer rfl hnext⟩

end Claims

end refract.codec
