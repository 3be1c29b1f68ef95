import Refract.Codec.Chat.Results
import Refract.Codec.Gemini.Identity
import Refract.Codec.Responses.Items

open refract.core refract.json refract.ir refract.machine

namespace refract.codec

section Documents

def responses.call_id (item : Value) : Option String :=
  if item.get_str "type" = some "function_call" then item.get_str "call_id" else none

def responses.answered_id (item : Value) : Option String :=
  if item.get_str "type" = some "function_call_output" then item.get_str "call_id" else none

def messages.call_id (block : Value) : Option String :=
  if block.get_str "type" = some "tool_use" then block.get_str "id" else none

def messages.answered_id (block : Value) : Option String :=
  if block.get_str "type" = some "tool_result" then block.get_str "tool_use_id" else none

/-- The identifiers of the calls in a request to an upstream. -/
def call_ids : Protocol → Value → List String
  | .chat, body => (array (body.get "messages")).flatMap chat.called
  | .responses, body => (array (body.get "input")).filterMap responses.call_id
  | .messages, body => (array (body.get "messages")).flatMap fun message =>
    (array (message.get "content")).filterMap messages.call_id
  | .gemini, _ => []

/-- The identifiers of the calls that the results in it answer. -/
def answered_ids : Protocol → Value → List String
  | .chat, body => (array (body.get "messages")).filterMap chat.replied
  | .responses, body => (array (body.get "input")).filterMap responses.answered_id
  | .messages, body => (array (body.get "messages")).flatMap fun message =>
    (array (message.get "content")).filterMap messages.answered_id
  | .gemini, _ => []

/-- A document that has the calls and the results of a conversation, in their order. -/
structure Forwards (target : Protocol) (body : Value) (conversation : List Message) : Prop where
  calls : call_ids target body = (conversation.flatMap (·.content)).filterMap use_id
  results : answered_ids target body = (conversation.flatMap (·.content)).filterMap result_id

/-- Calls are the assistant's, and results are another's. -/
def Placed (message : Message) : Prop :=
  message.content.filterMap (if message.role = .assistant then result_id else use_id) = []

end Documents

section Forwarded

variable {serde : Serde}

/-- No part is an item or a block of a protocol. -/
def OtherThan (target : Protocol) (part : ContentPart) : Prop := ∀ value, part ≠ .opaqueBlock target.as_str value

theorem responses.encode_item_ids {part : ContentPart} (h : OtherThan .responses part) :
    (responses.encode_item serde part).filterMap responses.call_id = (use_id part).toList ∧
      (responses.encode_item serde part).filterMap responses.answered_id = (result_id part).toList := by
  cases part with
  | opaqueBlock protocol value =>
    have hprotocol : protocol ≠ "responses" := by
      rintro rfl
      exact h value rfl
    rw [responses.encode_item, if_neg hprotocol]
    exact ⟨rfl, rfl⟩
  | _ => exact ⟨rfl, rfl⟩

theorem responses.encode_message_filterMap {read : Value → Option String} {part_id : ContentPart → Option String}
    (hread : ∀ item : Value, item.get_str "type" = some "message" → read item = none) {message : Message}
    (h : ∀ part ∈ message.content, (responses.encode_item serde part).filterMap read = (part_id part).toList) :
    (responses.encode_message serde message).filterMap read = message.content.filterMap part_id := by
  unfold responses.encode_message
  dsimp only
  rw [List.filterMap_append, List.filterMap_flatMap, List.flatMap_congr h, ← List.filterMap_eq_flatMap_toList]
  split
  · exact List.append_nil _
  · rw [List.filterMap_cons_none (hread _ (by simp))]
    exact List.append_nil _

theorem messages.encode_block_ids {part : ContentPart} (h : OtherThan .messages part) :
    (messages.encode_block part).toList.filterMap messages.call_id = (use_id part).toList ∧
      (messages.encode_block part).toList.filterMap messages.answered_id = (result_id part).toList := by
  cases part with
  | opaqueBlock protocol value =>
    have hprotocol : protocol ≠ "messages" := by
      rintro rfl
      exact h value rfl
    rw [messages.encode_block, if_neg hprotocol]
    exact ⟨rfl, rfl⟩
  | toolResult id name content is_error =>
    rw [messages.encode_block]
    exact ⟨rfl, rfl⟩
  | _ =>
    rw [messages.encode_block]
    exact ⟨rfl, rfl⟩

/-- A message whose calls and results are where they belong is written with all of
    them. -/
theorem chat.encode_message_ids {message : Message} (hrole : message.role ≠ .system) (h : Placed message) :
    (chat.encode_message serde message).flatMap chat.called = message.content.filterMap use_id ∧
      (chat.encode_message serde message).filterMap chat.replied = message.content.filterMap result_id := by
  unfold Placed at h
  by_cases hassistant : message.role = .assistant
  · rw [if_pos hassistant] at h
    have hcalls : chat.calls_of message = message.content.filterMap use_id := if_pos hassistant
    rw [h, ← hcalls]
    rcases @chat.encode_message_called serde message hassistant with ⟨written, hwritten, hcalled, hreplied⟩ | ⟨hwritten, hcalled⟩
    · rw [hwritten, List.flatMap_singleton, List.filterMap_cons_none hreplied]
      exact ⟨hcalled, rfl⟩
    · rw [hwritten, hcalled]
      exact ⟨rfl, rfl⟩
  · rw [if_neg hassistant] at h
    have hanswers : message.role = .user ∨ message.role = .tool := by
      cases hcase : message.role with
      | system => exact absurd hcase hrole
      | assistant => exact absurd hcase hassistant
      | user => exact .inl rfl
      | tool => exact .inr rfl
    have hmarks := @chat.encode_message_marks serde message hanswers
    refine ⟨h ▸ List.flatMap_eq_nil_iff.mpr (chat.called_eq_nil hassistant), ?_⟩
    rw [← chat.results_of_ids, ← chat.marks_names, ← hmarks, List.filterMap_map]
    rfl

section Requests

variable {source : Protocol} {ir : UnifiedRequest} (hkept : ir.extensions.Every (Kept source))

include hkept

theorem chat.encode_request_forwards (h : ∀ message ∈ ir.messages, message.role ≠ .system ∧ Placed message) :
    Forwards .chat (chat.encode_request serde ir) ir.messages := by
  have hmessages : (chat.encode_request serde ir).get "messages" =
      some (.array (chat.encode_system ir ++ ir.messages.flatMap (chat.encode_message serde))) := by
    rw [chat.encode_request, Value.get_object, chat.lookup_restore hkept _ (by unfold Stored; decide)]
    simp [chat.request_fields, List.lookup_cons]
  have hsystem : ∀ written ∈ chat.encode_system ir, chat.called written = [] ∧ chat.replied written = none := by
    intro written hwritten
    unfold chat.encode_system at hwritten
    split at hwritten
    · cases hwritten
    · obtain rfl := List.mem_singleton.mp hwritten
      exact ⟨chat.called_of_role (by simp), if_neg (by simp)⟩
  have hbody : array ((chat.encode_request serde ir).get "messages") =
      chat.encode_system ir ++ ir.messages.flatMap (chat.encode_message serde) := by
    rw [hmessages]
    rfl
  constructor
  · rw [call_ids, hbody, List.flatMap_append, List.flatMap_eq_nil_iff.mpr fun written hwritten => (hsystem written hwritten).1,
      List.nil_append, List.flatMap_assoc, List.filterMap_flatMap]
    exact List.flatMap_congr fun message hmessage => (chat.encode_message_ids (h message hmessage).1 (h message hmessage).2).1
  · rw [answered_ids, hbody, List.filterMap_append,
      List.filterMap_eq_nil_iff.mpr fun written hwritten => (hsystem written hwritten).2,
      List.nil_append, List.filterMap_flatMap, List.filterMap_flatMap]
    exact List.flatMap_congr fun message hmessage => (chat.encode_message_ids (h message hmessage).1 (h message hmessage).2).2

theorem responses.encode_request_forwards (h : ∀ part ∈ ir.messages.flatMap (·.content), OtherThan .responses part) :
    Forwards .responses (responses.encode_request serde ir) ir.messages := by
  have hinput : array ((responses.encode_request serde ir).get "input") = responses.encode_input_items serde ir.messages := by
    rw [responses.encode_request, Value.get_object, responses.lookup_write hkept _ (by unfold Stored; decide)]
    simp [responses.request_fields, List.lookup_append, lookup_member, List.lookup_cons, array]
  have hitem : ∀ message ∈ ir.messages, ∀ part ∈ message.content, OtherThan .responses part := fun message hmessage part hpart =>
    h part (List.mem_flatMap.mpr ⟨message, hmessage, hpart⟩)
  have hcall : ∀ item : Value, item.get_str "type" = some "message" → responses.call_id item = none := fun item hitem =>
    if_neg (by rw [hitem]; decide)
  have hresult : ∀ item : Value, item.get_str "type" = some "message" → responses.answered_id item = none := fun item hitem =>
    if_neg (by rw [hitem]; decide)
  constructor
  · rw [call_ids, hinput, responses.encode_input_items, List.filterMap_flatMap, List.filterMap_flatMap]
    exact List.flatMap_congr fun message hmessage => responses.encode_message_filterMap hcall fun part hpart =>
      (responses.encode_item_ids (hitem message hmessage part hpart)).1
  · rw [answered_ids, hinput, responses.encode_input_items, List.filterMap_flatMap, List.filterMap_flatMap]
    exact List.flatMap_congr fun message hmessage => responses.encode_message_filterMap hresult fun part hpart =>
      (responses.encode_item_ids (hitem message hmessage part hpart)).2

theorem messages.encode_request_forwards (h : ∀ part ∈ ir.messages.flatMap (·.content), OtherThan .messages part) :
    Forwards .messages (messages.encode_request ir) ir.messages := by
  have hmessages : array ((messages.encode_request ir).get "messages") = messages.encode_messages ir.messages := by
    rw [messages.encode_request, Value.get_object, messages.lookup_restore hkept _ (by unfold Stored; decide)]
    simp [messages.request_fields, List.lookup_append, lookup_member, List.lookup_cons, array]
  have hcall : ∀ block : Value, block.get_str "type" = some "text" → messages.call_id block = none := fun block hblock =>
    if_neg (by rw [hblock]; decide)
  have hresult : ∀ block : Value, block.get_str "type" = some "text" → messages.answered_id block = none := fun block hblock =>
    if_neg (by rw [hblock]; decide)
  constructor
  · rw [call_ids, hmessages, messages.filterMap_encode_messages hcall h, messages.encode_blocks_eq, List.filterMap_flatMap,
      List.filterMap_eq_flatMap_toList]
    exact List.flatMap_congr fun part hpart => (messages.encode_block_ids (h part hpart)).1
  · rw [answered_ids, hmessages, messages.filterMap_encode_messages hresult h, messages.encode_blocks_eq, List.filterMap_flatMap,
      List.filterMap_eq_flatMap_toList]
    exact List.flatMap_congr fun part hpart => (messages.encode_block_ids (h part hpart)).2

end Requests

end Forwarded

section Claims

variable {serde : Serde} {raw : Value} {contents : List Value} {ir : UnifiedRequest}

theorem identified_iff (h : decode_request serde .gemini raw = .ok ir) (hcontents : raw.get "contents" = some (.array contents))
    (hanonymous : ∀ entry ∈ contents, ∀ part ∈ gemini.entry_parts entry, gemini.Anonymous part)
    (hanswers : (pair_turns [] (gemini.moves_of serde contents)).isSome = true) :
    (gemini.Identified ir.messages ↔ gemini.Aligned serde contents) ∧
      Forwards .responses (encode_request serde .responses ir) ir.messages ∧
      Forwards .messages (encode_request serde .messages ir) ir.messages ∧
      ((∀ message ∈ ir.messages, Placed message) → Forwards .chat (encode_request serde .chat ir) ir.messages) := by
  have hkept := decode_request_kept h
  have hread := gemini.decode_request_contents h hcontents
  have hother : ∀ target, target ≠ Protocol.gemini → ∀ part ∈ ir.messages.flatMap (·.content), OtherThan target part := by
    rintro target htarget part hpart value rfl
    have hown := gemini.decode_contents_own hread _ hpart _ _ rfl
    cases target with
    | gemini => exact htarget rfl
    | _ => exact absurd hown (by decide)
  refine ⟨gemini.identified_iff_aligned h hcontents hanonymous hanswers, ?_, ?_, fun hplaced => ?_⟩
  · exact responses.encode_request_forwards hkept (hother .responses (by decide))
  · exact messages.encode_request_forwards hkept (hother .messages (by decide))
  · have hspoken := @decode_request_spoken serde .gemini (by decide) raw ir h
    exact chat.encode_request_forwards hkept fun message hmessage => ⟨(hspoken message hmessage).1, hplaced message hmessage⟩

/-- A turn of the model that calls a function, and the turn with the result. -/
def round (arg : String) : List Value :=
  [.object [("role", .string "model"),
      ("parts", .array [.object [("functionCall", .object [("name", .string "f"), ("args", .object [("x", .string arg)])])]])],
    .object [("role", .string "user"),
      ("parts", .array [.object [("functionResponse", .object [("name", .string "f"), ("response", .object [])])]])]]

def gemini_request (contents : List Value) : Value := .object [("contents", .array contents)]

theorem round_identified : ∃ ir, decode_request Serde.compact .gemini (gemini_request (round "a")) = .ok ir ∧
    gemini.Identified ir.messages := by
  obtain ⟨ir, hir⟩ : ∃ ir, decode_request Serde.compact .gemini (gemini_request (round "a")) = .ok ir := ⟨_, rfl⟩
  have hanonymous : ∀ entry ∈ round "a", ∀ part ∈ gemini.entry_parts entry, gemini.Anonymous part := by
    intro entry hentry part hpart obj tool hobj htool
    rcases List.mem_pair.mp hentry with rfl | rfl
    · obtain rfl := List.mem_singleton.mp hpart
      obtain rfl := Value.object.inj hobj
      rcases htool with htool | htool
      · obtain rfl := Option.some.inj htool
        rfl
      · cases htool
    · obtain rfl := List.mem_singleton.mp hpart
      obtain rfl := Value.object.inj hobj
      rcases htool with htool | htool
      · cases htool
      · obtain rfl := Option.some.inj htool
        rfl
  refine ⟨ir, hir, (identified_iff hir rfl hanonymous rfl).1.mpr ⟨?_, _, rfl, ?_⟩⟩
  · exact List.nodup_singleton _
  · intro pair hpair
    obtain rfl := List.mem_singleton.mp hpair
    rfl

/-- The second call of a function has the identifier of the first. -/
theorem rounds_not_identified : ∃ ir, decode_request Serde.compact .gemini (gemini_request (round "a" ++ round "b")) = .ok ir ∧
    (ir.messages.flatMap (·.content)).filterMap use_id = ["f#0", "f#0"] ∧ ¬gemini.Identified ir.messages := by
  refine ⟨_, rfl, rfl, fun h => ?_⟩
  have hdistinct : ["f#0", "f#0"].Nodup := h.distinct
  exact absurd hdistinct (by decide)

end Claims

end refract.codec
