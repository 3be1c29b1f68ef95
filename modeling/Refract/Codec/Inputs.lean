import Refract.Codec.Arguments
import Refract.Codec.Thinking

open refract.core refract.json refract.ir refract.machine

namespace refract.codec

section Reading

/-- The inputs of the calls among some blocks of Messages. -/
def messages.inputs (blocks : List Value) : List (Option Value) :=
  (blocks.filter fun block => block.get_str "type" = some "tool_use").map (·.get "input")

/-- The inputs of the calls among some parts of Gemini. -/
def gemini.inputs (parts : List Value) : List (Option Value) := (parts.filterMap (·.get "functionCall")).map (·.get "args")

def array (value : Option Value) : List Value := (value.bind Value.as_array).getD []

/-- The inputs of the calls in a request to an upstream. -/
def request_inputs : Protocol → Value → List (Option Value)
  | .messages, body => (array (body.get "messages")).flatMap fun message => messages.inputs (array (message.get "content"))
  | .gemini, body => (array (body.get "contents")).flatMap fun content => gemini.inputs (array (content.get "parts"))
  | _, _ => []

/-- The inputs of the calls in an answer to a client. -/
def answer_inputs : Protocol → Value → List (Option Value)
  | .messages, body => messages.inputs (array (body.get "content"))
  | .gemini, body => (array (body.get "candidates")).flatMap fun candidate =>
    gemini.inputs (array ((candidate.get "content").bind (·.get "parts")))
  | _, _ => []

end Reading

section Messages

/-- The input of a call, if the block is one. -/
def messages.input (block : Value) : Option (Option Value) :=
  if block.get_str "type" = some "tool_use" then some (block.get "input") else none

theorem messages.inputs_eq_filterMap (blocks : List Value) : messages.inputs blocks = blocks.filterMap messages.input := by
  induction blocks with
  | nil => rfl
  | cons block blocks ih =>
    rw [messages.inputs, List.filter_cons, List.filterMap_cons, messages.input]
    by_cases h : block.get_str "type" = some "tool_use"
    · rw [if_pos (decide_eq_true h), if_pos h, List.map_cons, ← ih]
      rfl
    · rw [if_neg (by simp [h]), if_neg h, ← ih]
      rfl

theorem messages.inputs_append (blocks more : List Value) :
    messages.inputs (blocks ++ more) = messages.inputs blocks ++ messages.inputs more := by
  rw [messages.inputs, List.filter_append, List.map_append]
  rfl

theorem messages.inputs_flatMap {α : Type} (blocks : α → List Value) (items : List α) :
    messages.inputs (items.flatMap blocks) = items.flatMap fun item => messages.inputs (blocks item) := by
  induction items with
  | nil => rfl
  | cons item items ih => rw [List.flatMap_cons, List.flatMap_cons, messages.inputs_append, ih]

theorem messages.encode_blocks_eq (content : List ContentPart) :
    messages.encode_blocks content = content.flatMap fun part => (messages.encode_block part).toList := by
  induction content with
  | nil => rw [messages.encode_blocks]; rfl
  | cons part content ih => rw [messages.encode_blocks, List.flatMap_cons, ih]

/-- The block of a call is written with its input, and no other block is one of a call. -/
theorem messages.inputs_encode_block {part : ContentPart} (h : Plain part) :
    messages.inputs (messages.encode_block part).toList = (tool_input part).toList.map some := by
  cases part with
  | opaqueBlock protocol value =>
    obtain rfl : protocol = "responses" := h
    rw [messages.encode_block, if_neg (by decide)]
    rfl
  | _ => rw [messages.encode_block]; rfl

theorem messages.inputs_encode_blocks {content : List ContentPart} {inputs : List Value} (h : Calls content inputs) :
    messages.inputs (messages.encode_blocks content) = inputs.map some := by
  rw [← h.inputs, messages.encode_blocks_eq, messages.inputs_flatMap, List.filterMap_eq_flatMap_toList, List.map_flatMap]
  exact List.flatMap_congr fun part hpart => messages.inputs_encode_block (h.plain part hpart)

/-- A block of text has a text. -/
def Textual (block : Value) : Prop := block.get_str "type" = some "text" → ∃ s, block.get "text" = some (.string s)

theorem Plain.foreign {part : ContentPart} (h : Plain part) (value : Value) : part ≠ .opaqueBlock "messages" value := by
  rintro rfl
  have hown : "messages" = "responses" := h
  exact absurd hown (by decide)

theorem messages.encode_block_textual {part : ContentPart} (h : ∀ value, part ≠ .opaqueBlock "messages" value) :
    ∀ block ∈ (messages.encode_block part).toList, Textual block := by
  cases part with
  | opaqueBlock protocol value =>
    have hprotocol : protocol ≠ "messages" := by
      rintro rfl
      exact h value rfl
    rw [messages.encode_block, if_neg hprotocol]
    simp
  | text s =>
    intro block hblock _
    rw [messages.encode_block] at hblock
    obtain rfl := List.mem_singleton.mp hblock
    exact ⟨s, rfl⟩
  | refusal s =>
    intro block hblock _
    rw [messages.encode_block] at hblock
    obtain rfl := List.mem_singleton.mp hblock
    exact ⟨s, rfl⟩
  | _ =>
    intro block hblock htype
    rw [messages.encode_block] at hblock
    obtain rfl := List.mem_singleton.mp hblock
    exact absurd htype (by simp)

/-- A text that is written as such is nothing else. -/
theorem messages.filterMap_encode_content {α : Type} {read : Value → Option α}
    (hread : ∀ block : Value, block.get_str "type" = some "text" → read block = none) {blocks : List Value}
    (h : ∀ block ∈ blocks, Textual block) :
    (array (some (messages.encode_content blocks))).filterMap read = blocks.filterMap read := by
  unfold messages.encode_content
  split
  next only =>
    split
    next htext =>
      obtain ⟨s, hs⟩ := h only (List.mem_singleton_self only) htext
      rw [List.filterMap_cons_none (hread only htext), hs]
      rfl
    · rfl
  · rfl

/-- What is read from the blocks of the messages, none of it from a text, is read
    from the conversation. -/
theorem messages.filterMap_encode_messages {α : Type} {read : Value → Option α}
    (hread : ∀ block : Value, block.get_str "type" = some "text" → read block = none) {conversation : List Message}
    (hforeign : ∀ part ∈ conversation.flatMap (·.content), ∀ value, part ≠ .opaqueBlock "messages" value) :
    ((messages.encode_messages conversation).flatMap fun message => (array (message.get "content")).filterMap read) =
      (messages.encode_blocks (conversation.flatMap (·.content))).filterMap read := by
  have hmerged : (messages.merge_messages conversation).flatMap Prod.snd =
      messages.encode_blocks (conversation.flatMap (·.content)) := by
    rw [messages.merge_messages, merge_turns_flatMap, List.flatMap_map, messages.encode_blocks_eq, List.flatMap_assoc]
    exact List.flatMap_congr fun message _ => messages.encode_blocks_eq message.content
  have htextual : ∀ turn ∈ messages.merge_messages conversation, ∀ block ∈ turn.2, Textual block := by
    intro turn hturn block hblock
    have hmem : block ∈ messages.encode_blocks (conversation.flatMap (·.content)) :=
      hmerged ▸ List.mem_flatMap.mpr ⟨turn, hturn, hblock⟩
    rw [messages.encode_blocks_eq] at hmem
    obtain ⟨part, hpart, hblock⟩ := List.mem_flatMap.mp hmem
    exact messages.encode_block_textual (hforeign part hpart) block hblock
  have hturns : ∀ turns : List (String × List Value), (∀ turn ∈ turns, ∀ block ∈ turn.2, Textual block) →
      (turns.flatMap fun turn => (array (some (messages.encode_content turn.2))).filterMap read) =
        (turns.flatMap Prod.snd).filterMap read := by
    intro turns hall
    rw [List.filterMap_flatMap]
    exact List.flatMap_congr fun turn hturn => messages.filterMap_encode_content hread (hall turn hturn)
  rw [← hmerged, ← hturns _ htextual, messages.encode_messages, List.flatMap_map]
  cases messages.merge_messages conversation with
  | nil => rfl
  | cons turn rest =>
    rw [messages.start_with_user]
    split
    · rfl
    · rfl

/-- The inputs in the messages are those in the conversation. -/
theorem messages.inputs_encode_messages {conversation : List Message} {inputs : List Value}
    (h : Calls (conversation.flatMap (·.content)) inputs) :
    ((messages.encode_messages conversation).flatMap fun message => messages.inputs (array (message.get "content"))) =
      inputs.map some := by
  have hread : ∀ block : Value, block.get_str "type" = some "text" → messages.input block = none := by
    intro block htext
    rw [messages.input, htext]
    rfl
  simp only [messages.inputs_eq_filterMap]
  rw [messages.filterMap_encode_messages hread fun part hpart => (h.plain part hpart).foreign, ← messages.inputs_eq_filterMap, messages.inputs_encode_blocks h]

end Messages

section Gemini

theorem gemini.inputs_append (parts more : List Value) :
    gemini.inputs (parts ++ more) = gemini.inputs parts ++ gemini.inputs more := by
  rw [gemini.inputs, List.filterMap_append, List.map_append]
  rfl

theorem gemini.inputs_flatMap {α : Type} (parts : α → List Value) (items : List α) :
    gemini.inputs (items.flatMap parts) = items.flatMap fun item => gemini.inputs (parts item) := by
  induction items with
  | nil => rfl
  | cons item items ih => rw [List.flatMap_cons, List.flatMap_cons, gemini.inputs_append, ih]

variable (serde : Serde) (names : List (String × String))

theorem gemini.inputs_encode_part {part : ContentPart} (h : Plain part) :
    gemini.inputs (gemini.encode_part serde names part).toList = (tool_input part).toList.map some := by
  cases part with
  | opaqueBlock protocol value =>
    obtain rfl : protocol = "responses" := h
    rfl
  | toolUse id name input signature =>
    rw [gemini.encode_part, gemini.call_id]
    split
    · cases signature <;> rfl
    · cases signature <;> rfl
  | thinking text signature => cases signature <;> rfl
  | image source mime detail => cases source <;> rfl
  | audio source format => cases source <;> rfl
  | file source mime name => cases source <;> rfl
  | _ => rfl

theorem gemini.inputs_encode_parts {content : List ContentPart} {inputs : List Value} (h : Calls content inputs) :
    gemini.inputs (content.filterMap (gemini.encode_part serde names)) = inputs.map some := by
  rw [← h.inputs, List.filterMap_eq_flatMap_toList, gemini.inputs_flatMap, List.filterMap_eq_flatMap_toList, List.map_flatMap]
  exact List.flatMap_congr fun part hpart => gemini.inputs_encode_part serde names (h.plain part hpart)

/-- The inputs in the contents are those in the conversation. -/
theorem gemini.inputs_encode_contents {conversation : List Message} {inputs : List Value}
    (h : Calls (conversation.flatMap (·.content)) inputs) (hroles : ∀ message ∈ conversation, message.role ≠ .system) :
    ((gemini.encode_contents serde conversation).flatMap fun content => gemini.inputs (array (content.get "parts"))) =
      inputs.map some := by
  have hspoken : conversation.filter (·.role ≠ .system) = conversation := by
    rw [List.filter_eq_self]
    exact fun message hmessage => decide_eq_true (hroles message hmessage)
  have hturns := merge_turns_flatMap (conversation.map fun message => (gemini.role_to_gemini message.role,
    message.content.filterMap (gemini.encode_part serde (gemini.tool_names conversation))))
  have hparts := gemini.inputs_encode_parts serde (gemini.tool_names conversation) h
  rw [List.flatMap_map] at hturns
  rw [List.filterMap_flatMap, ← hturns, gemini.inputs_flatMap] at hparts
  rw [gemini.encode_contents, gemini.encode_turns, hspoken, List.flatMap_map]
  exact hparts

end Gemini

section Documents

variable {serde : Serde} {source target : Protocol}

/-- The inputs in a request to an upstream are those that its client's arguments
    become. -/
theorem request_inputs_eq (hsource : source = .chat ∨ source = .responses) (htarget : target = .messages ∨ target = .gemini)
    {raw : Value} {ir : UnifiedRequest} (h : decode_request serde source raw = .ok ir) :
    request_inputs target (encode_request serde target ir) =
      (request_arguments source raw).map fun arguments => some (argument_input serde source arguments) := by
  obtain ⟨hcalls, hroles⟩ := decode_request_calls hsource h
  rcases htarget with rfl | rfl
  · have hmessages : (encode_request serde .messages ir).get "messages" = some (.array (messages.encode_messages ir.messages)) := by
      rw [encode_request, messages.encode_request, Value.get_object,
        messages.lookup_restore (decode_request_kept h) _ (by unfold Stored; decide)]
      simp [messages.request_fields, List.lookup_append, lookup_member, List.lookup_cons]
    rw [request_inputs, hmessages, ← Function.comp_def some, ← List.map_map]
    exact messages.inputs_encode_messages hcalls
  · have hcontents : (encode_request serde .gemini ir).get "contents" =
        some (.array (gemini.encode_contents serde ir.messages)) := rfl
    rw [request_inputs, hcontents, ← Function.comp_def some, ← List.map_map]
    exact gemini.inputs_encode_contents serde hcalls hroles

/-- A field that is written already is not written over. -/
theorem messages.lookup_restore_of_isSome {ext : Extensions} {out : Map} {skip : List String} {key : String}
    (h : (out.lookup key).isSome = true) : (messages.restore_extensions ext out skip).lookup key = out.lookup key := by
  induction ext generalizing out with
  | nil => rfl
  | cons entry ext ih =>
    rw [messages.restore_extensions, List.foldl_cons]
    dsimp only
    split
    next field hfield =>
      split
      · exact ih h
      next hwritten =>
        have hne : key ≠ field := by
          rintro rfl
          exact hwritten (.inr h)
        have hsame := Map.get_insert_of_ne out field entry.2 hne
        exact (ih (hsame.symm ▸ h)).trans hsame
    · exact ih h

/-- So are those in an answer to a client. -/
theorem answer_inputs_eq (hsource : source = .chat ∨ source = .responses) (htarget : target = .messages ∨ target = .gemini)
    {uuid : String} {now : Int} {raw : Value} {answer : UnifiedResponse}
    (h : decode_response serde uuid now source raw = .ok answer) :
    answer_inputs target (encode_response serde target answer) =
      (answer_arguments source raw).map fun arguments => some (argument_input serde source arguments) := by
  have hcalls := decode_response_calls hsource h
  rcases htarget with rfl | rfl
  · have hcontent : (encode_response serde .messages answer).get "content" =
        some (.array (messages.encode_blocks answer.content)) := by
      rw [encode_response, messages.encode_response, Value.get_object, messages.lookup_restore_of_isSome rfl]
      rfl
    rw [answer_inputs, hcontent, ← Function.comp_def some, ← List.map_map]
    exact messages.inputs_encode_blocks hcalls
  · have hextra : ∀ extra, answer.extensions.get (gemini.EXT ++ "extraCandidates") ≠ some (.array extra) := by
      intro extra hget
      have hsame := Carries.unique ((decode_response_carried h).get hget) (carries_own .gemini "extraCandidates")
      rcases hsource with rfl | rfl <;> cases hsame
    have hcandidates : (encode_response serde .gemini answer).get "candidates" =
        some (.array [gemini.encode_candidate serde answer]) := by
      rw [encode_response, gemini.encode_response]
      split
      next extra hget => exact absurd hget (hextra extra)
      · rfl
    rw [answer_inputs, hcandidates, ← Function.comp_def some, ← List.map_map]
    exact (List.append_nil _).trans (gemini.inputs_encode_parts serde [] hcalls)

end Documents

end refract.codec
