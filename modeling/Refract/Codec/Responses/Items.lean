import Refract.Codec.Responses.Request
import Refract.Json.RoundTrip

open refract.core refract.json refract.ir

namespace refract.codec.responses

section Utterances

/-- What is said in a conversation, part by part, with the role that says it. -/
def utterances (messages : List Message) : List (Role × ContentPart) :=
  messages.flatMap fun message => message.content.map (message.role, ·)

theorem utterances_append (messages more : List Message) :
    utterances (messages ++ more) = utterances messages ++ utterances more := List.flatMap_append

theorem utterances_singleton (message : Message) : utterances [message] = message.content.map (message.role, ·) := by
  rw [utterances, List.flatMap_singleton]

/-- A part that joins a message or starts one is said last. -/
theorem utterances_push_into (messages : List Message) (role : Role) (part : ContentPart) :
    utterances (push_into messages role part) = utterances messages ++ [(role, part)] := by
  unfold push_into
  rcases List.eq_nil_or_concat messages with rfl | ⟨init, last, rfl⟩
  · rfl
  · rw [List.concat_eq_append, List.getLast?_concat]
    dsimp only
    split
    next hlast =>
      subst hlast
      rw [List.dropLast_concat, utterances_append, utterances_append, utterances_singleton, utterances_singleton,
        List.map_append, List.append_assoc]
      rfl
    · rw [utterances_append, utterances_singleton]
      rfl

variable (serde : Serde)

/-- What an item says by itself. -/
def item_utterances (item : Value) : List (Role × ContentPart) :=
  match decode_input_item serde [] item with
  | .ok messages => utterances messages
  | .error _ => []

variable {serde}

/-- An item says the same after any messages. -/
theorem decode_input_item_utterances {messages next : List Message} {item : Value}
    (h : decode_input_item serde messages item = .ok next) :
    utterances next = utterances messages ++ item_utterances serde item := by
  unfold item_utterances
  unfold decode_input_item at h ⊢
  split at h
  · dsimp only at h ⊢
    split at h
    · obtain rfl := Except.ok.inj h
      exact utterances_append _ _
    iterate 4
      · obtain rfl := Except.ok.inj h
        exact utterances_push_into _ _ _
  · cases h

theorem decode_input_items_utterances {items : List Value} {messages : List Message}
    (h : decode_input_items serde items = .ok messages) : utterances messages = items.flatMap (item_utterances serde) := by
  have hfrom : ∀ before, items.foldlM (decode_input_item serde) before = .ok messages →
      utterances messages = utterances before ++ items.flatMap (item_utterances serde) := by
    clear h
    induction items with
    | nil =>
      intro before h
      obtain rfl := Except.ok.inj h
      exact (List.append_nil _).symm
    | cons item items ih =>
      intro before h
      rw [List.foldlM_cons] at h
      cases hitem : decode_input_item serde before item with
      | error e =>
        rw [hitem] at h
        cases h
      | ok next =>
        rw [hitem] at h
        rw [ih next h, decode_input_item_utterances hitem, List.append_assoc, List.flatMap_cons]
  exact hfrom [] h

theorem decode_input_item_ok {item : Value} (h : item.is_object = true) (messages : List Message) :
    ∃ next, decode_input_item serde messages item = .ok next := by
  cases item with
  | object obj =>
    unfold decode_input_item
    dsimp only
    split
    iterate 5 exact ⟨_, rfl⟩
  | _ => cases h

/-- Items that are objects are all read. -/
theorem decode_input_items_ok {items : List Value} (h : ∀ item ∈ items, item.is_object = true) :
    ∃ messages, decode_input_items serde items = .ok messages := by
  have hfrom : ∀ before, ∃ messages, items.foldlM (decode_input_item serde) before = .ok messages := by
    induction items with
    | nil => exact fun before => ⟨before, rfl⟩
    | cons item items ih =>
      intro before
      obtain ⟨hitem, hitems⟩ := List.forall_mem_cons.mp h
      obtain ⟨next, hnext⟩ := decode_input_item_ok hitem before
      rw [List.foldlM_cons, hnext]
      exact ih hitems next
  exact hfrom []

end Utterances

section Written

/-- Texts, thoughts, calls and their results, which items can tell. -/
def Told : ContentPart → Prop
  | .text _ | .thinking _ _ | .toolUse _ _ _ _ | .toolResult _ _ _ _ => True
  | _ => False

/-- The turn that a role speaks in. Results are given in the user's. -/
def turn_of : Role → Role
  | .tool => .user
  | role => role

/-- A conversation, part by part, with whose turn it is. -/
def turns (messages : List Message) : List (Role × ContentPart) :=
  (utterances messages).map fun said => (turn_of said.1, said.2)

/-- The turn a part belongs to. A text may be said in any. -/
def part_turn (role : Role) : ContentPart → Role
  | .thinking _ _ | .toolUse _ _ _ _ => .assistant
  | .toolResult _ _ _ _ => .user
  | _ => turn_of role

variable (serde : Serde)

/-- A part as items tell it. The input of a call is read from a text, and a result
    is one text, which says whether it failed. -/
def retold : ContentPart → ContentPart
  | .toolUse id name input _ => .toolUse id name (parse_arguments serde (some (.string (stringify_arguments serde input)))) none
  | .toolResult id _ content is_error => .toolResult id none [.text (tool_output content is_error)] false
  | part => part

/-- The parts of a message in the order of its items, each in its turn. -/
def told (message : Message) : List (Role × ContentPart) :=
  (message.content.filter (!ContentPart.is_text ·) ++ message.content.filter ContentPart.is_text).map fun part =>
    (part_turn message.role part, retold serde part)

variable {serde}

/-- A call with an object for its input is told as it is. -/
theorem retold_toolUse (hserde : serde.Lawful) (id name : String) {input : Map} (hinput : (Value.object input).WellFormed) :
    retold serde (.toolUse id name (.object input) none) = .toolUse id name (.object input) none := by
  have hblank := hserde.to_string_ne_empty hinput
  rw [retold, stringify_arguments, parse_arguments, hserde.trim_to_string _ hinput, if_neg hblank,
    hserde.from_str_to_string _ hinput]
  · rfl
  · exact fun s hs => by cases hs
  · exact fun hs => by cases hs

theorem reasoning_text_summary (text : String) :
    reasoning_text (((summary_json text).as_array).getD []) "" = text := by
  unfold summary_json
  split
  next h => exact h.symm
  · rfl

/-- An item of its own is told in its turn. -/
theorem encode_item_utterances {part : ContentPart} (h : Told part) (role : Role) :
    ((encode_item serde part).flatMap (item_utterances serde)).map (fun said => (turn_of said.1, said.2)) =
      if part.is_text then [] else [(part_turn role part, retold serde part)] := by
  cases part with
  | text => rfl
  | thinking text signature =>
    have hread : ((encode_item serde (.thinking text signature)).flatMap (item_utterances serde)) =
        [(.assistant, .thinking (reasoning_text (((summary_json text).as_array).getD []) "") signature)] := by
      cases signature with
      | none => rfl
      | some signature => rfl
    rw [hread, reasoning_text_summary]
    rfl
  | toolUse => rfl
  | toolResult => rfl
  | _ => cases h

theorem encode_items_utterances {content : List ContentPart} (h : ∀ part ∈ content, Told part) (role : Role) :
    ((content.flatMap (encode_item serde)).flatMap (item_utterances serde)).map (fun said => (turn_of said.1, said.2)) =
      (content.filter (!ContentPart.is_text ·)).map fun part => (part_turn role part, retold serde part) := by
  induction content with
  | nil => rfl
  | cons part content ih =>
    obtain ⟨hpart, hcontent⟩ := List.forall_mem_cons.mp h
    rw [List.flatMap_cons, List.flatMap_append, List.map_append, encode_item_utterances hpart role, ih hcontent]
    cases htext : part.is_text with
    | true => rw [List.filter_cons_of_neg (by simp [htext])]; rfl
    | false => rw [List.filter_cons_of_pos (by simp [htext])]; rfl

/-- The content of a message is read back as its texts. -/
theorem decode_content_texts {content : List ContentPart} (h : ∀ part ∈ content, Told part) (role : Role) :
    (content.filterMap (encode_content_part · role)).filterMap decode_content_part = content.filter ContentPart.is_text := by
  induction content with
  | nil => rfl
  | cons part content ih =>
    obtain ⟨hpart, hcontent⟩ := List.forall_mem_cons.mp h
    have hrest := ih hcontent
    cases part with
    | text text =>
      have hwritten : ∃ value, encode_content_part (.text text) role = some value ∧ decode_content_part value = some (.text text) := by
        cases role with
        | assistant => exact ⟨_, rfl, rfl⟩
        | _ => exact ⟨_, rfl, rfl⟩
      obtain ⟨value, hwrite, hread⟩ := hwritten
      rw [List.filterMap_cons, hwrite]
      dsimp only
      rw [List.filterMap_cons_some hread, hrest]
      rfl
    | thinking => exact hrest
    | toolUse => exact hrest
    | toolResult => exact hrest
    | _ => cases hpart

theorem turn_of_decode_role (role : Role) : turn_of (decode_role (some (role_str role))) = turn_of role := by
  cases role <;> rfl

/-- A message is told as its items and then its texts. -/
theorem encode_message_utterances {message : Message} (h : ∀ part ∈ message.content, Told part) :
    ((encode_message serde message).flatMap (item_utterances serde)).map (fun said => (turn_of said.1, said.2)) =
      told serde message := by
  have htexts : ∀ part ∈ message.content.filter ContentPart.is_text, 
      (part_turn message.role part, retold serde part) = (turn_of message.role, part) := by
    intro part hpart
    have htext := List.of_mem_filter hpart
    cases part with
    | text => rfl
    | _ => cases htext
  have hparts := decode_content_texts h message.role
  rw [encode_message, told, List.map_append, List.flatMap_append, List.map_append, encode_items_utterances h message.role,
    List.map_congr_left htexts]
  refine congrArg _ ?_
  cases hwritten : message.content.filterMap (encode_content_part · message.role) with
  | nil =>
    rw [← hparts, hwritten]
    rfl
  | cons value values =>
    rw [hwritten] at hparts
    have hread : item_utterances serde (.object [("type", .string "message"), ("role", .string (role_str message.role)),
        ("content", .array (value :: values))]) =
        ((value :: values).filterMap decode_content_part).map (decode_role (some (role_str message.role)), ·) :=
      utterances_singleton _
    rw [List.isEmpty_cons, if_neg Bool.false_ne_true, List.flatMap_singleton, hread, hparts, List.map_map]
    exact List.map_congr_left fun part _ => Prod.ext (turn_of_decode_role message.role) rfl

theorem encode_message_is_object {message : Message} (h : ∀ part ∈ message.content, Told part) :
    ∀ item ∈ encode_message serde message, item.is_object = true := by
  intro item hitem
  rw [encode_message] at hitem
  rcases List.mem_append.mp hitem with hitem | hitem
  · obtain ⟨part, hpart, hitem⟩ := List.mem_flatMap.mp hitem
    have htold := h part hpart
    cases part with
    | text => cases hitem
    | thinking => obtain rfl := List.mem_singleton.mp hitem; rfl
    | toolUse => obtain rfl := List.mem_singleton.mp hitem; rfl
    | toolResult => obtain rfl := List.mem_singleton.mp hitem; rfl
    | _ => cases htold
  · split at hitem
    · cases hitem
    · obtain rfl := List.mem_singleton.mp hitem
      rfl

/-- A result that is one text and did not fail is told as it is. -/
theorem retold_toolResult (id text : String) :
    retold serde (.toolResult id none [.text text] false) = .toolResult id none [.text text] false := by
  have htext : tool_output [.text text] false = text := String.empty_append
  rw [retold, htext]

variable {conversation : List Message}

/-- What is written is read back message by message, the parts of each in the
    order of its items. -/
theorem turns_decode_encode (h : ∀ message ∈ conversation, ∀ part ∈ message.content, Told part) :
    ∃ decoded, decode_input_items serde (encode_input_items serde conversation) = .ok decoded ∧
      turns decoded = conversation.flatMap (told serde) := by
  have hobjects : ∀ item ∈ encode_input_items serde conversation, item.is_object = true := by
    intro item hitem
    obtain ⟨message, hmessage, hitem⟩ := List.mem_flatMap.mp hitem
    exact encode_message_is_object (h message hmessage) item hitem
  obtain ⟨decoded, hdecoded⟩ := decode_input_items_ok hobjects
  refine ⟨decoded, hdecoded, ?_⟩
  rw [turns, decode_input_items_utterances hdecoded, encode_input_items, List.flatMap_assoc, List.map_flatMap]
  exact List.flatMap_congr fun message hmessage => encode_message_utterances (h message hmessage)

theorem retold_is_text (part : ContentPart) : (retold serde part).is_text = part.is_text := by
  cases part <;> rfl

/-- The items of a message keep their order among each other, and so do its texts. -/
theorem told_filter (message : Message) (texts : Bool) :
    ((told serde message).map Prod.snd).filter (·.is_text == texts) =
      (message.content.filter (·.is_text == texts)).map (retold serde) := by
  have hkinds : ((message.content.filter (!ContentPart.is_text ·)) ++ message.content.filter ContentPart.is_text).filter
      (·.is_text == texts) = message.content.filter (·.is_text == texts) := by
    rw [List.filter_append, List.filter_filter, List.filter_filter]
    cases texts with
    | true => simp
    | false => simp
  rw [told, List.map_map, List.filter_map, ← hkinds]
  refine congrArg (List.map _) (List.filter_congr fun part _ => ?_)
  exact congrArg (· == texts) (retold_is_text part)

end Written

section Order

variable {serde : Serde} {conversation : List Message}

/-- A call after a text, and its result. -/
def text_before_call : List Message :=
  [{ role := .assistant, content := [.text "a", .toolUse "c" "f" (.object []) none] },
    { role := .tool, content := [.toolResult "c" none [.text "r"] false] }]

end Order

end refract.codec.responses
