import Refract.Codec.Inputs
import Refract.Machine.Replies

open refract.core refract.json refract.ir refract.machine

namespace refract.codec

section Rules

/-- The identifier of a call. -/
def use_id : ContentPart → Option String
  | .toolUse id _ _ _ => some id
  | _ => none

/-- The identifier of the call that a result is one of. -/
def result_id : ContentPart → Option String
  | .toolResult id _ _ _ => some id
  | _ => none

def Returns (result call : ContentPart) : Prop := (use_id call).isSome ∧ use_id call = result_id result

instance Returns.decidable : DecidableRel Returns := fun result call =>
  inferInstanceAs (Decidable ((use_id call).isSome ∧ use_id call = result_id result))

/-- Every result of a call directly follows the turn of the assistant that made it. -/
def ResultsFollow (conversation : List Message) : Prop :=
  Following Role.assistant (fun part => part.is_tool_result = true) Returns [] false
    (conversation.map fun message => (message.role, message.content))

instance ResultsFollow.decidable (conversation : List Message) : Decidable (ResultsFollow conversation) :=
  inferInstanceAs (Decidable (Following _ _ _ _ _ _))

/-- The functions that identifiers are given to. -/
def named (parts : List ContentPart) : List (String × String) :=
  parts.filterMap fun part =>
    match part with
    | .toolUse id name _ _ | .toolResult id (some name) _ _ => some (id, name)
    | _ => none

/-- An identifier stands for calls of one function only. -/
def OneName (conversation : List Message) : Prop :=
  ∀ given ∈ named (conversation.flatMap (·.content)), ∀ other ∈ named (conversation.flatMap (·.content)),
    given.1 = other.1 → given.2 = other.2

/-- A result of a call names the block of the call. -/
def messages.ResultOf (result call : Value) : Prop :=
  call.get_str "type" = some "tool_use" ∧ ∃ id, result.get "tool_use_id" = some (.string id) ∧ call.get "id" = some (.string id)

/-- The rules for the messages of a request. -/
structure messages.Proper (conversation : List Value) : Prop where
  starts : ∀ first ∈ conversation.head?, first.get_str "role" = some "user"
  roles : ∀ message ∈ conversation, message.get_str "role" = some "user" ∨ message.get_str "role" = some "assistant"
  alternating : conversation.IsChain fun message next => message.get_str "role" ≠ next.get_str "role"
  nonempty : ∀ message ∈ conversation, ∃ content, message.get "content" = some content ∧ content ≠ .array []
  answered : Answered (some "assistant") (fun block : Value => block.get_str "type" = some "tool_result") messages.ResultOf
    (conversation.map fun message => (message.get_str "role", array (message.get "content")))

/-- The rules for a request that thinks. A temperature is 1 as far as a machine
    number can tell. -/
structure messages.Thoughtful (body : Value) : Prop where
  budget : ∃ budget max_tokens, (body.get "thinking").bind (·.get "budget_tokens") = some (.nat budget) ∧
    body.get "max_tokens" = some (.nat max_tokens) ∧ 1024 ≤ budget ∧ budget < max_tokens
  temperature : ∀ t, body.get "temperature" = some t →
    ∃ number, as_f64 t = some number ∧ 1 - F64.EPSILON ≤ number.value ∧ number.value ≤ 1 + F64.EPSILON
  top_p : ∀ p, body.get "top_p" = some p → ∃ number, as_f64 p = some number ∧ mkRat 95 100 ≤ number.value
  top_k : body.get "top_k" = none

/-- A part with the result of a call. -/
def gemini.is_response (part : Value) : Bool := ((part.get "functionResponse").bind Value.as_object).isSome

/-- A result of a call has the identifier and the name of the call. -/
def gemini.ResultOf (result call : Value) : Prop :=
  ∃ response made, result.get "functionResponse" = some (.object response) ∧ call.get "functionCall" = some (.object made) ∧
    Map.get response "id" = Map.get made "id" ∧ Map.get response "name" = Map.get made "name"

/-- The rules for the contents of a request. -/
structure gemini.Proper (contents : List Value) : Prop where
  roles : ∀ content ∈ contents, content.get_str "role" = some "user" ∨ content.get_str "role" = some "model"
  alternating : contents.IsChain fun content next => content.get_str "role" ≠ next.get_str "role"
  nonempty : ∀ content ∈ contents, array (content.get "parts") ≠ []

/-- Every result of a call is in the turn directly after its call. -/
def gemini.Responds (contents : List Value) : Prop :=
  Answered (some "model") (fun part => gemini.is_response part = true) gemini.ResultOf
    (contents.map fun content => (content.get_str "role", array (content.get "parts")))

end Rules

section Decoded

/-- Nothing that Messages keeps for itself, and no result among what Gemini does. -/
def Admissible : ContentPart → Prop
  | .opaqueBlock protocol value => protocol ≠ "messages" ∧ (protocol = "gemini" → gemini.is_response value = false)
  | _ => True

theorem Plain.admissible {part : ContentPart} (h : Plain part) : Admissible part := by
  cases part with
  | opaqueBlock protocol value =>
    obtain rfl : protocol = "responses" := h
    exact ⟨by decide, fun h => absurd h (by decide)⟩
  | _ => trivial

variable {serde : Serde}

/-- An object under neither spelling is none under the first. -/
theorem gemini.get_of_field {obj : Map} {camel snake : String} (h : (gemini.field obj camel snake).bind Value.as_object = none) :
    (Map.get obj camel).bind Value.as_object = none := by
  unfold gemini.field at h
  cases hget : Map.get obj camel with
  | none => rfl
  | some value =>
    rw [hget] at h
    exact h

theorem gemini.media_part_admissible (source : MediaSource) (mime : Option String) :
    Admissible (gemini.media_part source mime) := by
  unfold gemini.media_part
  dsimp only
  split
  · trivial
  · split
    · trivial
    · trivial

theorem gemini.decode_part_admissible {raw : Value} {index : Nat} {part : ContentPart}
    (h : gemini.decode_part serde raw index = some part) : Admissible part := by
  unfold gemini.decode_part at h
  split at h
  next obj =>
    split at h
    · split at h
      · obtain rfl := Option.some.inj h
        trivial
      · obtain rfl := Option.some.inj h
        trivial
    · split at h
      · obtain rfl := Option.some.inj h
        exact gemini.media_part_admissible _ _
      · split at h
        · obtain rfl := Option.some.inj h
          exact gemini.media_part_admissible _ _
        · split at h
          · obtain rfl := Option.some.inj h
            trivial
          · split at h
            · obtain rfl := Option.some.inj h
              trivial
            next hresponse =>
              obtain rfl := Option.some.inj h
              refine ⟨by decide, fun _ => ?_⟩
              change ((Map.get obj "functionResponse").bind Value.as_object).isSome = false
              rw [gemini.get_of_field hresponse]
              rfl
  · cases h

theorem gemini.decode_parts_admissible (parts : List Value) : ∀ part ∈ gemini.decode_parts serde parts, Admissible part := by
  suffices h : ∀ index, ∀ part ∈ gemini.decode_parts_from serde index parts, Admissible part from h 0
  induction parts with
  | nil => exact fun _ _ hpart => absurd hpart List.not_mem_nil
  | cons raw parts ih =>
    intro index part hpart
    rw [gemini.decode_parts_from] at hpart
    rcases List.mem_append.mp hpart with hpart | hpart
    · exact gemini.decode_part_admissible (Option.mem_toList.mp hpart)
    · exact ih _ part hpart

/-- A message that may be written for any upstream, and is none of the system. -/
def Spoken (message : Message) : Prop := message.role ≠ .system ∧ ∀ part ∈ message.content, Admissible part

theorem gemini.decode_content_spoken {entry : Value} {message : Message} (h : gemini.decode_content serde entry = .ok message) :
    Spoken message := by
  unfold gemini.decode_content at h
  split at h
  next obj =>
    dsimp only at h
    obtain rfl := Except.ok.inj h
    have htool : ∀ {role : Role} {P : Prop} [Decidable P], role ≠ .system → (if P then Role.tool else role) ≠ .system := by
      intro role P _ hrole
      split
      · decide
      · exact hrole
    refine ⟨htool ?_, gemini.decode_parts_admissible _⟩
    split
    · decide
    · decide
    · decide
  · cases h

theorem gemini.decode_contents_spoken {contents : List Value} {conversation : List Message}
    (h : gemini.decode_contents serde contents = .ok conversation) : ∀ message ∈ conversation, Spoken message := by
  induction contents generalizing conversation with
  | nil =>
    obtain rfl := Except.ok.inj h
    exact fun _ hmessage => absurd hmessage List.not_mem_nil
  | cons entry contents ih =>
    rw [gemini.decode_contents] at h
    obtain ⟨message, hmessage, h⟩ := bind_eq_ok.mp h
    obtain ⟨rest, hrest, rfl⟩ := map_eq_ok.mp h
    exact List.forall_mem_cons.mpr ⟨gemini.decode_content_spoken hmessage, ih hrest⟩

/-- A request of another protocol than Messages is read into such messages. -/
theorem decode_request_spoken {source : Protocol} (hsource : source ≠ .messages) {raw : Value} {ir : UnifiedRequest}
    (h : decode_request serde source raw = .ok ir) : ∀ message ∈ ir.messages, Spoken message := by
  have hopenai : source = .chat ∨ source = .responses → ∀ message ∈ ir.messages, Spoken message := by
    intro hsource message hmessage
    obtain ⟨hcalls, hroles⟩ := decode_request_calls hsource h
    exact ⟨hroles message hmessage, fun part hpart => (hcalls.plain part (List.mem_flatMap.mpr ⟨message, hmessage, hpart⟩)).admissible⟩
  cases source with
  | chat => exact hopenai (.inl rfl)
  | responses => exact hopenai (.inr rfl)
  | messages => exact absurd rfl hsource
  | gemini =>
    obtain ⟨obj, rfl, hread⟩ := gemini.decode_request_decodesTo h
    have hconversation := hread.conversation
    unfold gemini.decode_conversation at hconversation
    split at hconversation
    · cases hconversation
    · exact gemini.decode_contents_spoken hconversation
    · cases hconversation

end Decoded

section Messages

variable {conversation : List Message}

theorem messages.encode_block_cases {part : ContentPart} {block : Value} (h : Admissible part)
    (hblock : messages.encode_block part = some block) :
    (∃ s, (part = .text s ∨ part = .refusal s) ∧ block = .object [("type", .string "text"), ("text", .string s)]) ∨
      (block.get_str "type" ≠ some "text" ∧ (block.get_str "type" = some "tool_result" → part.is_tool_result = true)) := by
  cases part with
  | text s =>
    rw [messages.encode_block] at hblock
    exact .inl ⟨s, .inl rfl, (Option.some.inj hblock).symm⟩
  | refusal s =>
    rw [messages.encode_block] at hblock
    exact .inl ⟨s, .inr rfl, (Option.some.inj hblock).symm⟩
  | opaqueBlock protocol value =>
    rw [messages.encode_block, if_neg h.1] at hblock
    cases hblock
  | _ =>
    rw [messages.encode_block] at hblock
    obtain rfl := Option.some.inj hblock
    exact .inr (by simp [ContentPart.is_tool_result])

theorem messages.encode_blocks_filterMap (content : List ContentPart) :
    messages.encode_blocks content = content.filterMap messages.encode_block := by
  rw [messages.encode_blocks_eq, List.filterMap_eq_flatMap_toList]

theorem messages.merge_messages_eq (conversation : List Message) :
    messages.merge_messages conversation =
      merge_turns ((conversation.map fun message => (message.role, message.content)).map fun message =>
        (messages.role_str message.1, message.2.filterMap messages.encode_block)) := by
  rw [messages.merge_messages, List.map_map]
  refine congrArg merge_turns (List.map_congr_left fun message _ => ?_)
  rw [messages.encode_blocks_filterMap]
  rfl

/-- Every block of the merged messages is the one of a part. -/
theorem messages.mem_merge_messages {turn : String × List Value} (hturn : turn ∈ messages.merge_messages conversation)
    {block : Value} (hblock : block ∈ turn.2) :
    ∃ message ∈ conversation, ∃ part ∈ message.content, messages.encode_block part = some block := by
  have hmem : block ∈ (messages.merge_messages conversation).flatMap Prod.snd := List.mem_flatMap.mpr ⟨turn, hturn, hblock⟩
  rw [messages.merge_messages, merge_turns_flatMap, List.flatMap_map] at hmem
  obtain ⟨message, hmessage, hblock⟩ := List.mem_flatMap.mp hmem
  rw [messages.encode_blocks_filterMap] at hblock
  obtain ⟨part, hpart, hencode⟩ := List.mem_filterMap.mp hblock
  exact ⟨message, hmessage, part, hpart, hencode⟩

theorem messages.role_str_eq (role : Role) :
    messages.role_str role = "assistant" ∨ messages.role_str role = "user" := by
  cases role with
  | assistant => exact .inl rfl
  | _ => exact .inr rfl

theorem messages.role_str_eq_assistant (role : Role) : messages.role_str role = "assistant" ↔ role = .assistant := by
  cases role <;> simp [messages.role_str]

/-- The merged messages have every result directly after its call. -/
theorem messages.merge_messages_answered (hspoken : ∀ message ∈ conversation, Spoken message)
    (h : ResultsFollow conversation) :
    Answered "assistant" (fun block : Value => block.get_str "type" = some "tool_result") messages.ResultOf
      (messages.merge_messages conversation) := by
  have hwritten := @Following.map _ _ _ _ _ _ _ String _ "assistant"
    (fun block : Value => block.get_str "type" = some "tool_result") messages.ResultOf _ _ _ messages.role_str
    messages.encode_block Admissible (fun message _ => messages.role_str_eq_assistant message.1)
    (fun _ hcall => absurd hcall List.not_mem_nil) ?_ ?_ ?_ h
  · rw [messages.merge_messages_eq]
    refine @merge_turns_answered _ _ _ _ _ _ "user" (by decide) _ (fun message hmessage => ?_) hwritten
    obtain ⟨said, -, rfl⟩ := List.mem_map.mp hmessage
    exact messages.role_str_eq said.1
  · intro message hmessage
    obtain ⟨said, hsaid, rfl⟩ := List.mem_map.mp hmessage
    exact (hspoken said hsaid).2
  · intro part block hpart hblock htype
    rcases messages.encode_block_cases hpart hblock with ⟨s, -, rfl⟩ | ⟨-, hresult⟩
    · exact absurd htype (by simp)
    · exact hresult htype
  · rintro part call block - - ⟨huse, hid⟩ hblock
    cases call with
    | toolUse id name input signature =>
      cases part with
      | toolResult made name content is_error =>
        obtain rfl := Option.some.inj hid
        rw [messages.encode_block] at hblock
        obtain rfl := Option.some.inj hblock
        exact ⟨_, by rw [messages.encode_block], by simp, id, rfl, rfl⟩
      | _ => cases hid
    | _ => cases huse

/-- One text block is its text, and any other content a list. -/
theorem messages.encode_content_cases {blocks : List Value} (hempty : blocks ≠ []) (htextual : ∀ block ∈ blocks, Textual block) :
    (∃ only s, blocks = [only] ∧ only.get_str "type" = some "text" ∧ only.get "text" = some (.string s) ∧
      messages.encode_content blocks = .string s) ∨ messages.encode_content blocks = .array blocks := by
  unfold messages.encode_content
  split
  next only =>
    split
    next htext =>
      obtain ⟨s, hs⟩ := htextual only (List.mem_singleton_self only) htext
      exact .inl ⟨only, s, rfl, htext, hs, by rw [hs]; rfl⟩
    · exact .inr rfl
  · exact .inr rfl

/-- What the rules say about the messages as turns. -/
structure messages.Turned (conversation : List Message) (turns : List (String × List Value)) : Prop where
  starts : ∀ first ∈ turns.head?, first.1 = "user"
  roles : ∀ turn ∈ turns, turn.1 = "assistant" ∨ turn.1 = "user"
  taken : Taken turns
  textual : ∀ turn ∈ turns, ∀ block ∈ turn.2, Textual block
  answered : Answered "assistant" (fun block : Value => block.get_str "type" = some "tool_result") messages.ResultOf turns
  texts : ∀ turn ∈ turns, ∀ block ∈ turn.2, block.get "text" = some (.string "") → block.get_str "type" = some "text" →
    ∃ part ∈ conversation.flatMap (·.content), part = .text "" ∨ part = .refusal ""

theorem messages.start_with_user_turned (hspoken : ∀ message ∈ conversation, Spoken message)
    (h : ResultsFollow conversation) :
    messages.Turned conversation (messages.start_with_user (messages.merge_messages conversation)) := by
  have hroles : ∀ turn ∈ messages.merge_messages conversation, turn.1 = "assistant" ∨ turn.1 = "user" := by
    refine @merge_turns_role _ _ _ _ (fun role => role = "assistant" ∨ role = "user") fun message hmessage => ?_
    obtain ⟨said, -, rfl⟩ := List.mem_map.mp hmessage
    exact messages.role_str_eq said.role
  have htaken := merge_turns_taken (conversation.map fun message =>
    (messages.role_str message.role, messages.encode_blocks message.content))
  have hanswered := messages.merge_messages_answered hspoken h
  have hblocks : ∀ turn ∈ messages.merge_messages conversation, ∀ block ∈ turn.2, Textual block ∧
      (block.get "text" = some (.string "") → block.get_str "type" = some "text" →
        ∃ part ∈ conversation.flatMap (·.content), part = .text "" ∨ part = .refusal "") := by
    intro turn hturn block hblock
    obtain ⟨message, hmessage, part, hpart, hencode⟩ := messages.mem_merge_messages hturn hblock
    rcases messages.encode_block_cases ((hspoken message hmessage).2 part hpart) hencode with ⟨s, hs, rfl⟩ | ⟨htype, -⟩
    · refine ⟨fun _ => ⟨s, rfl⟩, fun hempty _ => ⟨part, List.mem_flatMap.mpr ⟨message, hmessage, hpart⟩, ?_⟩⟩
      obtain rfl : s = "" := Value.string.inj (Option.some.inj hempty)
      exact hs
    · exact ⟨fun htext => absurd htext htype, fun _ htext => absurd htext htype⟩
  rw [← messages.merge_messages] at htaken
  generalize messages.merge_messages conversation = merged at *
  cases merged with
  | nil => exact ⟨by simp [messages.start_with_user], hroles, htaken, by simp [messages.start_with_user], hanswered,
      by simp [messages.start_with_user]⟩
  | cons first rest =>
    obtain ⟨role, blocks⟩ := first
    rw [messages.start_with_user]
    split
    next hrole =>
      subst hrole
      constructor
      · intro first hfirst
        obtain rfl := Option.some.inj hfirst
        rfl
      · exact List.forall_mem_cons.mpr ⟨.inr rfl, hroles⟩
      · exact ⟨htaken.alternating.cons_cons (show "user" ≠ "assistant" by decide), List.forall_mem_cons.mpr ⟨by simp, htaken.nonempty⟩⟩
      · refine List.forall_mem_cons.mpr ⟨fun block hblock => ?_, fun turn hturn block hblock => (hblocks turn hturn block hblock).1⟩
        rw [List.mem_singleton.mp hblock]
        exact fun _ => ⟨".", rfl⟩
      · refine hanswered.cons fun block hblock => ?_
        rw [List.mem_singleton.mp hblock]
        decide
      · refine List.forall_mem_cons.mpr ⟨fun block hblock hempty => ?_, fun turn hturn block hblock => (hblocks turn hturn block hblock).2⟩
        rw [List.mem_singleton.mp hblock] at hempty
        exact absurd (Value.string.inj (Option.some.inj hempty)) (by decide)
    next hrole =>
      have huser : role = "user" := (hroles (role, blocks) List.mem_cons_self).resolve_left hrole
      refine ⟨fun first hfirst => ?_, hroles, htaken, fun turn hturn block hblock => (hblocks turn hturn block hblock).1,
        hanswered, fun turn hturn block hblock => (hblocks turn hturn block hblock).2⟩
      obtain rfl := Option.some.inj hfirst
      exact huser

/-- Merged messages keep the rules of the protocol. -/
theorem messages.encode_messages_proper (hspoken : ∀ message ∈ conversation, Spoken message)
    (h : ResultsFollow conversation) :
    messages.Proper (messages.encode_messages conversation) ∧
      ∀ message ∈ messages.encode_messages conversation, message.get "content" = some (.string "") →
        ∃ part ∈ conversation.flatMap (·.content), part = .text "" ∨ part = .refusal "" := by
  have hturned := messages.start_with_user_turned hspoken h
  rw [messages.encode_messages]
  generalize messages.start_with_user (messages.merge_messages conversation) = turns at hturned
  have hcontent : ∀ turn ∈ turns, _ := fun turn hturn =>
    messages.encode_content_cases (hturned.taken.nonempty turn hturn) (hturned.textual turn hturn)
  refine ⟨⟨?_, ?_, ?_, ?_, ?_⟩, ?_⟩
  · intro first hfirst
    rw [List.head?_map] at hfirst
    obtain ⟨turn, hturn, rfl⟩ := Option.map_eq_some_iff.mp hfirst
    exact congrArg some (hturned.starts turn hturn)
  · intro message hmessage
    obtain ⟨turn, hturn, rfl⟩ := List.mem_map.mp hmessage
    exact (hturned.roles turn hturn).symm.imp (congrArg some) (congrArg some)
  · rw [List.isChain_map]
    exact hturned.taken.alternating.imp fun turn next hne heq => hne (Option.some.inj heq)
  · intro message hmessage
    obtain ⟨turn, hturn, rfl⟩ := List.mem_map.mp hmessage
    refine ⟨messages.encode_content turn.2, rfl, ?_⟩
    rcases hcontent turn hturn with ⟨only, s, -, -, -, hstring⟩ | harray
    · rw [hstring]
      exact fun heq => by cases heq
    · rw [harray]
      exact fun heq => hturned.taken.nonempty turn hturn (Value.array.inj heq)
  · have hreworded := @Answered.reword _ _ _ _ _ _ turns some (fun blocks => array (some (messages.encode_content blocks)))
      (Option.some_injective String) ?_ ?_ hturned.answered
    · rw [List.map_map]
      exact hreworded
    · intro turn hturn block hblock
      rcases hcontent turn hturn with ⟨only, s, -, -, -, hstring⟩ | harray
      · rw [hstring] at hblock
        cases hblock
      · rwa [harray] at hblock
    · rintro turn hturn call hcall result ⟨huse, -⟩
      rcases hcontent turn hturn with ⟨only, s, hblocks, htext, -, -⟩ | harray
      · rw [hblocks] at hcall
        rw [List.mem_singleton.mp hcall, htext] at huse
        exact absurd (Option.some.inj huse) (by decide)
      · rwa [harray]
  · intro message hmessage hempty
    obtain ⟨turn, hturn, rfl⟩ := List.mem_map.mp hmessage
    have hcontent_empty : messages.encode_content turn.2 = .string "" := Option.some.inj hempty
    rcases hcontent turn hturn with ⟨only, s, hblocks, htext, hs, hstring⟩ | harray
    · obtain rfl : s = "" := Value.string.inj (hstring.symm.trans hcontent_empty)
      exact hturned.texts turn hturn only (hblocks ▸ List.mem_singleton_self only) hs htext
    · cases harray.symm.trans hcontent_empty

end Messages

section Thinking

variable {source : Protocol} {ir : UnifiedRequest}

/-- A field that no decoder keeps is the one the encoder writes. -/
theorem messages.get_field (hext : ir.extensions.Every (Kept source)) {field : String} (hfield : ¬Stored .messages field) :
    (messages.encode_request ir).get field = (messages.request_fields ir).lookup field := by
  rw [messages.encode_request, Value.get_object, messages.lookup_restore hext _ hfield]

theorem messages.encode_thinking_enabled {cfg : ReasoningConfig} {max_tokens : Nat}
    (h : (messages.encode_thinking cfg (some max_tokens)).get_str "type" = some "enabled") :
    ∃ budget, messages.encode_thinking cfg (some max_tokens) = messages.enabled budget ∧ 1024 ≤ budget ∧ budget < max_tokens := by
  have hdisabled : messages.disabled.get_str "type" ≠ some "enabled" := by decide
  unfold messages.encode_thinking at h ⊢
  by_cases hhidden : cfg.include_thoughts = some false
  · rw [if_pos hhidden] at h
    exact absurd h hdisabled
  · rw [if_neg hhidden] at h ⊢
    cases hbudget : (cfg.budget_or_from_effort (some max_tokens)).or
        (if cfg.include_thoughts = some true then some messages.DYNAMIC_THINKING_BUDGET else none) with
    | none =>
      rw [hbudget] at h
      exact absurd h hdisabled
    | some budget =>
      rw [hbudget] at h
      dsimp only [Option.map_some] at h ⊢
      by_cases hceiling : max_tokens - 1 < 1024
      · rw [if_pos hceiling] at h
        exact absurd h hdisabled
      · rw [if_neg hceiling]
        exact ⟨_, rfl, by omega, by omega⟩

/-- A request that thinks keeps the rules for one. -/
theorem messages.encode_request_thoughtful (hext : ir.extensions.Every (Kept source))
    (h : ((messages.encode_request ir).get "thinking").bind (·.get_str "type") = some "enabled") :
    messages.Thoughtful (messages.encode_request ir) := by
  have hthinking := messages.get_thinking hext
  rw [hthinking] at h
  have hthinks : messages.thinking_enabled ir = true := decide_eq_true h
  have hfield : ∀ field ∈ ["max_tokens", "temperature", "top_p", "top_k"], ¬Stored .messages field := by
    unfold Stored
    decide
  constructor
  · obtain ⟨thinking, hreasoning, htype⟩ := Option.bind_eq_some_iff.mp h
    obtain ⟨cfg, -, rfl⟩ := Option.map_eq_some_iff.mp hreasoning
    obtain ⟨budget, henabled, hlow, hhigh⟩ := messages.encode_thinking_enabled htype
    refine ⟨budget, messages.max_tokens ir, ?_, ?_, hlow, hhigh⟩
    · rw [hthinking, hreasoning, henabled]
      rfl
    · rw [messages.get_field hext (hfield _ (by decide))]
      rfl
  · intro t ht
    rw [messages.get_field hext (hfield _ (by decide))] at ht
    have hwritten : messages.encode_temperature ir = some t := by
      simpa [messages.request_fields, List.lookup_append, lookup_member, List.lookup_cons] using ht
    obtain ⟨number, hnumber, rfl⟩ := Option.map_eq_some_iff.mp hwritten
    obtain ⟨-, hnear⟩ := Option.filter_eq_some_iff.mp hnumber
    have hrange : ¬(1 + F64.EPSILON < number.value ∨ number.value < 1 - F64.EPSILON) := fun hfar =>
      of_decide_eq_true hnear ⟨hthinks, hfar⟩
    rw [not_or, Rat.not_lt, Rat.not_lt] at hrange
    exact ⟨number, rfl, hrange.2, hrange.1⟩
  · intro p hp
    rw [messages.get_field hext (hfield _ (by decide))] at hp
    have hwritten : messages.encode_top_p ir = some p := by
      simpa [messages.request_fields, List.lookup_append, lookup_member, List.lookup_cons] using hp
    obtain ⟨number, hnumber, rfl⟩ := Option.map_eq_some_iff.mp hwritten
    obtain ⟨-, hlarge⟩ := Option.filter_eq_some_iff.mp hnumber
    exact ⟨number, rfl, Rat.not_lt.mp fun hsmall => of_decide_eq_true hlarge ⟨hthinks, hsmall⟩⟩
  · rw [messages.get_field hext (hfield _ (by decide))]
    have hnone : messages.encode_top_k ir = none := by
      rw [messages.encode_top_k, hthinks, Option.map_eq_none_iff, Option.filter_eq_none_iff]
      simp
    simp [messages.request_fields, List.lookup_append, lookup_member, List.lookup_cons, hnone]

end Thinking

section Gemini

variable {serde : Serde} {conversation : List Message}

theorem gemini.media_json_inert (source : MediaSource) (mime : Option String) :
    gemini.is_response (gemini.media_json source mime) = false := by
  cases source <;> rfl

/-- A result in the contents is the result of a call. -/
theorem gemini.encode_part_response {names : List (String × String)} {part : ContentPart} {written : Value}
    (h : Admissible part) (hwritten : gemini.encode_part serde names part = some written)
    (hresponse : gemini.is_response written = true) : part.is_tool_result = true := by
  cases part with
  | toolResult id name content is_error => rfl
  | opaqueBlock protocol value =>
    rw [gemini.encode_part] at hwritten
    split at hwritten
    next hprotocol =>
      obtain rfl := Option.some.inj hwritten
      rw [h.2 hprotocol] at hresponse
      cases hresponse
    · cases hwritten
  | text s =>
    obtain rfl := Option.some.inj hwritten
    cases hresponse
  | thinking s signature =>
    obtain rfl := Option.some.inj hwritten
    cases signature <;> cases hresponse
  | toolUse id name input signature =>
    obtain rfl := Option.some.inj hwritten
    cases signature <;> cases hresponse
  | image source mime detail =>
    obtain rfl := Option.some.inj hwritten
    rw [gemini.media_json_inert] at hresponse
    cases hresponse
  | audio source format =>
    obtain rfl := Option.some.inj hwritten
    rw [gemini.media_json_inert] at hresponse
    cases hresponse
  | file source mime name =>
    obtain rfl := Option.some.inj hwritten
    rw [gemini.media_json_inert] at hresponse
    cases hresponse
  | redactedThinking data => cases hwritten
  | refusal s => cases hwritten

theorem mem_named {parts : List ContentPart} {id name : String} {input : Value} {signature : Option String}
    (h : ContentPart.toolUse id name input signature ∈ parts) : (id, name) ∈ named parts :=
  List.mem_filterMap.mpr ⟨_, h, rfl⟩

/-- Where an identifier stands for one function, a call is found by its identifier. -/
theorem gemini.lookup_tool_names (hname : OneName conversation) {id name : String} {input : Value}
    {signature : Option String} (h : ContentPart.toolUse id name input signature ∈ conversation.flatMap (·.content)) :
    (gemini.tool_names conversation).lookup id = some name := by
  have hsub : ∀ entry ∈ gemini.tool_names conversation, entry ∈ named (conversation.flatMap (·.content)) := by
    intro entry hentry
    obtain ⟨part, hpart, hfound⟩ := List.mem_filterMap.mp (List.mem_reverse.mp hentry)
    cases part with
    | toolUse id name input signature =>
      obtain rfl := Option.some.inj hfound
      exact mem_named hpart
    | _ => cases hfound
  have hmem : (id, name) ∈ gemini.tool_names conversation :=
    List.mem_reverse.mpr (List.mem_filterMap.mpr ⟨_, h, rfl⟩)
  cases hlookup : (gemini.tool_names conversation).lookup id with
  | none =>
    rw [List.lookup_eq_none_iff] at hlookup
    exact absurd (hlookup (id, name) hmem) (by simp)
  | some found =>
    obtain ⟨before, after, heq, -⟩ := List.lookup_eq_some_iff.mp hlookup
    have hfound : (id, found) ∈ gemini.tool_names conversation := by
      rw [heq]
      exact List.mem_append_right _ List.mem_cons_self
    exact congrArg some (hname _ (hsub _ hfound) _ (hsub _ hmem) rfl)

/-- A result is written with the identifier and the name that its call is written with. -/
theorem gemini.encode_part_returns (hname : OneName conversation) {part call : ContentPart} {written : Value}
    (hpart : part ∈ conversation.flatMap (·.content)) (hcall : call ∈ conversation.flatMap (·.content))
    (hreturns : Returns part call)
    (hwritten : gemini.encode_part serde (gemini.tool_names conversation) part = some written) :
    ∃ written_call, gemini.encode_part serde (gemini.tool_names conversation) call = some written_call ∧
      gemini.ResultOf written written_call := by
  obtain ⟨huse, hid⟩ := hreturns
  cases call with
  | toolUse id name input signature =>
    cases part with
    | toolResult made given content is_error =>
      obtain rfl : id = made := Option.some.inj hid
      have hresolved : (given.or ((gemini.tool_names conversation).lookup id)).getD id = name := by
        cases given with
        | none => rw [Option.none_or, gemini.lookup_tool_names hname hcall]; rfl
        | some given =>
          have hgiven : (id, given) ∈ named (conversation.flatMap (·.content)) := List.mem_filterMap.mpr ⟨_, hpart, rfl⟩
          exact hname _ hgiven _ (mem_named hcall) rfl
      rw [gemini.encode_part] at hwritten
      obtain rfl := Option.some.inj hwritten
      refine ⟨_, rfl, _, _, rfl, rfl, ?_, ?_⟩
      · rw [hresolved, gemini.call_id]
        split <;> rfl
      · rw [hresolved, gemini.call_id]
        split <;> rfl
    | _ => cases hid
  | _ => cases huse

theorem gemini.role_to_gemini_eq (role : Role) : gemini.role_to_gemini role = "model" ∨ gemini.role_to_gemini role = "user" := by
  cases role with
  | assistant => exact .inl rfl
  | _ => exact .inr rfl

theorem gemini.role_to_gemini_eq_model (role : Role) : gemini.role_to_gemini role = "model" ↔ role = .assistant := by
  cases role <;> simp [gemini.role_to_gemini]

theorem gemini.encode_turns_eq (hspoken : ∀ message ∈ conversation, Spoken message) :
    gemini.encode_turns serde conversation =
      merge_turns ((conversation.map fun message => (message.role, message.content)).map fun message =>
        (gemini.role_to_gemini message.1, message.2.filterMap (gemini.encode_part serde (gemini.tool_names conversation)))) := by
  have hroles : conversation.filter (·.role ≠ .system) = conversation := by
    rw [List.filter_eq_self]
    exact fun message hmessage => decide_eq_true (hspoken message hmessage).1
  rw [gemini.encode_turns, hroles, List.map_map]
  rfl

/-- The contents keep the rules of the protocol. -/
theorem gemini.encode_contents_proper (hspoken : ∀ message ∈ conversation, Spoken message) :
    gemini.Proper (gemini.encode_contents serde conversation) := by
  have hroles : ∀ turn ∈ gemini.encode_turns serde conversation, turn.1 = "model" ∨ turn.1 = "user" := by
    rw [gemini.encode_turns_eq hspoken]
    refine @merge_turns_role _ _ _ _ (fun role => role = "model" ∨ role = "user") fun message hmessage => ?_
    obtain ⟨said, -, rfl⟩ := List.mem_map.mp hmessage
    exact gemini.role_to_gemini_eq said.1
  have htaken : Taken (gemini.encode_turns serde conversation) := merge_turns_taken _
  rw [gemini.encode_contents]
  constructor
  · intro content hcontent
    obtain ⟨turn, hturn, rfl⟩ := List.mem_map.mp hcontent
    exact (hroles turn hturn).symm.imp (congrArg some) (congrArg some)
  · rw [List.isChain_map]
    exact htaken.alternating.imp fun turn next hne heq => hne (Option.some.inj heq)
  · intro content hcontent
    obtain ⟨turn, hturn, rfl⟩ := List.mem_map.mp hcontent
    exact htaken.nonempty turn hturn

/-- So every result is in the turn directly after its call. -/
theorem gemini.encode_contents_responds (hspoken : ∀ message ∈ conversation, Spoken message)
    (h : ResultsFollow conversation) (hname : OneName conversation) :
    gemini.Responds (gemini.encode_contents serde conversation) := by
  have hwritten := @Following.map _ _ _ _ _ _ _ String _ "model" (fun part => gemini.is_response part = true)
    gemini.ResultOf _ _ _ gemini.role_to_gemini (gemini.encode_part serde (gemini.tool_names conversation))
    (fun part => Admissible part ∧ part ∈ conversation.flatMap (·.content))
    (fun message _ => gemini.role_to_gemini_eq_model message.1) (fun _ hcall => absurd hcall List.not_mem_nil) ?_ ?_ ?_ h
  · have hanswered : Answered "model" (fun part => gemini.is_response part = true) gemini.ResultOf
        (gemini.encode_turns serde conversation) := by
      rw [gemini.encode_turns_eq hspoken]
      refine @merge_turns_answered _ _ _ _ _ _ "user" (by decide) _ (fun message hmessage => ?_) hwritten
      obtain ⟨said, -, rfl⟩ := List.mem_map.mp hmessage
      exact gemini.role_to_gemini_eq said.1
    have hreworded := @Answered.reword _ _ _ _ _ _ (gemini.encode_turns serde conversation) some id
      (Option.some_injective String) (fun _ _ _ hpart => hpart) (fun _ _ _ hcall _ _ => hcall) hanswered
    rw [gemini.Responds, gemini.encode_contents, List.map_map]
    exact hreworded
  · intro message hmessage part hpart
    obtain ⟨said, hsaid, rfl⟩ := List.mem_map.mp hmessage
    exact ⟨(hspoken said hsaid).2 part hpart, List.mem_flatMap.mpr ⟨said, hsaid, hpart⟩⟩
  · exact fun part written hpart hwritten hresponse => gemini.encode_part_response hpart.1 hwritten hresponse
  · exact fun part call written hpart hcall hreturns hwritten =>
      gemini.encode_part_returns hname hpart.2 hcall.2 hreturns hwritten

end Gemini

/-- What another protocol's request is written as keeps the rules of Messages and
    of Gemini, where its results directly follow their calls. -/
theorem reencoded_proper {serde : Serde} {source : Protocol} (hsource : source ≠ .messages) {raw : Value} {ir : UnifiedRequest}
    (h : decode_request serde source raw = .ok ir) (hfollow : ResultsFollow ir.messages) :
    ∃ conversation contents, (encode_request serde .messages ir).get "messages" = some (.array conversation) ∧
      (encode_request serde .gemini ir).get "contents" = some (.array contents) ∧ messages.Proper conversation ∧
      (∀ message ∈ conversation, message.get "content" = some (.string "") →
        ∃ part ∈ ir.messages.flatMap (·.content), part = .text "" ∨ part = .refusal "") ∧
      (((encode_request serde .messages ir).get "thinking").bind (·.get_str "type") = some "enabled" →
        messages.Thoughtful (encode_request serde .messages ir)) ∧
      gemini.Proper contents ∧ (OneName ir.messages → gemini.Responds contents) := by
  have hspoken := decode_request_spoken hsource h
  have hext := decode_request_kept h
  obtain ⟨hproper, htexts⟩ := messages.encode_messages_proper hspoken hfollow
  refine ⟨messages.encode_messages ir.messages, gemini.encode_contents serde ir.messages, ?_, rfl, hproper, htexts,
    messages.encode_request_thoughtful hext, gemini.encode_contents_proper hspoken,
    gemini.encode_contents_responds hspoken hfollow⟩
  have hfield : ¬Stored .messages "messages" := by
    unfold Stored
    decide
  rw [encode_request, messages.get_field hext hfield]
  simp [messages.request_fields, List.lookup_append, lookup_member, List.lookup_cons]

section Samples

/-- A call in a message of Chat. -/
def chat_call (id name : String) : Value :=
  .object [("id", .string id), ("function", .object [("name", .string name), ("arguments", .string "\x7b\x7d")])]

def chat_called (calls : List Value) : Value := .object [("role", .string "assistant"), ("tool_calls", .array calls)]

def chat_result (id : String) : Value :=
  .object [("role", .string "tool"), ("tool_call_id", .string id), ("content", .string "done")]

def chat_request (messages : List Value) (more : Map) : Value :=
  .object ([("model", .string "m"), ("messages", .array messages)] ++ more)

/-- Two calls at once, each with its result. -/
def two_calls : Value :=
  chat_request [chat_called [chat_call "c1" "f", chat_call "c2" "g"], chat_result "c1", chat_result "c2"] []

theorem reencoded_proper_of_two_calls : ∃ ir conversation contents, decode_request Serde.compact .chat two_calls = .ok ir ∧
    (encode_request Serde.compact .messages ir).get "messages" = some (.array conversation) ∧ messages.Proper conversation ∧
    (encode_request Serde.compact .gemini ir).get "contents" = some (.array contents) ∧ gemini.Proper contents :=
  have hread : ∃ ir, decode_request Serde.compact .chat two_calls = .ok ir ∧ ResultsFollow ir.messages :=
    ⟨_, rfl, by decide +kernel⟩
  hread.elim fun ir hir => by
    obtain ⟨conversation, contents, hmessages, hcontents, hproper, -, -, hgemini, -⟩ :=
      reencoded_proper (by decide) hir.1 hir.2
    exact ⟨ir, conversation, contents, hir.1, hmessages, hproper, hcontents, hgemini⟩

/-- A Chat request that thinks at a temperature next to 1. -/
def near_one : Value :=
  chat_request [.object [("role", .string "user"), ("content", .string "hi")]]
    [("reasoning_effort", .string "high"), ("temperature", .number (.float 10000000000000002 (-16)))]

/-- A Chat request that gives one identifier to two functions. -/
def shared_identifier : Value :=
  chat_request [chat_called [chat_call "c" "f"], chat_result "c", chat_called [chat_call "c" "g"], chat_result "c"] []

/-- A Gemini request whose results come in another order than its calls. -/
def crossed_results : Value :=
  let part (kind name : String) : Value := .object [(kind, .object [("name", .string name)])]
  .object [("contents", .array
    [.object [("role", .string "model"), ("parts", .array [part "functionCall" "f", part "functionCall" "g"])],
      .object [("role", .string "user"), ("parts", .array [part "functionResponse" "g", part "functionResponse" "f"])]])]

/-- The fields under a key of each part, turn by turn. -/
def along (turns : Option Value) (list : String) (read : Value → Option String) : List (List String) :=
  (array turns).map fun turn => (array (turn.get list)).filterMap read

/-- A temperature next to 1 is kept, an empty text is sent as a message, a result
    whose identifier was given again has the later function's name, and results in
    another order than their calls have identifiers of no call. -/
theorem rules_not_always_kept :
    (∃ ir, decode_request Serde.compact .chat near_one = .ok ir ∧ ResultsFollow ir.messages ∧
      ((encode_request Serde.compact .messages ir).get "thinking").bind (·.get_str "type") = some "enabled" ∧
      ((encode_request Serde.compact .messages ir).get "temperature").bind as_f64 = some ⟨10000000000000002, -16⟩) ∧
    (∃ ir, decode_request Serde.compact .responses (.object [("model", .string "m"), ("input", .string "")]) = .ok ir ∧
      ResultsFollow ir.messages ∧
      (array ((encode_request Serde.compact .messages ir).get "messages")).map (·.get_str "content") = [some ""]) ∧
    (∃ ir, decode_request Serde.compact .chat shared_identifier = .ok ir ∧ ResultsFollow ir.messages ∧
      along ((encode_request Serde.compact .gemini ir).get "contents") "parts" (fun part =>
        ((part.get "functionCall").or (part.get "functionResponse")).bind (·.get_str "name")) = [["f"], ["g"], ["g"], ["g"]]) ∧
    ∃ ir, decode_request Serde.compact .gemini crossed_results = .ok ir ∧
      along ((encode_request Serde.compact .messages ir).get "messages") "content" (fun block =>
        (block.get_str "tool_use_id").or (block.get_str "id")) = [[], ["f#0", "g#1"], ["g#0", "f#1"]] := by
  have hmessages : ∀ {source raw ir}, decode_request Serde.compact source raw = .ok ir →
      (encode_request Serde.compact .messages ir).get "messages" = some (.array (messages.encode_messages ir.messages)) := by
    intro source raw ir h
    have hfield : ¬Stored .messages "messages" := by
      unfold Stored
      decide
    rw [encode_request, messages.get_field (decode_request_kept h) hfield]
    simp [messages.request_fields, List.lookup_append, lookup_member, List.lookup_cons]
  refine ⟨⟨_, rfl, by decide +kernel, by decide +kernel, ?_⟩, ?_, ⟨_, rfl, by decide +kernel, ?_⟩, ?_⟩
  · decide +kernel
  · have hread : ∃ ir, decode_request Serde.compact .responses (.object [("model", .string "m"), ("input", .string "")]) = .ok ir ∧
        ir.messages = [{ role := .user, content := [.text ""] }] := ⟨_, rfl, rfl⟩
    obtain ⟨ir, hir, hconversation⟩ := hread
    refine ⟨ir, hir, ?_, ?_⟩
    · rw [hconversation]
      decide
    · rw [hmessages hir, hconversation, messages.encode_messages, messages.merge_messages_eq]
      simp [messages.encode_block, messages.role_str, merge_turns, push_turn, messages.start_with_user,
        messages.encode_content, array, Value.as_array, List.lookup_cons]
  · decide +kernel
  · have hread : ∃ ir, decode_request Serde.compact .gemini crossed_results = .ok ir ∧ ir.messages =
        [{ role := .assistant, content := [.toolUse "f#0" "f" (.object []) none, .toolUse "g#1" "g" (.object []) none] },
          { role := .tool, content := [.toolResult "g#0" (some "g") [.text "\x7b\x7d"] false,
              .toolResult "f#1" (some "f") [.text "\x7b\x7d"] false] }] := ⟨_, rfl, rfl⟩
    obtain ⟨ir, hir, hconversation⟩ := hread
    refine ⟨ir, hir, ?_⟩
    rw [hmessages hir, hconversation, messages.encode_messages, messages.merge_messages_eq]
    simp [messages.encode_block, messages.role_str, merge_turns, push_turn, messages.start_with_user,
      messages.encode_content, array, Value.as_array, along, List.lookup_cons]

end Samples

end refract.codec
