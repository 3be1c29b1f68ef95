import Mathlib.Data.List.InsertIdx
import Refract.Codec.Reading
import Refract.Codec.Requests

open refract.core refract.json refract.ir refract.machine

namespace refract.codec

/-- The input of a call. -/
def tool_input : ContentPart → Option Value
  | .toolUse _ _ input _ => some input
  | _ => none

/-- Nothing that another protocol but Responses keeps for itself. -/
def Plain : ContentPart → Prop
  | .opaqueBlock protocol _ => protocol = "responses"
  | _ => True

/-- Plain content that calls nothing. -/
def Inert (part : ContentPart) : Prop := Plain part ∧ tool_input part = none

/-- Plain content with the inputs of its calls. -/
structure Calls (content : List ContentPart) (inputs : List Value) : Prop where
  plain : ∀ part ∈ content, Plain part
  inputs : content.filterMap tool_input = inputs

namespace Calls

variable {content more : List ContentPart} {inputs others : List Value}

theorem of_inert (h : ∀ part ∈ content, Inert part) : Calls content [] where
  plain part hpart := (h part hpart).1
  inputs := List.filterMap_eq_nil_iff.mpr fun part hpart => (h part hpart).2

theorem append (h : Calls content inputs) (hmore : Calls more others) : Calls (content ++ more) (inputs ++ others) where
  plain part hpart := (List.mem_append.mp hpart).elim (h.plain part) (hmore.plain part)
  inputs := by rw [List.filterMap_append, h.inputs, hmore.inputs]

end Calls

section Arguments

/-- The arguments of the calls of a Chat message, as they came. -/
def chat.arguments (message : Value) : List (Option Value) :=
  (((message.get "tool_calls").bind Value.as_array).getD []).map fun call => (call.get "function").bind (·.get "arguments")

/-- The arguments of the calls among some items of Responses, as they came. -/
def responses.arguments (items : List Value) : List (Option Value) :=
  items.filterMap fun item => if item.get_str "type" = some "function_call" then some (item.get "arguments") else none

/-- The arguments of the calls in a client's request. -/
def request_arguments : Protocol → Value → List (Option Value)
  | .chat, raw => (((raw.get "messages").bind Value.as_array).getD []).flatMap fun message =>
    if message.get_str "role" = some "assistant" then chat.arguments message else []
  | .responses, raw => responses.arguments (((raw.get "input").bind Value.as_array).getD [])
  | _, _ => []

/-- A Responses answer out of the objects it is wrapped in. -/
def responses.unwrapped (raw : Value) : Value :=
  match raw with
  | .object obj =>
    match h : (Map.get obj "response").bind Value.as_object with
    | some inner => unwrapped (.object inner)
    | none => raw
  | _ => raw
termination_by sizeOf raw
decreasing_by exact Map.sizeOf_inner_lt obj "response" h

/-- The arguments of the calls in an upstream's answer. -/
def answer_arguments : Protocol → Value → List (Option Value)
  | .chat, raw =>
    (((((raw.get "choices").bind Value.as_array).getD []).head?.bind (·.get "message")).map chat.arguments).getD []
  | .responses, raw => responses.arguments ((((responses.unwrapped raw).get "output").bind Value.as_array).getD [])
  | _, _ => []

/-- The input that arguments become. -/
def argument_input (serde : Serde) : Protocol → Option Value → Value
  | .responses => responses.parse_arguments serde
  | _ => chat.parse_arguments serde

/-- Arguments that stand for an object: they are missing, a blank text, a text
    that is an object, or an object. Responses takes `null` for missing. -/
def StandForObject (serde : Serde) (source : Protocol) : Option Value → Prop
  | none => True
  | some (.string s) => trim s = "" ∨ ∃ map, serde.from_str s = some (.object map)
  | some (.object _) => True
  | some .null => source = .responses
  | some _ => False

/-- Arguments become an object exactly if they stand for one. -/
theorem is_object_argument_input (serde : Serde) {source : Protocol} (hsource : source = .chat ∨ source = .responses)
    (arguments : Option Value) :
    (argument_input serde source arguments).is_object = true ↔ StandForObject serde source arguments := by
  have hstring : ∀ s : String, (if trim s = "" then Value.object [] else (serde.from_str s).getD (.string s)).is_object = true ↔
      trim s = "" ∨ ∃ map, serde.from_str s = some (.object map) := by
    intro s
    by_cases hblank : trim s = ""
    · simp [hblank, Value.is_object]
    · rw [if_neg hblank]
      cases hparse : serde.from_str s with
      | none => simp [hblank, Value.is_object]
      | some v => cases v <;> simp [hblank, Value.is_object]
  cases arguments with
  | none => rcases hsource with rfl | rfl <;> exact iff_of_true rfl trivial
  | some v =>
    cases v with
    | string s => rcases hsource with rfl | rfl <;> exact hstring s
    | object map => rcases hsource with rfl | rfl <;> exact iff_of_true rfl trivial
    | null =>
      rcases hsource with rfl | rfl
      · exact iff_of_false (by simp [argument_input, chat.parse_arguments, Value.is_object]) (by simp [StandForObject])
      · exact iff_of_true rfl rfl
    | _ => rcases hsource with rfl | rfl <;> exact iff_of_false (by simp [argument_input, chat.parse_arguments,
        responses.parse_arguments, Value.is_object]) (by simp [StandForObject])

end Arguments

section Chat

variable {serde : Serde}

theorem chat.parse_content_part_inert {raw : Value} {part : ContentPart} (h : chat.parse_content_part raw = some part) :
    Inert part := by
  unfold chat.parse_content_part at h
  split at h
  · obtain rfl := Option.some.inj h
    exact ⟨trivial, rfl⟩
  · split at h
    iterate 5
      · obtain rfl := Option.some.inj h
        exact ⟨trivial, rfl⟩
    · obtain ⟨audio, -, rfl⟩ := Option.map_eq_some_iff.mp h
      exact ⟨trivial, rfl⟩
    · obtain ⟨file, -, rfl⟩ := Option.map_eq_some_iff.mp h
      dsimp only
      split
      · exact ⟨trivial, rfl⟩
      · exact ⟨trivial, rfl⟩
    · obtain ⟨text, -, rfl⟩ := Option.map_eq_some_iff.mp h
      exact ⟨trivial, rfl⟩
  · cases h

theorem chat.parse_content_inert (value : Option Value) : ∀ part ∈ chat.parse_content value, Inert part := by
  intro part hpart
  unfold chat.parse_content at hpart
  split at hpart
  · split at hpart
    · cases hpart
    · obtain rfl := List.mem_singleton.mp hpart
      exact ⟨trivial, rfl⟩
  · obtain ⟨item, -, hitem⟩ := List.mem_filterMap.mp hpart
    exact chat.parse_content_part_inert hitem
  · cases hpart

/-- The calls of a message are read one by one. -/
theorem chat.parse_tool_calls_calls (message : Value) :
    Calls (chat.parse_tool_calls serde (((message.get "tool_calls").bind Value.as_array).getD []))
      ((chat.arguments message).map (argument_input serde .chat)) where
  plain part hpart := by
    obtain ⟨call, -, rfl⟩ := List.mem_map.mp hpart
    trivial
  inputs := by
    rw [chat.parse_tool_calls, List.filterMap_map, chat.arguments, List.map_map, ← List.filterMap_eq_map]
    rfl

theorem chat.dropped_part_inert (item : Value) : Inert (chat.dropped_part item) := by
  unfold chat.dropped_part
  split
  · exact ⟨trivial, rfl⟩
  · exact ⟨trivial, rfl⟩

theorem filterMap_insertIdx {α β : Type} {f : α → Option β} {a : α} (ha : f a = none) (n : Nat) (l : List α) :
    (l.insertIdx n a).filterMap f = l.filterMap f := by
  induction n generalizing l with
  | zero => rw [List.insertIdx_zero, List.filterMap_cons_none ha]
  | succ n ih =>
    cases l with
    | nil => rfl
    | cons b l => rw [List.insertIdx_succ_cons, List.filterMap_cons, List.filterMap_cons, ih]

/-- Thoughts that are put back change no call. -/
theorem chat.restore_dropped_parts_calls (items : List Value) {content : List ContentPart} {inputs : List Value}
    (h : Calls content inputs) : Calls (chat.restore_dropped_parts items content) inputs := by
  induction items generalizing content with
  | nil => exact h
  | cons item items ih =>
    rw [chat.restore_dropped_parts, List.foldl_cons]
    refine ih ⟨fun part hpart => ?_, ?_⟩
    · rcases List.eq_or_mem_of_mem_insertIdx hpart with rfl | hpart
      · exact (chat.dropped_part_inert item).1
      · exact h.plain part hpart
    · rw [filterMap_insertIdx (chat.dropped_part_inert item).2, h.inputs]

theorem chat.assistant_content_calls (message : Value) (restored : List Value) :
    Calls (chat.assistant_content serde message restored) ((chat.arguments message).map (argument_input serde .chat)) := by
  refine chat.restore_dropped_parts_calls restored ?_
  refine Calls.append (Calls.of_inert fun part hpart => ?_) (chat.parse_tool_calls_calls message)
  simp only [List.mem_append, Option.mem_toList, Option.map_eq_some_iff] at hpart
  obtain (hreasoning | hcontent) | ⟨refusal, -, rfl⟩ := hpart
  · split at hreasoning
    · obtain ⟨text, -, rfl⟩ := Option.map_eq_some_iff.mp (Option.mem_toList.mp hreasoning)
      exact ⟨trivial, rfl⟩
    · cases hreasoning
  · exact chat.parse_content_inert _ part hcontent
  · exact ⟨trivial, rfl⟩

/-- The first choice of an answer. -/
theorem chat.choice_content_calls (message : Option Value) (dropped : Option (List Value)) :
    Calls (chat.choice_content serde message dropped)
      (((message.map chat.arguments).getD []).map (argument_input serde .chat)) := by
  have hcalls : Calls (chat.parse_tool_calls serde (((message.bind (·.get "tool_calls")).bind Value.as_array).getD []))
      (((message.map chat.arguments).getD []).map (argument_input serde .chat)) := by
    cases message with
    | none => exact ⟨by simp [chat.parse_tool_calls], rfl⟩
    | some message => exact chat.parse_tool_calls_calls message
  refine chat.restore_dropped_parts_calls _ (Calls.append (Calls.of_inert fun part hpart => ?_) hcalls)
  simp only [List.mem_append, Option.mem_toList, Option.map_eq_some_iff] at hpart
  obtain (hreasoning | hcontent) | ⟨refusal, -, rfl⟩ := hpart
  · split at hreasoning
    · cases hreasoning
    · obtain ⟨text, -, rfl⟩ := Option.map_eq_some_iff.mp (Option.mem_toList.mp hreasoning)
      exact ⟨trivial, rfl⟩
  · exact chat.parse_content_inert _ part hcontent
  · exact ⟨trivial, rfl⟩

/-- The calls of one message are those of the model. -/
theorem chat.decode_message_calls {dropped : Option (List Value)} {i : Nat} {raw : Value} {system : List ContentPart}
    {messages : List Message} (h : chat.decode_message serde dropped i raw = .ok (system, messages)) :
    Calls (messages.flatMap (·.content))
      ((if raw.get_str "role" = some "assistant" then chat.arguments raw else []).map (argument_input serde .chat)) := by
  unfold chat.decode_message at h
  dsimp only at h
  split at h
  · cases h
  iterate 2
    next hrole =>
      obtain ⟨-, rfl⟩ := Prod.mk.inj (Except.ok.inj h)
      rw [if_neg (by rw [show raw.get_str "role" = _ from hrole]; decide)]
      exact Calls.of_inert (by simp)
  next hrole =>
    obtain ⟨-, rfl⟩ := Prod.mk.inj (Except.ok.inj h)
    rw [if_neg (by rw [show raw.get_str "role" = _ from hrole]; decide), List.flatMap_singleton]
    exact Calls.of_inert (chat.parse_content_inert _)
  next hrole =>
    obtain ⟨-, rfl⟩ := Prod.mk.inj (Except.ok.inj h)
    rw [if_pos (show raw.get_str "role" = _ from hrole), List.flatMap_singleton]
    exact chat.assistant_content_calls raw _
  next hrole =>
    rw [if_neg (by rw [show raw.get_str "role" = _ from hrole]; decide)]
    split at h
    · cases h
    · obtain ⟨-, rfl⟩ := Prod.mk.inj (Except.ok.inj h)
      refine Calls.of_inert fun part hpart => ?_
      obtain rfl := List.mem_singleton.mp hpart
      exact ⟨trivial, rfl⟩
  · cases h

theorem chat.decode_messages_calls {dropped : Option (List Value)} {i : Nat} {raws : List Value} {system : List ContentPart}
    {messages : List Message} (h : chat.decode_messages serde dropped i raws = .ok (system, messages)) :
    Calls (messages.flatMap (·.content))
      ((raws.flatMap fun raw => if raw.get_str "role" = some "assistant" then chat.arguments raw else []).map
        (argument_input serde .chat)) := by
  induction raws generalizing i system messages with
  | nil =>
    obtain ⟨-, rfl⟩ := Prod.mk.inj (Except.ok.inj h)
    exact Calls.of_inert (by simp)
  | cons raw raws ih =>
    obtain ⟨first, hfirst, hrest⟩ := bind_eq_ok.mp h
    obtain ⟨later, hlater, heq⟩ := map_eq_ok.mp hrest
    obtain ⟨-, rfl⟩ := Prod.mk.inj heq
    rw [List.flatMap_append, List.flatMap_cons, List.map_append]
    exact (chat.decode_message_calls hfirst).append (ih hlater)

/-- Instructions are kept apart from the conversation. -/
theorem chat.decode_messages_roles {dropped : Option (List Value)} {i : Nat} {raws : List Value} {system : List ContentPart}
    {messages : List Message} (h : chat.decode_messages serde dropped i raws = .ok (system, messages)) :
    ∀ message ∈ messages, message.role ≠ .system := by
  induction raws generalizing i system messages with
  | nil =>
    obtain ⟨-, rfl⟩ := Prod.mk.inj (Except.ok.inj h)
    simp
  | cons raw raws ih =>
    obtain ⟨first, hfirst, hrest⟩ := bind_eq_ok.mp h
    obtain ⟨later, hlater, heq⟩ := map_eq_ok.mp hrest
    obtain ⟨-, rfl⟩ := Prod.mk.inj heq
    refine List.forall_mem_append.mpr ⟨?_, ih hlater⟩
    unfold chat.decode_message at hfirst
    dsimp only at hfirst
    split at hfirst
    · cases hfirst
    iterate 2
      · obtain rfl := Except.ok.inj hfirst
        simp
    iterate 2
      · obtain rfl := Except.ok.inj hfirst
        simp
    · split at hfirst
      · cases hfirst
      · obtain rfl := Except.ok.inj hfirst
        simp
    · cases hfirst

end Chat

section Responses

variable {serde : Serde}

theorem responses.decode_content_part_inert {raw : Value} {part : ContentPart}
    (h : responses.decode_content_part raw = some part) : Inert part := by
  have hcontent := responses.is_content_of_decode h
  cases part with
  | thinking => cases hcontent
  | redactedThinking => cases hcontent
  | toolUse => cases hcontent
  | toolResult => cases hcontent
  | opaqueBlock => cases hcontent
  | _ => exact ⟨trivial, rfl⟩

/-- The parts of a list of items that are not left out. -/
theorem responses.content_parts_inert (items : List Value) :
    ∀ part ∈ items.filterMap responses.decode_content_part, Inert part := by
  intro part hpart
  obtain ⟨item, -, hitem⟩ := List.mem_filterMap.mp hpart
  exact responses.decode_content_part_inert hitem

theorem responses.decode_message_content_inert (content : Option Value) :
    ∀ part ∈ responses.decode_message_content content, Inert part := by
  unfold responses.decode_message_content
  split
  · intro part hpart
    obtain rfl := List.mem_singleton.mp hpart
    exact ⟨trivial, rfl⟩
  · exact responses.content_parts_inert _
  · simp

/-- What is said in a conversation besides instructions. -/
def spoken (messages : List Message) : List ContentPart := (messages.filter (·.role ≠ .system)).flatMap (·.content)

theorem spoken_append (messages more : List Message) : spoken (messages ++ more) = spoken messages ++ spoken more := by
  rw [spoken, List.filter_append, List.flatMap_append]
  rfl

theorem spoken_push_into (messages : List Message) {role : Role} (hrole : role ≠ .system) (part : ContentPart) :
    spoken (responses.push_into messages role part) = spoken messages ++ [part] := by
  have hnew : spoken [{ role := role, content := [part] }] = [part] := by simp [spoken, hrole]
  unfold responses.push_into
  rcases List.eq_nil_or_concat messages with rfl | ⟨init, last, rfl⟩
  · exact hnew
  · rw [List.concat_eq_append, List.getLast?_concat]
    dsimp only
    split
    next hlast =>
      subst hlast
      rw [List.dropLast_concat, spoken_append, spoken_append, List.append_assoc]
      simp [spoken, hrole]
    · rw [spoken_append, hnew]

theorem responses.arguments_singleton (item : Value) : responses.arguments [item] =
    if item.get_str "type" = some "function_call" then [item.get "arguments"] else [] := by
  rw [responses.arguments, List.filterMap_cons, List.filterMap_nil]
  split
  next h => split at h <;> simp_all
  next h => split at h <;> simp_all

theorem responses.arguments_cons (item : Value) (items : List Value) :
    responses.arguments (item :: items) = responses.arguments [item] ++ responses.arguments items := by
  rw [← List.singleton_append, responses.arguments, List.filterMap_append]
  rfl

/-- One item adds its own call, if it is one. -/
theorem responses.decode_input_item_calls {messages next : List Message} {item : Value} {inputs : List Value}
    (h : responses.decode_input_item serde messages item = .ok next) (hcalls : Calls (spoken messages) inputs) :
    Calls (spoken next) (inputs ++ (responses.arguments [item]).map (argument_input serde .responses)) := by
  have hinert : ∀ {role : Role} {part : ContentPart}, role ≠ .system → Inert part →
      Calls (spoken (responses.push_into messages role part)) inputs := by
    intro role part hrole hpart
    rw [spoken_push_into _ hrole, ← List.append_nil inputs]
    exact hcalls.append (Calls.of_inert fun p hp => by obtain rfl := List.mem_singleton.mp hp; exact hpart)
  unfold responses.decode_input_item at h
  split at h
  next obj =>
    have hkind : (Value.object obj).get_str "type" = some "function_call" ↔
        ((Value.object obj).get_str "type").getD (if Map.contains_key obj "role" then "message" else "") = "function_call" := by
      cases (Value.object obj).get_str "type" with
      | none => cases Map.contains_key obj "role" <;> decide
      | some kind => simp
    rw [responses.arguments_singleton, if_congr hkind rfl rfl]
    dsimp only at h
    split at h
    next htype =>
      obtain rfl := Except.ok.inj h
      rw [htype, if_neg (by decide), spoken_append]
      refine hcalls.append (Calls.of_inert fun part hpart => ?_)
      obtain ⟨message, hmessage, hpart⟩ := List.mem_flatMap.mp hpart
      obtain rfl := List.mem_singleton.mp (List.mem_of_mem_filter hmessage)
      exact responses.decode_message_content_inert _ part hpart
    next htype =>
      obtain rfl := Except.ok.inj h
      rw [htype, if_pos rfl, spoken_push_into _ (by decide)]
      exact hcalls.append ⟨fun part hpart => by obtain rfl := List.mem_singleton.mp hpart; trivial, rfl⟩
    next htype =>
      obtain rfl := Except.ok.inj h
      rw [htype, if_neg (by decide), List.map_nil, List.append_nil]
      exact hinert (by decide) ⟨trivial, rfl⟩
    next htype =>
      obtain rfl := Except.ok.inj h
      rw [htype, if_neg (by decide), List.map_nil, List.append_nil]
      exact hinert (by decide) ⟨trivial, rfl⟩
    next hmessage hcall houtput hreasoning =>
      obtain rfl := Except.ok.inj h
      rw [if_neg hcall, List.map_nil, List.append_nil]
      exact hinert (by decide) ⟨rfl, rfl⟩
  · cases h

theorem responses.decode_input_items_calls {items : List Value} {messages : List Message}
    (h : responses.decode_input_items serde items = .ok messages) :
    Calls (spoken messages) ((responses.arguments items).map (argument_input serde .responses)) := by
  suffices hfold : ∀ (items : List Value) (before : List Message) (inputs : List Value), Calls (spoken before) inputs →
      items.foldlM (responses.decode_input_item serde) before = .ok messages →
      Calls (spoken messages) (inputs ++ (responses.arguments items).map (argument_input serde .responses)) from
    hfold items [] [] (Calls.of_inert (by simp [spoken])) h
  intro items
  induction items with
  | nil =>
    intro before inputs hcalls h
    obtain rfl := Except.ok.inj h
    simpa [responses.arguments] using hcalls
  | cons item items ih =>
    intro before inputs hcalls h
    rw [List.foldlM_cons] at h
    obtain ⟨next, hnext, hrest⟩ := bind_eq_ok.mp h
    have hlater := ih next _ (responses.decode_input_item_calls hnext hcalls) hrest
    rw [List.append_assoc, ← List.map_append] at hlater
    rwa [responses.arguments_cons]

theorem responses.decode_output_items_calls (items : List Value) :
    Calls (responses.decode_output_items serde items) ((responses.arguments items).map (argument_input serde .responses)) := by
  induction items with
  | nil => exact Calls.of_inert (by simp [responses.decode_output_items])
  | cons item items ih =>
    rw [responses.decode_output_items, List.flatMap_cons, responses.arguments_cons, List.map_append]
    refine Calls.append ?_ ih
    rw [responses.arguments_singleton]
    unfold responses.decode_output_item
    split
    next obj =>
      have hkind : (Value.object obj).get_str "type" = some "function_call" ↔
          ((Value.object obj).get_str "type").getD "" = "function_call" := by
        cases (Value.object obj).get_str "type" with
        | none => decide
        | some kind => simp
      rw [if_congr hkind rfl rfl]
      dsimp only
      split
      next htype =>
        rw [htype, if_neg (by decide)]
        exact Calls.of_inert (responses.content_parts_inert _)
      next htype =>
        rw [htype, if_pos rfl]
        exact ⟨fun part hpart => by obtain rfl := List.mem_singleton.mp hpart; trivial, rfl⟩
      next htype =>
        rw [htype, if_neg (by decide)]
        exact Calls.of_inert fun part hpart => by obtain rfl := List.mem_singleton.mp hpart; exact ⟨trivial, rfl⟩
      next hmessage hcall hreasoning =>
        rw [if_neg hcall]
        exact Calls.of_inert fun part hpart => by obtain rfl := List.mem_singleton.mp hpart; exact ⟨rfl, rfl⟩
    next hnot =>
      have hnone : item.get_str "type" = none := by
        cases item with
        | object obj => exact absurd rfl (hnot obj)
        | _ => rfl
      rw [hnone, if_neg (by decide)]
      exact Calls.of_inert (by simp)

end Responses

/-- The calls in a client's request are those in the conversation that it is
    read into, in their order. -/
theorem decode_request_calls {serde : Serde} {source : Protocol} (hsource : source = .chat ∨ source = .responses) {raw : Value}
    {ir : UnifiedRequest} (h : decode_request serde source raw = .ok ir) :
    Calls (ir.messages.flatMap (·.content)) ((request_arguments source raw).map (argument_input serde source)) ∧
      ∀ message ∈ ir.messages, message.role ≠ .system := by
  rcases hsource with rfl | rfl
  · obtain ⟨obj, rfl, hread⟩ := chat.decode_request_decodesTo h
    obtain ⟨raws, hraws, hdecode⟩ := hread.conversation
    refine ⟨?_, chat.decode_messages_roles hdecode⟩
    have hcalls := chat.decode_messages_calls hdecode
    rw [request_arguments, show ((Value.object obj).get "messages").bind Value.as_array = some raws from hraws]
    exact hcalls
  · obtain ⟨obj, rfl, hread⟩ := responses.decode_request_decodesTo h
    obtain ⟨system, hinput⟩ := hread.conversation
    unfold responses.decode_input at hinput
    rw [request_arguments, Value.get_object]
    split at hinput
    next s hs =>
      obtain ⟨-, hmessages⟩ := Prod.mk.inj (Except.ok.inj hinput)
      rw [show obj.lookup "input" = _ from hs, ← hmessages]
      refine ⟨Calls.of_inert fun part hpart => ?_, by simp⟩
      obtain rfl := List.mem_singleton.mp hpart
      exact ⟨trivial, rfl⟩
    next items hitems =>
      obtain ⟨messages, hdecode, heq⟩ := map_eq_ok.mp hinput
      obtain ⟨-, hmessages⟩ := Prod.mk.inj heq
      rw [show obj.lookup "input" = _ from hitems, ← hmessages]
      exact ⟨responses.decode_input_items_calls hdecode, by simp⟩
    · cases hinput
    next hnone =>
      obtain ⟨-, hmessages⟩ := Prod.mk.inj (Except.ok.inj hinput)
      rw [show obj.lookup "input" = _ from hnone, ← hmessages]
      exact ⟨Calls.of_inert (by simp), by simp⟩

/-- So are those in an upstream's answer. -/
theorem decode_response_calls {serde : Serde} {uuid : String} {now : Int} {source : Protocol}
    (hsource : source = .chat ∨ source = .responses) {raw : Value} {answer : UnifiedResponse}
    (h : decode_response serde uuid now source raw = .ok answer) :
    Calls answer.content ((answer_arguments source raw).map (argument_input serde source)) := by
  rcases hsource with rfl | rfl
  · replace h : chat.decode_response serde now raw = .ok answer := h
    unfold chat.decode_response at h
    split at h
    · cases h
    · split at h
      next obj _ =>
        obtain rfl := Except.ok.inj h
        rw [answer_arguments, show (Value.object obj).get "choices" = Map.get obj "choices" from rfl]
        dsimp only
        cases (((Map.get obj "choices").bind Value.as_array).getD []).head? with
        | none => exact Calls.of_inert (by simp)
        | some choice => exact chat.choice_content_calls (choice.get "message") _
      · cases h
  · replace h : responses.decode_response serde now raw = .ok answer := h
    rw [answer_arguments]
    fun_induction responses.decode_response serde now raw with
    | case1 => cases h
    | case2 obj herr inner hinner ih =>
      have hunwrapped : responses.unwrapped (.object obj) = responses.unwrapped (.object inner) := by
        rw [responses.unwrapped]
        split
        next found hfound => rw [Option.some.inj (hfound.symm.trans hinner)]
        next hnone => cases hnone.symm.trans hinner
      rw [hunwrapped]
      exact ih h
    | case3 obj herr hinner =>
      have hunwrapped : responses.unwrapped (.object obj) = .object obj := by
        rw [responses.unwrapped]
        split
        next found hfound => cases hfound.symm.trans hinner
        · rfl
      obtain rfl := Except.ok.inj h
      rw [hunwrapped]
      exact responses.decode_output_items_calls _
    | case4 => cases h

end refract.codec
