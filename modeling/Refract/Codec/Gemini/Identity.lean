import Refract.Codec.Requests
import Refract.Machine.Pairing

open refract.core refract.json refract.ir refract.machine

namespace refract.codec.gemini

section Conversation

/-- No call and no result in a part has an identifier. -/
def Anonymous (part : Value) : Prop :=
  ∀ obj tool, part = .object obj →
    ((field obj "functionCall" "function_call").bind Value.as_object = some tool ∨
      (field obj "functionResponse" "function_response").bind Value.as_object = some tool) →
    non_empty_str (Map.get tool "id") = none

variable (serde : Serde)

/-- The call or the result that a part is read as, with its position. -/
def move (part : Value) (tool_index : Nat) : Option (Remark String Nat) :=
  match decode_part serde part tool_index with
  | some (.toolUse _ name _ _) => some (.ask name tool_index)
  | some (.toolResult _ name _ _) => some (.reply (name.getD "") tool_index)
  | _ => none

/-- The calls and the results of a turn, with their positions among each other. -/
def moves : Nat → List Value → List (Remark String Nat)
  | _, [] => []
  | tool_index, part :: parts =>
    (move serde part tool_index).toList ++ moves (if is_tool part then tool_index + 1 else tool_index) parts

def entry_parts (entry : Value) : List Value := ((entry.get "parts").bind Value.as_array).getD []

/-- The turns of a client's conversation. -/
def moves_of (contents : List Value) : List (Bool × List (Remark String Nat)) :=
  contents.map fun entry => (entry.get_str "role" = some "model", moves serde 0 (entry_parts entry))

end Conversation

section Decoded

/-- The call or the result that a part is, with its identifier. -/
def part_move : ContentPart → Option (Remark String String)
  | .toolUse id name _ _ => some (.ask name id)
  | .toolResult id name _ _ => some (.reply (name.getD "") id)
  | _ => none

/-- The turns of a conversation. -/
def turn_moves (messages : List Message) : List (Bool × List (Remark String String)) :=
  messages.map fun message => (message.role = .assistant, message.content.filterMap part_move)

/-- The calls of a conversation have different identifiers, and every result has
    that of the call it answers. -/
structure Identified (messages : List Message) : Prop where
  distinct : ((turn_moves messages).flatMap fun turn => (asks turn.2).map Prod.snd).Nodup
  answers : ∃ pairs, pair_turns [] (turn_moves messages) = some pairs ∧ ∀ pair ∈ pairs, pair.2.2 = pair.2.1

end Decoded

section Positions

variable (serde : Serde)

/-- No function is called twice at one position of a turn, and every result stands
    at the position of its call. -/
structure Aligned (contents : List Value) : Prop where
  distinct : ((moves_of serde contents).flatMap fun turn => asks turn.2).Nodup
  answers : ∃ pairs, pair_turns [] (moves_of serde contents) = some pairs ∧ ∀ pair ∈ pairs, pair.2.2 = pair.2.1

end Positions

section Names

/-- A made-up identifier tells its name and its position. -/
theorem fallback_call_id_inj {name other : String} {index position : Nat}
    (h : name ++ "#" ++ toString index = other ++ "#" ++ toString position) : name = other ∧ index = position := by
  have hdigits : ∀ n : Nat, '#' ∉ (Nat.toDigits 10 n).reverse := by
    intro n hmem
    have hdigit := Nat.isDigit_of_mem_toDigits (by decide) (by decide) (List.mem_reverse.mp hmem)
    exact absurd hdigit (by decide)
  have hfirst : ∀ (digits rest : List Char), '#' ∉ digits → (digits ++ '#' :: rest).takeWhile (· ≠ '#') = digits := by
    intro digits rest hno
    rw [List.takeWhile_append_of_pos (by rintro c hc; rw [decide_eq_true_iff]; rintro rfl; exact hno hc)]
    simp
  have hsplit : (Nat.toDigits 10 index).reverse ++ '#' :: name.toList.reverse =
      (Nat.toDigits 10 position).reverse ++ '#' :: other.toList.reverse := by
    have hchars := congrArg (List.reverse ∘ String.toList) h
    simpa [Nat.toList_repr, toString] using hchars
  have hindex : (Nat.toDigits 10 index).reverse = (Nat.toDigits 10 position).reverse := by
    rw [← hfirst _ name.toList.reverse (hdigits index), hsplit, hfirst _ _ (hdigits position)]
  rw [hindex, List.append_cancel_left_eq, List.cons_eq_cons, List.reverse_inj, String.toList_inj] at hsplit
  refine ⟨hsplit.2, ?_⟩
  rw [← @Nat.ofDigitChars_ten_toDigits index, ← @Nat.ofDigitChars_ten_toDigits position, List.reverse_inj.mp hindex]

end Names

section Reading

variable {serde : Serde}

/-- The identifier that is made up for a call. -/
def made_up (name : String) (index : Nat) : String := name ++ "#" ++ toString index

/-- What a part is read as: a call, the result of one, or neither. A part that is
    kept as it is stays this protocol's. -/
inductive ReadsAs (obj : Map) (index : Nat) : ContentPart → Prop
  | call (tool : Map) (name : String) (input : Value) (signature : Option String)
      (hcall : (field obj "functionCall" "function_call").bind Value.as_object = some tool) :
      ReadsAs obj index (.toolUse (fallback_call_id (Map.get tool "id") name index) name input signature)
  | result (tool : Map) (name : String) (content : List ContentPart) (is_error : Bool)
      (hresult : (field obj "functionResponse" "function_response").bind Value.as_object = some tool) :
      ReadsAs obj index
        (.toolResult (fallback_call_id (Map.get tool "id") name index) (if name = "" then none else some name) content is_error)
  | other {read : ContentPart} (hmove : part_move read = none)
      (hown : ∀ protocol value, read = .opaqueBlock protocol value → protocol = "gemini") : ReadsAs obj index read

theorem decode_part_readsAs {obj : Map} {index : Nat} {read : ContentPart}
    (h : decode_part serde (.object obj) index = some read) : ReadsAs obj index read := by
  have hmedia : ∀ source mime, ReadsAs obj index (media_part source mime) := by
    intro source mime
    unfold media_part
    dsimp only
    split
    · exact .other rfl (by simp)
    · split
      · exact .other rfl (by simp)
      · exact .other rfl (by simp)
  rw [decode_part] at h
  split at h
  · split at h
    · exact Option.some.inj h ▸ .other rfl (by simp)
    · exact Option.some.inj h ▸ .other rfl (by simp)
  · split at h
    · exact Option.some.inj h ▸ hmedia _ _
    · split at h
      · exact Option.some.inj h ▸ hmedia _ _
      · split at h
        next tool htool => exact Option.some.inj h ▸ .call tool _ _ _ htool
        · split at h
          next tool htool => exact Option.some.inj h ▸ .result tool _ _ _ htool
          · exact Option.some.inj h ▸ .other rfl (by simp)

theorem decode_parts_own {parts : List Value} {index : Nat} :
    ∀ part ∈ decode_parts_from serde index parts, ∀ protocol value, part = .opaqueBlock protocol value → protocol = "gemini" := by
  induction parts generalizing index with
  | nil => exact fun part hpart => absurd hpart List.not_mem_nil
  | cons raw parts ih =>
    intro part hpart
    rw [decode_parts_from] at hpart
    rcases List.mem_append.mp hpart with hpart | hpart
    · cases raw with
      | object obj =>
        cases decode_part_readsAs (Option.mem_toList.mp hpart) with
        | call => simp
        | result => simp
        | other _ hown => exact hown
      | _ => cases hpart
    · exact ih part hpart

/-- A part is read with the identifier that is made up for it. -/
theorem decode_part_move {part : Value} (h : Anonymous part) (index : Nat) :
    (decode_part serde part index).bind part_move = (move serde part index).map (Remark.retag made_up) := by
  rw [move]
  cases hread : decode_part serde part index with
  | none => rfl
  | some read =>
    cases part with
    | object obj =>
      cases decode_part_readsAs hread with
      | call tool name input signature hcall =>
        rw [fallback_call_id, h obj tool rfl (.inl hcall)]
        rfl
      | result tool name content is_error hresult =>
        have hname : (if name = "" then none else some name).getD "" = name := by
          split
          next hempty => exact hempty.symm
          · rfl
        rw [fallback_call_id, h obj tool rfl (.inr hresult)]
        dsimp only [Option.bind_some, part_move]
        rw [hname]
        rfl
      | other hmove =>
        rw [Option.bind_some, hmove]
        cases read with
        | toolUse => cases hmove
        | toolResult => cases hmove
        | _ => rfl
    | _ => cases hread

theorem decode_parts_moves {parts : List Value} (h : ∀ part ∈ parts, Anonymous part) (index : Nat) :
    (decode_parts_from serde index parts).filterMap part_move = (moves serde index parts).map (Remark.retag made_up) := by
  induction parts generalizing index with
  | nil => rfl
  | cons part parts ih =>
    obtain ⟨hpart, hparts⟩ := List.forall_mem_cons.mp h
    have hmove := @decode_part_move serde part hpart index
    have hlist : (decode_part serde part index).toList.filterMap part_move = (move serde part index).toList.map (Remark.retag made_up) := by
      rw [← Option.toList_map, ← hmove]
      cases decode_part serde part index with
      | none => rfl
      | some read =>
        rw [Option.toList_some, List.filterMap_cons, List.filterMap_nil, Option.bind_some]
        cases part_move read <;> rfl
    rw [decode_parts_from, moves, List.filterMap_append, List.map_append, ih hparts, hlist]

/-- A turn of the model is read as one of the assistant. -/
theorem decode_content_eq {entry : Value} {message : Message} (h : decode_content serde entry = .ok message) :
    (message.role = .assistant ↔ entry.get_str "role" = some "model") ∧ message.content = decode_parts serde (entry_parts entry) := by
  have htool : ∀ (role : Role) (results : Prop) [Decidable results],
      (if role = .user ∧ results then Role.tool else role) = .assistant ↔ role = .assistant := by
    intro role results _
    split
    next hboth => simp [hboth.1]
    · rfl
  unfold decode_content at h
  split at h
  next obj =>
    obtain rfl := Except.ok.inj h
    refine ⟨(htool _ _).trans ?_, rfl⟩
    split
    next hmodel => exact iff_of_true rfl hmodel
    next hfunction => simp [hfunction]
    next hmodel _ => exact iff_of_false (by decide) hmodel
  · cases h

/-- The calls and results of a conversation with the identifiers made up for them. -/
theorem decode_contents_moves {contents : List Value} {messages : List Message}
    (h : ∀ entry ∈ contents, ∀ part ∈ entry_parts entry, Anonymous part) (hread : decode_contents serde contents = .ok messages) :
    turn_moves messages = (moves_of serde contents).map fun turn => (turn.1, turn.2.map (Remark.retag made_up)) := by
  induction contents generalizing messages with
  | nil =>
    obtain rfl := Except.ok.inj hread
    rfl
  | cons entry contents ih =>
    obtain ⟨hentry, hcontents⟩ := List.forall_mem_cons.mp h
    rw [decode_contents] at hread
    obtain ⟨message, hmessage, hread⟩ := bind_eq_ok.mp hread
    obtain ⟨rest, hrest, rfl⟩ := map_eq_ok.mp hread
    have hlater := ih hcontents hrest
    rw [turn_moves, moves_of, List.map_cons, List.map_cons, List.map_cons, ← turn_moves, ← moves_of, hlater]
    obtain ⟨hrole, hparts⟩ := decode_content_eq hmessage
    rw [decide_eq_decide.mpr hrole, hparts, decode_parts, decode_parts_moves hentry 0]

end Reading

section Requests

variable {serde : Serde} {raw : Value} {contents : List Value} {ir : UnifiedRequest}

theorem decode_request_contents (h : decode_request serde raw = .ok ir) (hcontents : raw.get "contents" = some (.array contents)) :
    decode_contents serde contents = .ok ir.messages := by
  obtain ⟨obj, rfl, hread⟩ := decode_request_decodesTo h
  have hconversation := hread.conversation
  rw [show Map.get obj "contents" = some (.array contents) from hcontents] at hconversation
  exact hconversation

theorem identified_iff_aligned (h : decode_request serde raw = .ok ir) (hcontents : raw.get "contents" = some (.array contents))
    (hanonymous : ∀ entry ∈ contents, ∀ part ∈ entry_parts entry, Anonymous part)
    (hanswers : (pair_turns [] (moves_of serde contents)).isSome = true) :
    Identified ir.messages ↔ Aligned serde contents := by
  have hmoves := decode_contents_moves hanonymous (decode_request_contents h hcontents)
  have hinj : Function.Injective fun asked : String × Nat => made_up asked.1 asked.2 := by
    rintro ⟨name, index⟩ ⟨other, position⟩ heq
    obtain ⟨rfl, rfl⟩ := fallback_call_id_inj heq
    rfl
  have hdistinct : ((turn_moves ir.messages).flatMap fun turn => (asks turn.2).map Prod.snd) =
      ((moves_of serde contents).flatMap fun turn => asks turn.2).map fun asked => made_up asked.1 asked.2 := by
    rw [hmoves, List.flatMap_map, List.map_flatMap]
    refine List.flatMap_congr fun turn _ => ?_
    rw [asks_retag, List.map_map]
    rfl
  obtain ⟨pairs, hpairs⟩ := Option.isSome_iff_exists.mp hanswers
  have hpaired : pair_turns [] (turn_moves ir.messages) = some (pairs.map (retag_pair made_up)) := by
    have hretag := pair_turns_retag made_up [] (moves_of serde contents)
    rw [hpairs] at hretag
    rw [hmoves]
    exact hretag
  constructor
  · rintro ⟨hnodup, found, hfound, hsame⟩
    obtain rfl := Option.some.inj (hpaired.symm.trans hfound)
    refine ⟨List.Nodup.of_map _ (hdistinct ▸ hnodup), pairs, hpairs, fun pair hpair => ?_⟩
    exact (fallback_call_id_inj (hsame _ (List.mem_map_of_mem hpair))).2
  · rintro ⟨hnodup, found, hfound, hsame⟩
    obtain rfl := Option.some.inj (hpairs.symm.trans hfound)
    refine ⟨hdistinct ▸ hnodup.map hinj, _, hpaired, fun pair hpair => ?_⟩
    obtain ⟨pair, hmem, rfl⟩ := List.mem_map.mp hpair
    exact congrArg (made_up pair.1) (hsame pair hmem)

theorem decode_contents_own {messages : List Message} (h : decode_contents serde contents = .ok messages) :
    ∀ part ∈ messages.flatMap (·.content), ∀ protocol value, part = .opaqueBlock protocol value → protocol = "gemini" := by
  induction contents generalizing messages with
  | nil =>
    obtain rfl := Except.ok.inj h
    exact fun part hpart => absurd hpart List.not_mem_nil
  | cons entry contents ih =>
    rw [decode_contents] at h
    obtain ⟨message, hmessage, h⟩ := bind_eq_ok.mp h
    obtain ⟨rest, hrest, rfl⟩ := map_eq_ok.mp h
    intro part hpart
    rw [List.flatMap_cons] at hpart
    rcases List.mem_append.mp hpart with hpart | hpart
    · rw [(decode_content_eq hmessage).2] at hpart
      exact decode_parts_own part hpart
    · exact ih hrest part hpart

end Requests

end refract.codec.gemini
