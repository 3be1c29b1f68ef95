import Refract.Codec.Moves
import Refract.Codec.Inputs

open refract.core refract.json refract.ir refract.machine

namespace refract.codec

variable {serde : Serde} {moves : List Move} {conversation : List Message}

section Messages

/-- The blocks of a part. -/
def messages.part_blocks (part : ContentPart) : List Value := (messages.encode_block part).toList

/-- A turn as it is written. -/
def messages.turn_json (turn : String × List Value) : Value :=
  .object [("role", .string turn.1), ("content", messages.encode_content turn.2)]

def messages.ReadAs (serde : Serde) (raw : Value) (message : Message) : Prop :=
  ∀ position, messages.decode_message serde raw position = .ok message

theorem messages.decode_messages_read {raws : List Value} (h : List.Forall₂ (messages.ReadAs serde) raws conversation)
    (position : Nat) : messages.decode_messages serde position raws = .ok conversation := by
  induction h generalizing position with
  | nil => rfl
  | cons hread _ ih =>
    rw [messages.decode_messages, hread position, Except.bind, ih (position + 1)]
    rfl

theorem messages.merges : Merges serde messages.role_str messages.part_blocks where
  tool := rfl
  other := by decide
  text text := by simp [messages.part_blocks, messages.encode_block]
  call errand part := by
    rintro ⟨signature, rfl⟩
    simp [messages.part_blocks, messages.encode_block]
  result errand part := by
    rintro ⟨name, content, rfl, -⟩
    simp [messages.part_blocks, messages.encode_block]

/-- A block of some kind that is read as a part. -/
structure messages.BlockOf (serde : Serde) (kind : String) (raw : Value) (part : ContentPart) : Prop where
  reads : messages.decode_block serde raw = .ok [part]
  typed : raw.get_str "type" = some kind
  result : part.is_tool_result = decide (kind = "tool_result")

/-- Blocks that are no texts are written as they are. -/
theorem messages.encode_content_blocks {blocks : List Value} (h : ∀ block ∈ blocks, block.get_str "type" ≠ some "text") :
    messages.encode_content blocks = .array blocks := by
  unfold messages.encode_content
  split
  next only => rw [if_neg (h only List.mem_cons_self)]
  · rfl

/-- Blocks are read one after another. -/
theorem messages.decode_content_read {kind : String} (hkind : kind ≠ "text") {raws : List Value} {parts : List ContentPart}
    (h : List.Forall₂ (messages.BlockOf serde kind) raws parts) (here : String) :
    messages.decode_content serde here (some (messages.encode_content raws)) = .ok parts := by
  have hkinds : ∀ raw ∈ raws, raw.get_str "type" ≠ some "text" := by
    induction h with
    | nil => exact List.forall_mem_nil _
    | cons hread _ ih =>
      rw [List.forall_mem_cons]
      exact ⟨fun htext => hkind (Option.some.inj (hread.typed.symm.trans htext)), ih⟩
  rw [messages.encode_content_blocks hkinds, messages.decode_content]
  clear hkinds
  induction h with
  | nil => rw [messages.decode_blocks]
  | cons hread _ ih =>
    rw [messages.decode_blocks, hread.reads, ih]
    rfl

/-- A call is read back, without a signature. -/
theorem messages.makes_read {errand : Errand} {part : ContentPart} (h : Makes errand part) :
    ∃ raw read, messages.part_blocks part = [raw] ∧
      messages.BlockOf serde "tool_use" raw read ∧ Makes errand read := by
  obtain ⟨signature, rfl⟩ := h
  refine ⟨_, _, by rw [messages.part_blocks, messages.encode_block, Option.toList_some], ⟨?_, rfl, rfl⟩, none, rfl⟩
  rw [messages.decode_block]
  rfl

/-- A result is read back as a text. -/
theorem messages.reports_read {errand : Errand} {part : ContentPart} (h : Reports serde errand part) :
    ∃ raw read, messages.part_blocks part = [raw] ∧
      messages.BlockOf serde "tool_result" raw read ∧ Reports serde errand read := by
  obtain ⟨name, content, rfl, hname, hworded, hpayload⟩ := h
  have hcontent : messages.encode_tool_result_content content = .string (String.join (ContentPart.texts content)) := by
    obtain rfl | ⟨text, rfl⟩ := hworded
    · rw [messages.encode_tool_result_content]
      rfl
    · simp [messages.encode_tool_result_content, ContentPart.as_text, ContentPart.texts]
  have hreports : Reports serde errand (.toolResult errand.id none [.text (String.join (ContentPart.texts content))] false) :=
    Reports.reworded (by simp) hpayload (.inr ⟨_, rfl⟩) (by simp [ContentPart.texts, ContentPart.as_text])
  refine ⟨_, _, by rw [messages.part_blocks, messages.encode_block, Option.toList_some, hcontent], ⟨?_, rfl, rfl⟩, hreports⟩
  have hread : messages.decode_tool_result_content serde (some (.string (String.join (ContentPart.texts content)))) =
      .ok [.text (String.join (ContentPart.texts content))] := by
    rw [messages.decode_tool_result_content]
  rw [messages.decode_block]
  change (messages.decode_tool_result_content serde (some (.string (String.join (ContentPart.texts content))))).map
    (fun content => [ContentPart.toolResult errand.id none content false]) = _
  rw [hread]
  rfl

theorem messages.decode_turn {role : Role} (hrole : role = .user ∨ role = .assistant) (blocks : List Value) (position : Nat) :
    messages.decode_message serde (messages.turn_json (messages.role_str role, blocks)) position =
      (messages.decode_content serde ("messages[" ++ toString position ++ "]") (some (messages.encode_content blocks))).map
        fun content =>
          { role := if role = .user ∧ ¬content.isEmpty ∧ content.all ContentPart.is_tool_result then .tool else role
            content := content } := by
  rcases hrole with rfl | rfl <;> rfl

/-- Results of calls alone are a message of the tools. -/
theorem messages.results_read {result read : List ContentPart}
    (h : List.Forall₂ (messages.BlockOf serde "tool_result") (result.flatMap messages.part_blocks) read)
    (hread : read ≠ []) :
    messages.ReadAs serde (messages.turn_json (spoken_turn messages.role_str messages.part_blocks { role := .tool, content := result }))
      { role := .tool, content := read } := by
  intro position
  have hcontent := messages.decode_content_read (by decide) h ("messages[" ++ toString position ++ "]")
  have hall : ∀ part ∈ read, part.is_tool_result = true := forall_right h fun _ _ hpart => hpart.result
  have hrole : (.user : Role) = .user ∧ ¬read.isEmpty ∧ read.all ContentPart.is_tool_result :=
    ⟨rfl, by simpa using hread, List.all_eq_true.mpr hall⟩
  rw [spoken_turn, (@messages.merges serde).tool, messages.decode_turn (.inl rfl), hcontent, Except.map, if_pos hrole]

/-- The messages of a dialogue are read back one by one. -/
theorem messages.tells_read (h : Conveys serde moves conversation) (hsound : ∀ move ∈ moves, move.Sound) :
    ∃ read, List.Forall₂ (messages.ReadAs serde)
      (conversation.map fun message => messages.turn_json (spoken_turn messages.role_str messages.part_blocks message)) read ∧
        Conveys serde moves read := by
  induction h with
  | nil => exact ⟨[], .nil, .nil⟩
  | @asked name text moves conversation _ ih =>
    obtain ⟨read, hreads, hread⟩ := ih (List.forall_mem_cons.mp hsound).2
    refine ⟨_, .cons (fun position => ?_) hreads, .asked none hread⟩
    simp [spoken_turn, messages.part_blocks, messages.encode_block]
    rfl
  | @answered name text moves conversation _ ih =>
    obtain ⟨read, hreads, hread⟩ := ih (List.forall_mem_cons.mp hsound).2
    refine ⟨_, .cons (fun position => ?_) hreads, .answered none hread⟩
    simp [spoken_turn, messages.part_blocks, messages.encode_block]
    rfl
  | @called name errands calls results moves conversation hcalls hresults hsome _ ih =>
    obtain ⟨hmove, hmoves⟩ := List.forall_mem_cons.mp hsound
    obtain ⟨read, hreads, hread⟩ := ih hmoves
    obtain ⟨calls_read, hcalls_raw, hcalls_read⟩ := forall_passed hcalls fun errand _ part => @messages.makes_read serde errand part
    obtain ⟨results_read, hgroups, hresults_read, hsome_read⟩ :=
      groups_passed hresults hsome fun errand _ part => messages.reports_read
    refine ⟨{ role := .assistant, content := calls_read } :: (results_read.map ({ role := .tool, content := · })) ++ read, ?_,
      .called none hcalls_read hresults_read hsome_read hread⟩
    rw [List.cons_append, List.map_cons, List.map_append, List.map_map]
    refine .cons (fun position => ?_) (List.rel_append ?_ hreads)
    · rw [spoken_turn, messages.decode_turn (.inr rfl), messages.decode_content_read (by decide) hcalls_raw]
      rfl
    · rw [List.forall₂_map_left_iff, List.forall₂_map_right_iff]
      exact hgroups.imp fun result read hgroup => messages.results_read hgroup.1 hgroup.2

/-- A dialogue is the same after a request in this protocol. -/
theorem messages.conversation_passes (hsound : Sound moves) (h : Conveys serde moves conversation) :
    ∃ read, messages.decode_messages serde 0 (messages.encode_messages conversation) = .ok read ∧ Conveys serde moves read := by
  obtain ⟨joined, hjoined, hmerged⟩ := h.merged messages.merges hsound.each hsound.alternate
  obtain ⟨read, hreads, hread⟩ := messages.tells_read hjoined hsound.each
  refine ⟨read, ?_, hread⟩
  have hturns : messages.merge_messages conversation = joined.map (spoken_turn messages.role_str messages.part_blocks) := by
    have hresume := hmerged [] (by simp)
    rw [List.nil_append] at hresume
    rw [← hresume, messages.merge_messages, merge_turns_eq_resume]
    refine congrArg (resume []) (List.map_congr_left fun message _ => ?_)
    rw [messages.encode_blocks_eq]
    rfl
  have hfirst : messages.start_with_user (messages.merge_messages conversation) = messages.merge_messages conversation := by
    rw [hturns]
    cases hjoined with
    | nil => rfl
    | asked => rfl
    | answered => exact absurd (hsound.opened _ rfl) Bool.false_ne_true
    | called => exact absurd (hsound.opened _ rfl) Bool.false_ne_true
  apply messages.decode_messages_read
  rw [messages.encode_messages, hfirst, hturns, List.map_map]
  exact hreads

end Messages

section Gemini

variable {names : List (String × String)}

/-- What a part is written as. -/
def gemini.part_values (serde : Serde) (names : List (String × String)) (part : ContentPart) : List Value :=
  (gemini.encode_part serde names part).toList

def gemini.turn_value (turn : String × List Value) : Value :=
  .object [("role", .string turn.1), ("parts", .array turn.2)]

def gemini.ReadAs (serde : Serde) (raw : Value) (message : Message) : Prop := gemini.decode_content serde raw = .ok message

theorem gemini.decode_contents_read {raws : List Value} (h : List.Forall₂ (gemini.ReadAs serde) raws conversation) :
    gemini.decode_contents serde raws = .ok conversation := by
  induction h with
  | nil => rfl
  | cons hread _ ih =>
    rw [gemini.decode_contents, hread, Except.bind, ih]
    rfl

theorem gemini.merges : Merges serde gemini.role_to_gemini (gemini.part_values serde names) where
  tool := rfl
  other := by decide
  text text := by simp [gemini.part_values, gemini.encode_part]
  call errand part := by
    rintro ⟨signature, rfl⟩
    simp [gemini.part_values, gemini.encode_part]
  result errand part := by
    rintro ⟨name, content, rfl, -⟩
    simp [gemini.part_values, gemini.encode_part]

/-- A value that is read as a part wherever it stands. -/
structure gemini.PartOf (serde : Serde) (is_result : Bool) (raw : Value) (part : ContentPart) : Prop where
  reads : ∀ index, gemini.decode_part serde raw index = some part
  result : part.is_tool_result = is_result

theorem gemini.decode_parts_read {is_result : Bool} {raws : List Value} {parts : List ContentPart}
    (h : List.Forall₂ (gemini.PartOf serde is_result) raws parts) (index : Nat) :
    gemini.decode_parts_from serde index raws = parts := by
  induction h generalizing index with
  | nil => rfl
  | cons hread _ ih =>
    rw [gemini.decode_parts_from, hread.reads index, ih]
    rfl

/-- An identifier that is the model's own is written. -/
theorem gemini.call_id_sound {errand : Errand} (herrand : errand.Sendable) :
    gemini.call_id errand.id errand.name = [("id", .string errand.id)] := by
  rw [gemini.call_id, if_pos]
  exact ⟨herrand.id_ne, by rw [herrand.own_id]; exact Bool.false_ne_true⟩

theorem gemini.fallback_call_id_sound {errand : Errand} (herrand : errand.Sendable) (name : String) (index : Nat) :
    gemini.fallback_call_id (some (.string errand.id)) name index = errand.id := by
  simp [gemini.fallback_call_id, gemini.non_empty_str, Value.as_str, Option.filter, herrand.id_ne]

theorem gemini.makes_read {errand : Errand} (herrand : errand.Sendable) {part : ContentPart} (h : Makes errand part) :
    ∃ raw read, gemini.part_values serde names part = [raw] ∧ gemini.PartOf serde false raw read ∧ Makes errand read := by
  obtain ⟨signature, rfl⟩ := h
  refine ⟨_, .toolUse errand.id errand.name (.object errand.input) (gemini.non_empty_str (signature.map .string)), rfl,
    ⟨fun index => ?_, rfl⟩, _, rfl⟩
  have hread : gemini.decode_part serde (.object ([("functionCall", .object ([("id", .string errand.id)] ++
      [("name", .string errand.name), ("args", .object errand.input)]))] ++
      member "thoughtSignature" (signature.map .string))) index =
        some (.toolUse (gemini.fallback_call_id (some (.string errand.id)) errand.name index) errand.name (.object errand.input)
          (gemini.non_empty_str (signature.map .string))) := by
    cases signature <;> rfl
  rw [gemini.call_id_sound herrand, hread, gemini.fallback_call_id_sound herrand]

/-- A result is read back as the text of its object. -/
theorem gemini.reports_read (hserde : serde.Lawful) {errand : Errand} (herrand : errand.Sound)
    (hnamed : names.lookup errand.id = some errand.name) {part : ContentPart} (h : Reports serde errand part) :
    ∃ raw read, gemini.part_values serde names part = [raw] ∧ gemini.PartOf serde true raw read ∧ Reports serde errand read := by
  obtain ⟨name, content, rfl, hname, -, hpayload⟩ := h
  have hresolved : (name.or (names.lookup errand.id)).getD errand.id = errand.name := by
    cases name with
    | none => rw [Option.none_or, hnamed, Option.getD_some]
    | some name => exact hname name rfl
  refine ⟨_, .toolResult errand.id (if errand.name = "" then none else some errand.name)
    [.text (serde.to_string (.object errand.output))] false, rfl, ⟨fun index => ?_, rfl⟩, Reports.of_output hserde herrand ?_⟩
  · rw [hresolved, gemini.call_id_sound herrand.toSendable, hpayload]
    have hread : gemini.decode_part serde (.object [("functionResponse", .object ([("id", .string errand.id)] ++
        [("name", .string errand.name), ("response", .object errand.output)]))]) index =
          some (.toolResult (gemini.fallback_call_id (some (.string errand.id)) errand.name index)
            (if errand.name = "" then none else some errand.name) [.text (serde.to_string (.object errand.output))]
            (Map.contains_key errand.output "error")) := rfl
    rw [hread, gemini.fallback_call_id_sound herrand.toSendable, herrand.no_error]
  · intro other hother
    split at hother
    · cases hother
    · exact (Option.some.inj hother).symm

/-- Results of calls alone are a turn of the tools. -/
theorem gemini.results_read {result read : List ContentPart} (hread : read ≠ [])
    (h : List.Forall₂ (gemini.PartOf serde true) (result.flatMap (gemini.part_values serde names)) read) :
    gemini.ReadAs serde (gemini.turn_value (spoken_turn gemini.role_to_gemini (gemini.part_values serde names)
      { role := .tool, content := result })) { role := .tool, content := read } := by
  have hcontent : gemini.decode_parts serde (result.flatMap (gemini.part_values serde names)) = read := gemini.decode_parts_read h 0
  have hall : ∀ part ∈ read, part.is_tool_result = true := forall_right h fun _ _ hpart => hpart.result
  have hrole : (.user : Role) = .user ∧ ¬read.isEmpty ∧ read.all ContentPart.is_tool_result :=
    ⟨rfl, by simpa using hread, List.all_eq_true.mpr hall⟩
  have hturn : gemini.decode_content serde (gemini.turn_value ("user", result.flatMap (gemini.part_values serde names))) =
      .ok { role := if (.user : Role) = .user ∧
                ¬(gemini.decode_parts serde (result.flatMap (gemini.part_values serde names))).isEmpty ∧
                (gemini.decode_parts serde (result.flatMap (gemini.part_values serde names))).all ContentPart.is_tool_result
              then .tool else .user
            content := gemini.decode_parts serde (result.flatMap (gemini.part_values serde names)) } := rfl
  rw [hcontent, if_pos hrole] at hturn
  exact hturn

/-- The turns of a dialogue are read back one by one. -/
theorem gemini.tells_read (hserde : serde.Lawful) (h : Conveys serde moves conversation) (hsound : ∀ move ∈ moves, move.Sound)
    (hnames : ∀ errand ∈ moves.flatMap Move.errands, names.lookup errand.id = some errand.name) :
    ∃ read, List.Forall₂ (gemini.ReadAs serde) (conversation.map fun message => gemini.turn_value
      (spoken_turn gemini.role_to_gemini (gemini.part_values serde names) message)) read ∧ Conveys serde moves read := by
  induction h with
  | nil => exact ⟨[], .nil, .nil⟩
  | @asked name text moves conversation _ ih =>
    obtain ⟨read, hreads, hread⟩ := ih (List.forall_mem_cons.mp hsound).2 hnames
    exact ⟨_, .cons rfl hreads, .asked none hread⟩
  | @answered name text moves conversation _ ih =>
    obtain ⟨read, hreads, hread⟩ := ih (List.forall_mem_cons.mp hsound).2 hnames
    exact ⟨_, .cons rfl hreads, .answered none hread⟩
  | @called name errands calls results moves conversation hcalls hresults hsome _ ih =>
    obtain ⟨hmove, hmoves⟩ := List.forall_mem_cons.mp hsound
    rw [List.flatMap_cons] at hnames
    obtain ⟨hnamed, hrest⟩ := List.forall_mem_append.mp hnames
    obtain ⟨read, hreads, hread⟩ := ih hmoves hrest
    have herrands : ∀ errand ∈ errands, errand.Sound := by cases hmove with | called _ herrands => exact herrands
    obtain ⟨calls_read, hcalls_raw, hcalls_read⟩ := forall_passed hcalls fun errand herrand part =>
      @gemini.makes_read serde names errand (herrands errand herrand).toSendable part
    obtain ⟨results_read, hgroups, hresults_read, hsome_read⟩ := groups_passed hresults hsome fun errand herrand part =>
      gemini.reports_read hserde (herrands errand herrand) (hnamed errand herrand)
    refine ⟨{ role := .assistant, content := calls_read } :: (results_read.map ({ role := .tool, content := · })) ++ read, ?_,
      .called none hcalls_read hresults_read hsome_read hread⟩
    rw [List.cons_append, List.map_cons, List.map_append, List.map_map]
    refine .cons ?_ (List.rel_append ?_ hreads)
    · have hcontent : gemini.decode_parts serde (calls.flatMap (gemini.part_values serde names)) = calls_read :=
        gemini.decode_parts_read hcalls_raw 0
      have hturn : gemini.decode_content serde (gemini.turn_value ("model", calls.flatMap (gemini.part_values serde names))) =
          .ok { role := .assistant, content := gemini.decode_parts serde (calls.flatMap (gemini.part_values serde names)) } := rfl
      rw [hcontent] at hturn
      exact hturn
    · rw [List.forall₂_map_left_iff, List.forall₂_map_right_iff]
      exact hgroups.imp fun result read hgroup => gemini.results_read hgroup.2 hgroup.1

/-- A call is found by its identifier. -/
theorem gemini.names_found (hsound : Sound moves) (h : Conveys serde moves conversation) :
    ∀ errand ∈ moves.flatMap Move.errands, (gemini.tool_names conversation).lookup errand.id = some errand.name := by
  have hnames : gemini.tool_names conversation = ((moves.flatMap Move.errands).map fun errand => (errand.id, errand.name)).reverse := by
    refine congrArg List.reverse (h.filterMap_calls ?_ (fun _ => rfl) ?_)
    · rintro errand _ ⟨signature, rfl⟩
      rfl
    · rintro errand _ ⟨name, content, rfl, -⟩
      rfl
  intro errand herrand
  rw [hnames]
  apply lookup_of_agree
  · exact List.mem_reverse.mpr (List.mem_map.mpr ⟨errand, herrand, rfl⟩)
  · intro entry hentry hid
    obtain ⟨other, hother, rfl⟩ := List.mem_map.mp (List.mem_reverse.mp hentry)
    exact hsound.one_name other hother errand herrand hid

theorem gemini.conversation_passes (hserde : serde.Lawful) (hsound : Sound moves) (h : Conveys serde moves conversation) :
    ∃ read, gemini.decode_contents serde (gemini.encode_contents serde conversation) = .ok read ∧ Conveys serde moves read := by
  obtain ⟨joined, hjoined, hmerged⟩ :=
    h.merged (@gemini.merges serde (gemini.tool_names conversation)) hsound.each hsound.alternate
  obtain ⟨read, hreads, hread⟩ := gemini.tells_read hserde hjoined hsound.each (gemini.names_found hsound h)
  refine ⟨read, gemini.decode_contents_read ?_, hread⟩
  have hspoken : conversation.filter (·.role ≠ .system) = conversation :=
    List.filter_eq_self.mpr fun message hmessage => by simpa using h.spoken message hmessage
  have hturns : gemini.encode_turns serde conversation =
      joined.map (spoken_turn gemini.role_to_gemini (gemini.part_values serde (gemini.tool_names conversation))) := by
    have hresume := hmerged [] (by simp)
    rw [List.nil_append] at hresume
    rw [← hresume, gemini.encode_turns, hspoken, merge_turns_eq_resume]
    refine congrArg (resume []) (List.map_congr_left fun message _ => ?_)
    rw [List.filterMap_eq_flatMap_toList]
    rfl
  rw [gemini.encode_contents, hturns, List.map_map]
  exact hreads

end Gemini

section Chat

/-- A message that is read wherever it stands. -/
def chat.ReadAs (serde : Serde) (raw : Value) (message : Message) : Prop :=
  ∀ i, chat.decode_message serde none i raw = .ok ([], [message])

theorem chat.decode_messages_read {raws : List Value} (h : List.Forall₂ (chat.ReadAs serde) raws conversation) (i : Nat) :
    chat.decode_messages serde none i raws = .ok ([], conversation) := by
  induction h generalizing i with
  | nil => rfl
  | cons hread _ ih =>
    rw [chat.decode_messages, hread i, Except.bind, ih (i + 1)]
    rfl

/-- A text is read back with the name of who says it. -/
theorem chat.text_read {role : Role} (hrole : role = .user ∨ role = .assistant) {text : String} (hne : text ≠ "") (name : Option String) :
    ∃ raw, chat.encode_message serde { role := role, content := [.text text], name := name } = [raw] ∧
      chat.ReadAs serde raw { role := role, content := [.text text], name := name } := by
  have hcontent : chat.parse_content (some (.string ("" ++ text))) = [.text text] := by
    rw [String.empty_append, chat.parse_content, if_neg hne]
  rcases hrole with rfl | rfl
  · refine ⟨.object ([("role", .string "user"), ("content", .string ("" ++ text))] ++ member "name" (name.map .string)),
      ?_, fun i => ?_⟩
    · cases name <;> rfl
    · have hread : chat.decode_message serde none i (.object ([("role", .string "user"), ("content", .string ("" ++ text))] ++
          member "name" (name.map .string))) =
            .ok ([], [{ role := .user, content := chat.parse_content (some (.string ("" ++ text))), name := name }]) := by
        cases name <;> rfl
      rw [hread, hcontent]
  · refine ⟨.object ([("role", .string "assistant"), ("content", .string ("" ++ text))] ++ member "name" (name.map .string)),
      ?_, fun i => ?_⟩
    · cases name <;> rfl
    · have hread : chat.decode_message serde none i (.object ([("role", .string "assistant"), ("content", .string ("" ++ text))] ++
          member "name" (name.map .string))) =
            .ok ([], [{ role := .assistant, content := chat.parse_content (some (.string ("" ++ text))) ++ [] ++ [], name := name }]) := by
        cases name <;> rfl
      rw [hread, hcontent]
      rfl

theorem chat.makes_read (hserde : serde.Lawful) {errand : Errand} (herrand : errand.Sendable) {part : ContentPart} (h : Makes errand part) :
    ∃ raw read, (chat.tool_call_json serde part).toList = [raw] ∧ chat.parse_tool_call serde raw = read ∧ Makes errand read := by
  obtain ⟨signature, rfl⟩ := h
  have harguments : chat.parse_arguments serde (some (.string (serde.to_string (.object errand.input)))) = .object errand.input := by
    rw [chat.parse_arguments, hserde.trim_to_string _ herrand.input, if_neg (hserde.to_string_ne_empty herrand.input),
      hserde.from_str_to_string _ herrand.input]
    rfl
  exact ⟨_, _, rfl, rfl, none, congrArg (ContentPart.toolUse errand.id errand.name · none) harguments⟩

theorem chat.parse_tool_calls_read {raws : List Value} {parts : List ContentPart}
    (h : List.Forall₂ (fun raw part => chat.parse_tool_call serde raw = part) raws parts) : chat.parse_tool_calls serde raws = parts := by
  induction h with
  | nil => rfl
  | cons hfirst _ ih => exact congrArg₂ List.cons hfirst ih

/-- Calls are read back in order, with the name of who makes them. -/
theorem chat.calls_read (hserde : serde.Lawful) {errands : List Errand} (hne : errands ≠ [])
    (herrands : ∀ errand ∈ errands, errand.Sound) {calls : List ContentPart} (h : List.Forall₂ Makes errands calls)
    (name : Option String) : ∃ raw read, chat.encode_message serde { role := .assistant, content := calls, name := name } = [raw] ∧
      chat.ReadAs serde raw { role := .assistant, content := read, name := name } ∧ List.Forall₂ Makes errands read := by
  obtain ⟨read, hraws, hread⟩ := forall_passed h fun errand herrand part => chat.makes_read hserde (herrands errand herrand).toSendable
  have hmade : ∀ part ∈ calls, ∃ errand, Makes errand part := forall_right h fun errand _ hmakes => ⟨errand, hmakes⟩
  have hvisible : calls.filter chat.is_visible = [] := by
    refine List.filter_eq_nil_iff.mpr fun part hpart => ?_
    obtain ⟨errand, signature, rfl⟩ := hmade part hpart
    exact Bool.false_ne_true
  have hrefusal : chat.refusal_text calls = none := by
    have hnone : calls.any ContentPart.is_refusal = false := by
      refine List.any_eq_false.mpr fun part hpart => ?_
      obtain ⟨errand, signature, rfl⟩ := hmade part hpart
      exact Bool.false_ne_true
    rw [chat.refusal_text, hnone]
    rfl
  have hcalls : calls.filterMap (chat.tool_call_json serde) ≠ [] := by
    intro hempty
    rw [List.filterMap_eq_flatMap_toList] at hempty
    rw [hempty] at hraws
    cases hraws
    cases hread
    exact hne rfl
  have hsome : (calls.filterMap (chat.tool_call_json serde)).isEmpty = false := by simpa using hcalls
  have hmessage : chat.encode_message serde { role := .assistant, content := calls, name := name } =
      [.object ([("role", .string "assistant"), ("content", .null)] ++ member "refusal" none ++
        member "tool_calls" (some (.array (calls.filterMap (chat.tool_call_json serde)))) ++ member "name" (name.map .string))] := by
    rw [chat.encode_message, if_neg (by simp)]
    dsimp only
    rw [hvisible, hrefusal, hsome]
    rfl
  have hparsed : chat.parse_tool_calls serde (calls.filterMap (chat.tool_call_json serde)) = read := by
    rw [List.filterMap_eq_flatMap_toList]
    exact chat.parse_tool_calls_read hraws
  refine ⟨_, read, hmessage, fun i => ?_, hread⟩
  have hdecoded : chat.decode_message serde none i (.object ([("role", .string "assistant"), ("content", .null)] ++
      member "refusal" none ++ member "tool_calls" (some (.array (calls.filterMap (chat.tool_call_json serde)))) ++
      member "name" (name.map .string))) =
        .ok ([], [{ role := .assistant, content := chat.parse_tool_calls serde (calls.filterMap (chat.tool_call_json serde)),
                    name := name }]) := by
    cases name <;> rfl
  rw [hdecoded, hparsed]

/-- The message of a result. -/
def chat.result_values (part : ContentPart) : List Value := chat.encode_tool_results [part]

theorem chat.reports_read {errand : Errand} (herrand : errand.Sound) {part : ContentPart} (h : Reports serde errand part) :
    ∃ raw read, chat.result_values part = [raw] ∧ chat.ReadAs serde raw { role := .tool, content := [read] } ∧
      Reports serde errand read := by
  obtain ⟨name, content, rfl, -, hworded, hpayload⟩ := h
  have hother : Worded (chat.parse_content (some (.string (String.join (ContentPart.texts content))))) := by
    rw [chat.parse_content]
    split
    · exact .inl rfl
    · exact .inr ⟨_, rfl⟩
  have hsame : String.join (ContentPart.texts (chat.parse_content (some (.string (String.join (ContentPart.texts content)))))) =
      String.join (ContentPart.texts content) := by
    rw [chat.parse_content]
    split
    next hempty => rw [hempty]; rfl
    · simp [ContentPart.texts, ContentPart.as_text]
  have hwritten : chat.result_values (.toolResult errand.id name content false) =
      [.object [("role", .string "tool"), ("tool_call_id", .string errand.id),
        ("content", .string (String.join (ContentPart.texts content)))]] := by
    obtain rfl | ⟨text, rfl⟩ := hworded <;> rfl
  have hreports : Reports serde errand (.toolResult errand.id none
      (chat.parse_content (some (.string (String.join (ContentPart.texts content))))) false) :=
    Reports.reworded (by simp) hpayload hother hsame
  refine ⟨_, _, hwritten, fun i => ?_, hreports⟩
  have hid : (some errand.id).filter (· ≠ "") = some errand.id := by simp [Option.filter, herrand.id_ne]
  have hrole : chat.str (some (.object [("role", .string "tool"), ("tool_call_id", .string errand.id),
      ("content", .string (String.join (ContentPart.texts content)))])) "role" = some "tool" := rfl
  have hnamed : (chat.str (some (.object [("role", .string "tool"), ("tool_call_id", .string errand.id),
      ("content", .string (String.join (ContentPart.texts content)))])) "tool_call_id").filter (· ≠ "") = some errand.id := hid
  rw [chat.decode_message, hrole, hnamed]
  rfl

theorem chat.result_values_eq (parts : List ContentPart) : chat.encode_tool_results parts = parts.flatMap chat.result_values := by
  induction parts with
  | nil => rfl
  | cons part parts ih =>
    rw [List.flatMap_cons, ← ih, chat.result_values, chat.encode_tool_results, chat.encode_tool_results, chat.encode_tool_results,
      List.flatMap_cons, List.flatMap_singleton]

/-- Results are messages of their own, however they were grouped. -/
theorem chat.results_written {errands : List Errand} {results : List (List ContentPart)}
    (h : List.Forall₂ (Reports serde) errands results.flatten) (hsome : ∀ result ∈ results, result ≠ []) :
    (results.map fun result => ({ role := .tool, content := result } : Message)).flatMap (chat.encode_message serde) =
      results.flatten.flatMap chat.result_values := by
  have hparts : ∀ part ∈ results.flatten, part.is_tool_result = true := by
    refine forall_right h ?_
    rintro errand _ ⟨name, content, rfl, -⟩
    rfl
  have hmessage : ∀ result ∈ results, chat.encode_message serde { role := .tool, content := result } =
      result.flatMap chat.result_values := by
    intro result hresult
    obtain ⟨part, hpart⟩ := List.exists_mem_of_ne_nil result (hsome result hresult)
    have hany : result.any ContentPart.is_tool_result = true :=
      List.any_eq_true.mpr ⟨part, hpart, hparts part (List.mem_flatten.mpr ⟨result, hresult, hpart⟩)⟩
    rw [chat.encode_message, if_pos rfl]
    dsimp only
    rw [if_pos hany, chat.result_values_eq]
  rw [List.flatMap_map, flatMap_flatten]
  exact List.flatMap_congr hmessage

/-- A dialogue is the same after a request in this protocol. -/
theorem chat.conversation_read (hserde : serde.Lawful) (h : Conveys serde moves conversation) (hsound : ∀ move ∈ moves, move.Sound) :
    ∃ read, List.Forall₂ (chat.ReadAs serde) (conversation.flatMap (chat.encode_message serde)) read ∧ Conveys serde moves read := by
  induction h with
  | nil => exact ⟨[], .nil, .nil⟩
  | @asked name text moves conversation _ ih =>
    obtain ⟨hmove, hmoves⟩ := List.forall_mem_cons.mp hsound
    obtain ⟨read, hreads, hread⟩ := ih hmoves
    have hne : text ≠ "" := by cases hmove with | asked hne => exact hne
    obtain ⟨raw, hraw, hread_raw⟩ := @chat.text_read serde .user (.inl rfl) text hne name
    rw [List.flatMap_cons, hraw]
    exact ⟨_, .cons hread_raw hreads, .asked name hread⟩
  | @answered name text moves conversation _ ih =>
    obtain ⟨hmove, hmoves⟩ := List.forall_mem_cons.mp hsound
    obtain ⟨read, hreads, hread⟩ := ih hmoves
    have hne : text ≠ "" := by cases hmove with | answered hne => exact hne
    obtain ⟨raw, hraw, hread_raw⟩ := @chat.text_read serde .assistant (.inr rfl) text hne name
    rw [List.flatMap_cons, hraw]
    exact ⟨_, .cons hread_raw hreads, .answered name hread⟩
  | @called name errands calls results moves conversation hcalls hresults hsome _ ih =>
    obtain ⟨hmove, hmoves⟩ := List.forall_mem_cons.mp hsound
    obtain ⟨read, hreads, hread⟩ := ih hmoves
    obtain ⟨hne, herrands⟩ : errands ≠ [] ∧ ∀ errand ∈ errands, errand.Sound := by
      cases hmove with | called hne herrands => exact ⟨hne, herrands⟩
    obtain ⟨raw, calls_read, hraw, hcalls_raw, hcalls_read⟩ := chat.calls_read hserde hne herrands hcalls name
    obtain ⟨results_read, hresults_raw, hresults_read⟩ := forall_passed hresults fun errand herrand part =>
      @chat.reports_read serde errand (herrands errand herrand) part
    have hsingle : (results_read.map fun part => [part]).flatten = results_read := by
      rw [← List.flatMap_def]
      exact List.flatMap_singleton' results_read
    refine ⟨{ role := .assistant, content := calls_read, name := name } ::
      ((results_read.map fun part => [part]).map ({ role := .tool, content := · })) ++ read, ?_,
        .called name hcalls_read (by rw [hsingle]; exact hresults_read) (by simp) hread⟩
    rw [List.cons_append, List.flatMap_cons, List.flatMap_append, hraw, chat.results_written hresults hsome, List.map_map]
    have hresults_message : List.Forall₂ (chat.ReadAs serde) (results.flatten.flatMap chat.result_values)
        (results_read.map ((fun result => ({ role := .tool, content := result } : Message)) ∘ fun part => [part])) := by
      rw [List.forall₂_map_right_iff]
      exact hresults_raw
    exact .cons hcalls_raw (List.rel_append hresults_message hreads)

end Chat

section Responses

/-- Parts pushed for one role after a message of another are one message. -/
theorem responses.push_all {before : List Message} {role : Role} (hlast : ∀ last ∈ before.getLast?, last.role ≠ role)
    {parts : List ContentPart} (hsome : parts ≠ []) :
    parts.foldl (fun messages part => responses.push_into messages role part) before =
      before ++ [{ role := role, content := parts }] := by
  have hmore : ∀ (said more : List ContentPart), more.foldl (fun messages part => responses.push_into messages role part)
      (before ++ [{ role := role, content := said }]) = before ++ [{ role := role, content := said ++ more }] := by
    intro said more
    induction more generalizing said with
    | nil => rw [List.append_nil]; rfl
    | cons part more ih =>
      have hpush : responses.push_into (before ++ [{ role := role, content := said }]) role part =
          before ++ [{ role := role, content := said ++ [part] }] := by
        rw [responses.push_into, List.getLast?_concat]
        dsimp only
        rw [if_pos rfl, List.dropLast_concat]
      rw [List.foldl_cons, hpush, ih, List.append_assoc]
      rfl
  obtain ⟨part, parts, rfl⟩ := List.exists_cons_of_ne_nil hsome
  have hpush : responses.push_into before role part = before ++ [{ role := role, content := [part] }] := by
    rw [responses.push_into]
    cases hbefore : before.getLast? with
    | none =>
      rw [List.getLast?_eq_none_iff] at hbefore
      rw [hbefore]
      rfl
    | some last => exact if_neg (hlast last hbefore)
  rw [List.foldl_cons, hpush, hmore]
  rfl

/-- An item that adds a part of one role to any conversation. -/
def responses.AddsAs (serde : Serde) (role : Role) (raw : Value) (part : ContentPart) : Prop :=
  ∀ messages, responses.decode_input_item serde messages raw = .ok (responses.push_into messages role part)

theorem responses.decode_items_read {role : Role} {raws : List Value} {parts : List ContentPart}
    (h : List.Forall₂ (responses.AddsAs serde role) raws parts) (before : List Message) :
    raws.foldlM (responses.decode_input_item serde) before =
      .ok (parts.foldl (fun messages part => responses.push_into messages role part) before) := by
  induction h generalizing before with
  | nil => rfl
  | cons hread _ ih =>
    rw [List.foldlM_cons, hread before, List.foldl_cons, ← ih]
    rfl

theorem responses.makes_read (hserde : serde.Lawful) {errand : Errand} (herrand : errand.Sendable) {part : ContentPart}
    (h : Makes errand part) : ∃ raw read, responses.encode_item serde part = [raw] ∧
      responses.AddsAs serde .assistant raw read ∧ Makes errand read := by
  obtain ⟨signature, rfl⟩ := h
  have harguments : responses.parse_arguments serde (some (.string (serde.to_string (.object errand.input)))) = .object errand.input := by
    rw [responses.parse_arguments, hserde.trim_to_string _ herrand.input, if_neg (hserde.to_string_ne_empty herrand.input),
      hserde.from_str_to_string _ herrand.input]
    rfl
  refine ⟨_, _, rfl, fun messages => rfl, none, ?_⟩
  exact congrArg (ContentPart.toolUse errand.id errand.name · none) harguments

theorem responses.reports_read {errand : Errand} {part : ContentPart} (h : Reports serde errand part) :
    ∃ raw read, responses.encode_item serde part = [raw] ∧ responses.AddsAs serde .tool raw read ∧ Reports serde errand read := by
  obtain ⟨name, content, rfl, -, hworded, hpayload⟩ := h
  have htext : responses.tool_output content false = String.join (ContentPart.texts content) := by
    obtain rfl | ⟨text, rfl⟩ := hworded
    · rfl
    · simp [responses.tool_output, responses.flatten_text, ContentPart.lines, ContentPart.texts, ContentPart.as_text]
  have hreports : Reports serde errand (.toolResult errand.id none [.text (responses.tool_output content false)] false) :=
    Reports.reworded (by simp) hpayload (.inr ⟨_, rfl⟩) (by rw [htext]; simp [ContentPart.texts, ContentPart.as_text])
  exact ⟨_, _, rfl, fun messages => rfl, hreports⟩

/-- The items of parts that are no message. -/
theorem responses.encode_message_items {message : Message} (h : ∀ part ∈ message.content, responses.encode_content_part part message.role = none) :
    responses.encode_message serde message = message.content.flatMap (responses.encode_item serde) := by
  have hparts : message.content.filterMap (responses.encode_content_part · message.role) = [] := List.filterMap_eq_nil_iff.mpr h
  rw [responses.encode_message, hparts]
  exact List.append_nil _

/-- A dialogue is the same after a request in this protocol. -/
theorem responses.conversation_read (hserde : serde.Lawful) (h : Conveys serde moves conversation) (hsound : ∀ move ∈ moves, move.Sound)
    (halternate : moves.IsChain fun before after => after.is_question = before.is_answer) :
    ∃ read, Conveys serde moves read ∧ ∀ before : List Message,
      (∀ last ∈ before.getLast?, ∀ first ∈ moves.head?, first.is_question = false → last.role ≠ .assistant) →
        (responses.encode_input_items serde conversation).foldlM (responses.decode_input_item serde) before = .ok (before ++ read) := by
  induction h with
  | nil => exact ⟨[], .nil, fun before _ => by rw [List.append_nil]; rfl⟩
  | @asked name text moves conversation _ ih =>
    obtain ⟨hnext, hrest⟩ := List.isChain_cons.mp halternate
    obtain ⟨read, hread, hreads⟩ := ih (List.forall_mem_cons.mp hsound).2 hrest
    refine ⟨_, .asked none hread, fun before _ => ?_⟩
    have hitem : ∀ rest, (responses.encode_message serde { role := .user, content := [.text text], name := name } ++ rest).foldlM
        (responses.decode_input_item serde) before =
          rest.foldlM (responses.decode_input_item serde) (before ++ [{ role := .user, content := [.text text] }]) := fun rest => rfl
    have hreads := hreads (before ++ [{ role := .user, content := [.text text] }]) fun last hlast _ _ _ => by
      obtain rfl := Option.some.inj ((List.getLast?_concat).symm.trans hlast)
      simp
    rw [List.append_assoc] at hreads
    rw [responses.encode_input_items, List.flatMap_cons, hitem]
    exact hreads
  | @answered name text moves conversation _ ih =>
    obtain ⟨hnext, hrest⟩ := List.isChain_cons.mp halternate
    obtain ⟨read, hread, hreads⟩ := ih (List.forall_mem_cons.mp hsound).2 hrest
    refine ⟨_, .answered none hread, fun before _ => ?_⟩
    have hitem : ∀ rest, (responses.encode_message serde { role := .assistant, content := [.text text], name := name } ++ rest).foldlM
        (responses.decode_input_item serde) before =
          rest.foldlM (responses.decode_input_item serde) (before ++ [{ role := .assistant, content := [.text text] }]) := fun rest => rfl
    have hreads := hreads (before ++ [{ role := .assistant, content := [.text text] }]) fun _ _ first hfirst hmodel => by
      rw [hnext first hfirst] at hmodel
      cases hmodel
    rw [List.append_assoc] at hreads
    rw [responses.encode_input_items, List.flatMap_cons, hitem]
    exact hreads
  | @called name errands calls results moves conversation hcalls hresults hsome _ ih =>
    obtain ⟨hmove, hmoves⟩ := List.forall_mem_cons.mp hsound
    obtain ⟨-, hrest⟩ := List.isChain_cons.mp halternate
    obtain ⟨read, hread, hreads⟩ := ih hmoves hrest
    obtain ⟨hne, herrands⟩ : errands ≠ [] ∧ ∀ errand ∈ errands, errand.Sound := by
      cases hmove with | called hne herrands => exact ⟨hne, herrands⟩
    obtain ⟨calls_read, hcalls_raw, hcalls_read⟩ := forall_passed hcalls fun errand herrand part =>
      responses.makes_read hserde (herrands errand herrand).toSendable
    obtain ⟨results_read, hresults_raw, hresults_read⟩ := forall_passed hresults fun errand _ part => responses.reports_read
    have hcalls_ne : calls_read ≠ [] := forall_ne_nil hcalls_read hne
    have hresults_ne : results_read ≠ [] := forall_ne_nil hresults_read hne
    refine ⟨{ role := .assistant, content := calls_read } ::
      ([results_read].map fun result => { role := .tool, content := result }) ++ read,
        .called none hcalls_read (by simpa using hresults_read) (by simpa using hresults_ne) hread, fun before hlast => ?_⟩
    have hmodel : ∀ last ∈ before.getLast?, last.role ≠ .assistant := fun last hbefore => hlast last hbefore _ rfl rfl
    have hwritten : responses.encode_input_items serde ({ role := .assistant, content := calls, name := name } ::
        (results.map fun result => { role := .tool, content := result }) ++ conversation) =
          calls.flatMap (responses.encode_item serde) ++ (results.flatten.flatMap (responses.encode_item serde) ++
            responses.encode_input_items serde conversation) := by
      have hcalled : responses.encode_message serde { role := .assistant, content := calls, name := name } =
          calls.flatMap (responses.encode_item serde) := by
        refine responses.encode_message_items (forall_right hcalls ?_)
        rintro errand _ ⟨signature, rfl⟩
        rfl
      have hparts : ∀ part ∈ results.flatten, responses.encode_content_part part .tool = none := by
        refine forall_right hresults ?_
        rintro errand _ ⟨name, content, rfl, -⟩
        rfl
      have hreported : ∀ result ∈ results, responses.encode_message serde { role := .tool, content := result } =
          result.flatMap (responses.encode_item serde) := fun result hresult =>
        responses.encode_message_items fun part hpart => hparts part (List.mem_flatten.mpr ⟨result, hresult, hpart⟩)
      rw [responses.encode_input_items, List.cons_append, List.flatMap_cons, List.flatMap_append, hcalled, List.flatMap_map,
        flatMap_flatten, List.flatMap_congr hreported]
      rfl
    have hreads := hreads (before ++ [{ role := .assistant, content := calls_read }] ++ [{ role := .tool, content := results_read }])
      fun last hlast _ _ _ => by
        obtain rfl := Option.some.inj ((List.getLast?_concat).symm.trans hlast)
        simp
    have hlast_call : ∀ last ∈ (before ++ [({ role := .assistant, content := calls_read } : Message)]).getLast?, last.role ≠ .tool := by
      intro last hlast
      obtain rfl := Option.some.inj ((List.getLast?_concat).symm.trans hlast)
      simp
    rw [hwritten, List.foldlM_append, responses.decode_items_read hcalls_raw, responses.push_all hmodel hcalls_ne]
    change (_ ++ _ : List Value).foldlM _ (before ++ [_]) = _
    rw [List.foldlM_append, responses.decode_items_read hresults_raw, responses.push_all hlast_call hresults_ne]
    refine hreads.trans ?_
    simp

end Responses

end refract.codec
