import Refract.Codec.Dialogue

open refract.core refract.json refract.ir refract.machine

namespace refract.codec.chat

section Rules

/-- The calls of a message of the assistant. -/
def called (message : Value) : List String :=
  if message.get_str "role" = some "assistant" then (array (message.get "tool_calls")).filterMap (·.get_str "id") else []

/-- The call that a message of a tool is the result of. -/
def replied (message : Value) : Option String :=
  if message.get_str "role" = some "tool" then message.get_str "tool_call_id" else none

/-- After every message with calls there is first one message of a tool for each. -/
def Together : List Value → Prop
  | [] => True
  | message :: rest =>
    (called message ≠ [] →
      ∃ (ids : List String) (later : List (Option String)), rest.map replied = ids.map some ++ later ∧ ids.Perm (called message)) ∧
    Together rest

end Rules

section Turns

def calls_of (message : Message) : List String :=
  if message.role = .assistant then message.content.filterMap use_id else []

def is_media : ContentPart → Bool
  | .image _ _ _ | .audio _ _ | .file _ _ _ => true
  | _ => false

/-- The results of a message: the call of each, and whether there are media in it. -/
def results_of (message : Message) : List (String × Bool) :=
  message.content.filterMap fun part =>
    match part with
    | .toolResult id _ content _ => some (id, content.any is_media)
    | _ => none

/-- The turn that answers: what is said up to the next message of the assistant. -/
def answering_turn (rest : List Message) : List Message := rest.takeWhile fun message => message.role = .user ∨ message.role = .tool

/-- Every turn with calls is followed by one with a result of each. -/
def AllAnswered : List Message → Prop
  | [] => True
  | message :: rest =>
    (calls_of message ≠ [] →
      ((answering_turn rest).flatMap fun answer => (results_of answer).map Prod.fst).Perm (calls_of message)) ∧
    AllAnswered rest

/-- A message says something besides results and thoughts, or is empty. -/
def remarks (message : Message) : Bool :=
  if message.role = .tool then (results_of message).isEmpty && !message.content.isEmpty
  else message.content.isEmpty || message.content.any fun part =>
    is_visible part || part.is_tool_use || part.is_refusal

/-- Media are in no result but the last, and nothing else is said in a message
    before one with results. -/
structure Unbroken (turn : List Message) : Prop where
  media : (turn.flatMap results_of).Pairwise fun result _ => result.2 = false
  remarks : turn.Pairwise fun message later => remarks message = true → results_of later = []

/-- Every turn with calls is answered without a break. -/
def AllUnbroken : List Message → Prop
  | [] => True
  | message :: rest => (calls_of message ≠ [] → Unbroken (answering_turn rest)) ∧ AllUnbroken rest

end Turns

section Marks

variable {serde : Serde}

/-- What results are written as: the call of each, and nothing for a message of
    the user with media. -/
def result_marks (results : List (String × Bool)) : List (Option String) :=
  results.flatMap fun result => some result.1 :: if result.2 then [none] else []

/-- What a message of an answering turn is written as. -/
def marks (message : Message) : List (Option String) :=
  result_marks (results_of message) ++ if remarks message then [none] else []

theorem encode_tool_results_marks (content : List ContentPart) (role : Role) :
    (encode_tool_results content).map replied =
      result_marks (results_of { role := role, content := content }) := by
  induction content with
  | nil => rfl
  | cons part content ih =>
    cases part with
    | toolResult id name result is_error =>
      have hresult : encode_tool_results (.toolResult id name result is_error :: content) =
        encode_tool_result id result ++ encode_tool_results content := rfl
      have hone : (encode_tool_result id result).map replied = some id :: if result.any is_media then [none] else [] := by
        have hmedia : (result.filter is_media).isEmpty = !result.any is_media := by
          rw [Bool.eq_iff_iff]
          simp
        unfold encode_tool_result
        change List.map replied (_ :: if (result.filter is_media).isEmpty = true then [] else [_]) = _
        rw [hmedia]
        cases result.any is_media with
        | true => rfl
        | false => rfl
      rw [hresult, List.map_append, ih, hone]
      rfl
    | _ => exact ih

theorem results_of_isEmpty (message : Message) :
    (results_of message).isEmpty = !message.content.any ContentPart.is_tool_result := by
  obtain ⟨role, content, name⟩ := message
  induction content with
  | nil => rfl
  | cons part content ih =>
    cases part with
    | toolResult => rfl
    | _ => exact ih

/-- A message that is left out is not empty, and has nothing to be seen. -/
theorem says_nothing_iff (content : List ContentPart) :
    ((content.filter is_visible).isEmpty = true ∧ (content.filterMap (tool_call_json serde)).isEmpty = true ∧
        (refusal_text content).isNone = true ∧ ¬content.isEmpty = true) ↔
      (content.isEmpty || content.any fun part => is_visible part || part.is_tool_use || part.is_refusal) = false := by
  have hcalls : (content.filterMap (tool_call_json serde)).isEmpty = true ↔ ∀ part ∈ content, part.is_tool_use = false := by
    rw [List.isEmpty_iff, List.filterMap_eq_nil_iff]
    refine forall₂_congr fun part _ => ?_
    cases part <;> simp [tool_call_json, ContentPart.is_tool_use]
  have hrefusal : (refusal_text content).isNone = true ↔ ∀ part ∈ content, part.is_refusal = false := by
    unfold refusal_text
    split
    next h => simpa using h
    next h => simpa using h
  have hvisible : (content.filter is_visible).isEmpty = true ↔ ∀ part ∈ content, is_visible part = false := by
    rw [List.isEmpty_iff, List.filter_eq_nil_iff]
    exact forall₂_congr fun part _ => Bool.not_eq_true _ ▸ Iff.rfl
  have hany : (content.any fun part => is_visible part || part.is_tool_use || part.is_refusal) = false ↔
      ∀ part ∈ content, is_visible part = false ∧ part.is_tool_use = false ∧ part.is_refusal = false := by
    simp [and_assoc]
  rw [hcalls, hrefusal, hvisible, Bool.or_eq_false_iff, hany, Bool.not_eq_true]
  constructor
  · rintro ⟨hseen, hcalled, hrefused, hempty⟩
    exact ⟨hempty, fun part hpart => ⟨hseen part hpart, hcalled part hpart, hrefused part hpart⟩⟩
  · rintro ⟨hempty, h⟩
    exact ⟨fun part hpart => (h part hpart).1, fun part hpart => (h part hpart).2.1, fun part hpart => (h part hpart).2.2, hempty⟩

theorem encode_message_marks {message : Message} (h : message.role = .user ∨ message.role = .tool) :
    (encode_message serde message).map replied = marks message := by
  have hresults := encode_tool_results_marks message.content message.role
  unfold encode_message marks remarks
  rcases h with hrole | hrole
  · have hne : message.role ≠ .tool := by
      rw [hrole]
      decide
    rw [if_neg hne, if_neg hne]
    dsimp only
    rw [if_pos hrole, if_congr (says_nothing_iff message.content) rfl rfl]
    cases message.content.isEmpty || message.content.any fun part => is_visible part || part.is_tool_use || part.is_refusal with
    | false =>
      rw [if_pos rfl, hresults]
      exact (List.append_nil _).symm
    | true =>
      rw [if_neg Bool.false_ne_true.symm, List.map_append, hresults, hrole]
      rfl
  · rw [if_pos hrole, if_pos hrole, results_of_isEmpty]
    cases hany : message.content.any ContentPart.is_tool_result with
    | true =>
      rw [if_pos rfl, hresults]
      exact (List.append_nil _).symm
    | false =>
      have hnone : results_of message = [] := by
        rw [← List.isEmpty_iff, results_of_isEmpty, hany]
        rfl
      rw [hnone]
      cases message.content.isEmpty with
      | true => rfl
      | false => rfl

theorem result_marks_names (results : List (String × Bool)) : (result_marks results).filterMap id = results.map Prod.fst := by
  induction results with
  | nil => rfl
  | cons result results ih =>
    obtain ⟨id, media⟩ := result
    rw [result_marks, List.flatMap_cons, List.filterMap_append, ← result_marks, ih]
    cases media <;> rfl

theorem marks_names (message : Message) : (marks message).filterMap id = (results_of message).map Prod.fst := by
  rw [marks, List.filterMap_append, result_marks_names]
  cases remarks message <;> exact List.append_nil _

theorem results_of_ids (message : Message) : (results_of message).map Prod.fst = message.content.filterMap result_id := by
  rw [results_of, List.map_filterMap]
  refine List.filterMap_congr fun part _ => ?_
  cases part <;> rfl

theorem none_mem_marks (message : Message) :
    none ∈ marks message ↔ (∃ result ∈ results_of message, result.2 = true) ∨ remarks message = true := by
  rw [marks, List.mem_append, result_marks, List.mem_flatMap]
  simp

theorem marks_eq_none_iff (message : Message) : (∀ mark ∈ marks message, mark = none) ↔ results_of message = [] := by
  rw [← List.map_eq_nil_iff, ← marks_names, List.filterMap_eq_nil_iff]
  rfl

theorem result_marks_pairwise_iff (results : List (String × Bool)) :
    ((result_marks results).Pairwise fun mark later => mark = none → later = none) ↔
      results.Pairwise fun result _ => result.2 = false := by
  induction results with
  | nil => simp [result_marks]
  | cons result results ih =>
    obtain ⟨id, media⟩ := result
    have hnone : (∀ mark ∈ result_marks results, mark = none) ↔ results = [] := by
      rw [← List.map_eq_nil_iff, ← result_marks_names, List.filterMap_eq_nil_iff]
      rfl
    rw [result_marks, List.flatMap_cons, ← result_marks, List.pairwise_cons, ← ih]
    cases media with
    | false => simp
    | true => simp [hnone, List.eq_nil_iff_forall_not_mem]

/-- What a turn is written as has its results first exactly if it is unbroken. -/
theorem marks_pairwise_iff (turn : List Message) :
    ((turn.flatMap marks).Pairwise fun mark later => mark = none → later = none) ↔ Unbroken turn := by
  induction turn with
  | nil => exact iff_of_true .nil ⟨.nil, .nil⟩
  | cons message turn ih =>
    have hlater : (∀ mark ∈ turn.flatMap marks, mark = none) ↔ ∀ later ∈ turn, results_of later = [] := by
      rw [List.forall_mem_flatMap]
      exact forall₂_congr fun later _ => marks_eq_none_iff later
    have hmessage : ((marks message).Pairwise fun mark later => mark = none → later = none) ↔
        (results_of message).Pairwise fun result _ => result.2 = false := by
      rw [← result_marks_pairwise_iff, marks, List.pairwise_append]
      cases remarks message <;> simp
    have hcross : (∀ mark ∈ marks message, ∀ later ∈ turn.flatMap marks, mark = none → later = none) ↔
        (∀ result ∈ results_of message, ∀ later ∈ turn.flatMap results_of, result.2 = false) ∧
          ∀ later ∈ turn, remarks message = true → results_of later = [] := by
      have hnone : (∀ mark ∈ marks message, ∀ later ∈ turn.flatMap marks, mark = none → later = none) ↔
          (none ∈ marks message → ∀ later ∈ turn, results_of later = []) := by
        rw [← hlater]
        constructor
        · exact fun h hmem later hlater => h none hmem later hlater rfl
        · rintro h mark hmark later hlater rfl
          exact h hmark later hlater
      rw [hnone, none_mem_marks]
      constructor
      · intro h
        refine ⟨fun result hresult answer hanswer => ?_, fun later hlater hremarks => h (.inr hremarks) later hlater⟩
        obtain ⟨later, hlater, hanswer⟩ := List.mem_flatMap.mp hanswer
        by_contra hmedia
        rw [h (.inl ⟨result, hresult, by simpa using hmedia⟩) later hlater] at hanswer
        cases hanswer
      · rintro ⟨hfirst, hnext⟩ (⟨result, hresult, hmedia⟩ | hremarks) later hlater
        · refine List.eq_nil_iff_forall_not_mem.mpr fun answer hanswer => ?_
          have hplain := hfirst result hresult answer (List.mem_flatMap.mpr ⟨later, hlater, hanswer⟩)
          rw [hmedia] at hplain
          cases hplain
        · exact hnext later hlater hremarks
    rw [List.flatMap_cons, List.pairwise_append, ih, hmessage, hcross]
    constructor
    · rintro ⟨hresults, ⟨hmedia, hremarks⟩, hfirst, hnext⟩
      exact ⟨List.pairwise_append.mpr ⟨hresults, hmedia, hfirst⟩, List.pairwise_cons.mpr ⟨hnext, hremarks⟩⟩
    · rintro ⟨hmedia, hremarks⟩
      obtain ⟨hresults, hmedia, hfirst⟩ := List.pairwise_append.mp hmedia
      obtain ⟨hnext, hremarks⟩ := List.pairwise_cons.mp hremarks
      exact ⟨hresults, ⟨hmedia, hremarks⟩, hfirst, hnext⟩

end Marks

section Claims

variable {serde : Serde} {conversation : List Message}

/-- What is written besides the messages of the assistant calls nothing. -/
theorem together_append {before rest : List Value} (h : ∀ message ∈ before, called message = []) :
    Together (before ++ rest) ↔ Together rest := by
  induction before with
  | nil => rfl
  | cons message before ih =>
    obtain ⟨hmessage, hbefore⟩ := List.forall_mem_cons.mp h
    rw [List.cons_append, Together, ih hbefore, hmessage]
    simp

theorem called_of_role {message : Value} (h : message.get_str "role" ≠ some "assistant") : called message = [] := if_neg h

theorem encode_tool_results_called (content : List ContentPart) : ∀ written ∈ encode_tool_results content, called written = [] := by
  intro written hwritten
  obtain ⟨part, -, hwritten⟩ := List.mem_flatMap.mp hwritten
  cases part with
  | toolResult id name result is_error =>
    dsimp only [encode_tool_result] at hwritten
    rcases List.mem_cons.mp hwritten with rfl | hwritten
    · exact called_of_role (by simp)
    · split at hwritten
      · cases hwritten
      · obtain rfl := List.mem_singleton.mp hwritten
        exact called_of_role (by simp)
  | _ => cases hwritten

theorem called_eq_nil {message : Message} (h : message.role ≠ .assistant) :
    ∀ written ∈ encode_message serde message, called written = [] := by
  have hresults : ∀ written ∈ if message.role = .user then encode_tool_results message.content else [], called written = [] := by
    intro written hwritten
    split at hwritten
    · exact encode_tool_results_called _ written hwritten
    · cases hwritten
  intro written hwritten
  unfold encode_message at hwritten
  split at hwritten
  next htool =>
    split at hwritten
    · exact encode_tool_results_called _ written hwritten
    · split at hwritten
      · cases hwritten
      · obtain rfl := List.mem_singleton.mp hwritten
        exact called_of_role (by simp)
  next htool =>
    dsimp only at hwritten
    split at hwritten
    · exact hresults written hwritten
    · rcases List.mem_append.mp hwritten with hwritten | hwritten
      · exact hresults written hwritten
      · obtain rfl := List.mem_singleton.mp hwritten
        refine called_of_role ?_
        cases hrole : message.role with
        | assistant => exact absurd hrole h
        | tool => exact absurd hrole htool
        | _ => simp [role_str]

theorem tool_call_ids (content : List ContentPart) :
    (content.filterMap (tool_call_json serde)).filterMap (·.get_str "id") = content.filterMap use_id := by
  rw [List.filterMap_filterMap]
  refine List.filterMap_congr fun part _ => ?_
  cases part <;> rfl

/-- A message of the assistant is written with its calls, or it is left out and
    has none. -/
theorem encode_message_called {message : Message} (h : message.role = .assistant) :
    (∃ written, encode_message serde message = [written] ∧ called written = calls_of message ∧ replied written = none) ∨
      (encode_message serde message = [] ∧ calls_of message = []) := by
  have hids := @tool_call_ids serde message.content
  have htool : message.role ≠ .tool := by
    rw [h]
    decide
  have huser : message.role ≠ .user := by
    rw [h]
    decide
  unfold encode_message
  rw [calls_of, if_pos h, if_neg htool, ← hids]
  dsimp only
  rw [if_neg huser]
  split
  next hnothing =>
    rw [List.isEmpty_iff.mp hnothing.2.1]
    exact .inr ⟨rfl, rfl⟩
  · refine .inl ⟨_, rfl, ?_, if_neg (by simp [h, role_str])⟩
    cases hcalls : (message.content.filterMap (tool_call_json serde)) with
    | nil => simp [called, h, role_str, List.lookup_cons, List.lookup_append, lookup_member, array]
    | cons call calls => simp [called, h, role_str, List.lookup_cons, List.lookup_append, lookup_member, array]

/-- The results are written first exactly if the turn is unbroken. -/
theorem answered_first_iff {rest : List Message} {calls : List String}
    (h : ((answering_turn rest).flatMap fun answer => (results_of answer).map Prod.fst).Perm calls) :
    (∃ (ids : List String) (later : List (Option String)),
      (rest.flatMap (encode_message serde)).map replied = ids.map some ++ later ∧ ids.Perm calls) ↔ Unbroken (answering_turn rest) := by
  have hmarks : (rest.flatMap (encode_message serde)).map replied = (answering_turn rest).flatMap marks ++
      ((rest.dropWhile fun message => message.role = .user ∨ message.role = .tool).flatMap (encode_message serde)).map replied := by
    nth_rewrite 1 [← @List.takeWhile_append_dropWhile _ (fun message => message.role = .user ∨ message.role = .tool) rest]
    rw [List.flatMap_append, List.map_append, List.map_flatMap]
    refine congrArg (· ++ _) (List.flatMap_congr fun message hmessage => ?_)
    have hrole := @List.mem_takeWhile_imp _ (fun message : Message => decide (message.role = .user ∨ message.role = .tool)) _ _ hmessage
    exact encode_message_marks (of_decide_eq_true hrole)
  have hnames : ((answering_turn rest).flatMap marks).filterMap id =
      (answering_turn rest).flatMap fun answer => (results_of answer).map Prod.fst := by
    rw [List.filterMap_flatMap]
    exact List.flatMap_congr fun answer _ => marks_names answer
  have hperm : ∀ ids : List String, ids.Perm calls ↔ ids.Perm (((answering_turn rest).flatMap marks).filterMap id) := by
    intro ids
    rw [hnames]
    exact ⟨fun hids => hids.trans h.symm, fun hids => hids.trans h⟩
  simp only [hmarks, hperm]
  rw [names_first_iff, marks_pairwise_iff]

theorem together_iff_unbroken (h : AllAnswered conversation) :
    Together (conversation.flatMap (encode_message serde)) ↔ AllUnbroken conversation := by
  induction conversation with
  | nil => rfl
  | cons message rest ih =>
    obtain ⟨hanswered, hrest⟩ := h
    rw [List.flatMap_cons, AllUnbroken, ← ih hrest]
    by_cases hrole : message.role = .assistant
    · rcases @encode_message_called serde message hrole with ⟨written, hwritten, hcalls, -⟩ | ⟨hwritten, hcalls⟩
      · rw [hwritten, List.singleton_append, Together, hcalls]
        refine and_congr_left fun _ => forall_congr' fun hsome => ?_
        exact answered_first_iff (hanswered hsome)
      · rw [hwritten, hcalls]
        simp
    · have hnone : calls_of message = [] := if_neg hrole
      rw [together_append (called_eq_nil hrole), hnone]
      simp

/-- Two calls, and their results, one of which may come with an image. -/
def two_results (first second : List ContentPart) : List Message :=
  [{ role := .assistant, content := [.toolUse "c" "f" (.object []) none, .toolUse "d" "f" (.object []) none] },
    { role := .tool, content := [.toolResult "c" none first false, .toolResult "d" none second false] }]

def image : ContentPart := .image (.url "u") none none

theorem two_results_answered (first second : List ContentPart) : AllAnswered (two_results first second) :=
  ⟨fun _ => .refl _, fun h => absurd rfl h, trivial⟩

theorem together_of_last_image : Together ((two_results [.text "r"] [image]).flatMap (encode_message Serde.compact)) := by
  refine (together_iff_unbroken (two_results_answered _ _)).mpr ⟨fun _ => ⟨?_, ?_⟩, fun h => absurd rfl h, trivial⟩
  · exact .cons (by rintro ⟨id, media⟩ -; rfl) (List.pairwise_singleton _ _)
  · exact List.pairwise_singleton _ _

/-- An image in the first result is sent before the second one. -/
theorem image_between_results : AllAnswered (two_results [image] [.text "r"]) ∧
    ((two_results [image] [.text "r"]).flatMap (encode_message Serde.compact)).map (·.get_str "role") =
      [some "assistant", some "tool", some "user", some "tool"] ∧
    ¬Together ((two_results [image] [.text "r"]).flatMap (encode_message Serde.compact)) := by
  refine ⟨two_results_answered _ _, rfl, fun h => ?_⟩
  obtain ⟨ids, later, heq, hperm⟩ := h.1 (List.cons_ne_nil "c" ["d"])
  have hordered := (@names_first_iff _ [some "c", none, some "d"] []).mp ⟨ids, later, heq, hperm⟩
  simp at hordered

end Claims

end refract.codec.chat
