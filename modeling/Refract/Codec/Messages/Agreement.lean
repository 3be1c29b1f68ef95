import Refract.Codec.Inputs
import Refract.Codec.Messages.Encoder
import Refract.Codec.Messages.Upstream

open refract.core refract.json refract.ir refract.machine refract.stream
open refract.codec.responses (StreamedBlock block_events fragment_event block_events_quiet)

namespace refract.codec.messages

/-- The events of an answer: it starts, its blocks come one after another, and it ends. The start may
    have counts already. -/
def message_events (id model : String) (early : Option Usage) (blocks : List StreamedBlock) (usage : Usage) (reason : StopReason)
    (stop_sequence : Option String) : List StreamEvent :=
  .start id model early :: block_events blocks 0 ++ [.usage usage, .stop reason stop_sequence, .done]

/-- What the encoder makes of a block. A call without an identifier is given one. -/
inductive WrittenAs : StreamedBlock → SentBlock → Prop
  | text (fragments : List String) : WrittenAs (.text fragments) (.text "" fragments)
  | refusal (fragments : List String) : WrittenAs (.refusal fragments) (.text "" fragments)
  | thinking (fragments : List String) (signature : Option String) :
    WrittenAs (.thinking fragments signature) (.thinking "" (some "") fragments signature)
  | toolUse (id given name : String) (fragments : List String) (hkept : id ≠ "" → given = id) (hgiven : given ≠ "") :
    WrittenAs (.toolUse id name fragments) (.toolUse given name [] fragments)

namespace MessagesStreamEncoder

variable {serde : Serde} {uuid : Nat → String}

/-- The frame of a notice. -/
def written (serde : Serde) (notice : Notice) : SseFrame := frame serde notice.1 notice.2

section States

variable (base : MessagesStreamEncoder) (index drawn : Nat)

/-- An encoder that has written some blocks, and is writing none. -/
def between : MessagesStreamEncoder := {
  base with
    started := true
    finished := false
    remap := (List.range index).map fun i => (i, i)
    next_index := index
    opened := none
    drawn }

/-- An encoder that is writing a block after some others. -/
def within (kind : PartKind) : MessagesStreamEncoder := { between base (index + 1) drawn with opened := some (index, kind) }

theorem lookup_range (count index : Nat) :
    ((List.range count).map fun i => (i, i)).lookup index = if index < count then some index else none := by
  induction count with
  | zero => rfl
  | succ count ih =>
    rw [List.range_succ, List.map_append, List.lookup_append, ih]
    by_cases hlt : index < count
    · rw [if_pos hlt, if_pos (Nat.lt_succ_of_lt hlt), Option.some_or]
    · by_cases heq : index = count
      · subst heq
        simp
      · have hbeq : (index == count) = false := by simpa using heq
        rw [if_neg hlt, if_neg (by omega), Option.none_or]
        simp [List.lookup_cons, hbeq]

variable {base index drawn}

theorem anth_index_between : (between base index drawn).anth_index index = (between base (index + 1) drawn, index) := by
  unfold anth_index
  rw [show (between base index drawn).remap.lookup index = none from (lookup_range index index).trans (if_neg (Nat.lt_irrefl index))]
  dsimp only [between]
  rw [List.range_succ, List.map_append]
  rfl

theorem anth_index_within (kind : PartKind) :
    (within base index drawn kind).anth_index index = (within base index drawn kind, index) := by
  unfold anth_index
  rw [show (within base index drawn kind).remap.lookup index = some index from
    (lookup_range (index + 1) index).trans (if_pos (Nat.lt_succ_self index))]

/-- A block that is new is opened, and there is none to close. -/
theorem open_block_between (kind : PartKind) :
    (between base index drawn).open_block serde uuid index kind =
      (within base index drawn kind, index, [written serde (start_notice index (content_block kind))]) := by
  unfold open_block
  rw [show (between base index drawn).ensure_started serde uuid = (between base index drawn, []) from rfl]
  dsimp only
  rw [anth_index_between]
  rfl

/-- A block that is being written is open. -/
theorem open_block_within (kind : PartKind) :
    (within base index drawn kind).open_block serde uuid index kind = (within base index drawn kind, index, []) := by
  unfold open_block
  rw [show (within base index drawn kind).ensure_started serde uuid = (within base index drawn kind, []) from rfl]
  dsimp only
  rw [anth_index_within]
  exact if_pos rfl

/-- A call is opened with an identifier, its own if it has one. -/
theorem open_tool_block_between (id name : String) : ∃ given after : _, (id ≠ "" → given = id) ∧ given ≠ "" ∧
    (between base index drawn).open_tool_block serde uuid index id name =
      (within base index after .toolUse, index,
        [written serde (start_notice index (SentBlock.toolUse given name [] []).content_block)]) := by
  unfold open_tool_block
  rw [show (between base index drawn).ensure_started serde uuid = (between base index drawn, []) from rfl]
  dsimp only
  rw [anth_index_between]
  by_cases hid : id = ""
  · refine ⟨"toolu_" ++ uuid drawn, drawn + 1, fun hne => absurd hid hne, by simp, ?_⟩
    subst hid
    rfl
  · refine ⟨id, drawn, fun _ => rfl, hid, ?_⟩
    dsimp only
    rw [if_neg hid]
    rfl

/-- A fragment is written as a delta. -/
theorem encode_fragment (kind : PartKind) (text : String) :
    (within base index drawn kind).encode serde uuid (fragment_event kind index text) =
      (within base index drawn kind, [written serde (delta_notice index (fragment_delta kind text))]) := by
  have hdelta : ∀ kind delta, (within base index drawn kind).write_delta serde uuid index kind delta =
      (within base index drawn kind, [written serde (delta_notice index delta)]) := by
    intro kind delta
    unfold write_delta
    rw [open_block_within]
    rfl
  cases kind with
  | text => exact hdelta .text _
  | refusal => exact hdelta .refusal _
  | thinking => exact hdelta .thinking _
  | toolUse =>
    change (within base index drawn .toolUse).write_fragment serde uuid index text = _
    unfold write_fragment
    rw [anth_index_within]
    exact if_pos rfl

theorem encode_signature (signature : String) :
    (within base index drawn .thinking).encode serde uuid (.thinkingSignature index signature) =
      (within base index drawn .thinking, [written serde (delta_notice index (signature_delta signature))]) := by
  change (within base index drawn .thinking).write_delta serde uuid index .thinking (signature_delta signature) = _
  unfold write_delta
  rw [open_block_within]
  rfl

theorem encode_stop (kind : PartKind) :
    (within base index drawn kind).encode serde uuid (.contentStop index) =
      (between base (index + 1) drawn, [written serde (stop_notice index)]) := by
  change (within base index drawn kind).stop_block serde index = _
  unfold stop_block
  rw [anth_index_within]
  exact if_pos rfl

/-- Fragments are written one after another. -/
theorem writes_fragments (kind : PartKind) (fragments : List String) :
    (stream_encoder serde uuid).Passes (within base index drawn kind) (fragments.map (fragment_event kind index))
      (((fragments.map (fragment_delta kind)).map (delta_notice index)).map (written serde)) (within base index drawn kind) := by
  induction fragments with
  | nil => exact .nil _ _
  | cons text fragments ih =>
    have hfirst : (stream_encoder serde uuid).Passes (within base index drawn kind) [fragment_event kind index text]
        [written serde (delta_notice index (fragment_delta kind text))] (within base index drawn kind) := .single (encode_fragment kind text)
    exact hfirst.append ih

/-- A block that starts is opened, a call with what it calls. -/
theorem writes_opening (streamed : StreamedBlock) : ∃ sent after, WrittenAs streamed sent ∧
    sent.deltas = streamed.fragments.map (fragment_delta streamed.kind) ++ (streamed.signature.map signature_delta).toList ∧
    (stream_encoder serde uuid).Passes (between base index drawn)
      (.contentStart index streamed.kind :: streamed.call_events index)
      [written serde (start_notice index sent.content_block)] (within base index after streamed.kind) := by
  have hopen : ∀ kind : PartKind, kind ≠ .toolUse → (stream_encoder serde uuid).Passes (between base index drawn) [.contentStart index kind]
      [written serde (start_notice index (content_block kind))] (within base index drawn kind) := by
    intro kind hkind
    refine .single ?_
    change (if kind = .toolUse then (between base index drawn, []) else
      (((between base index drawn).open_block serde uuid index kind).1, ((between base index drawn).open_block serde uuid index kind).2.2)) = _
    rw [if_neg hkind, open_block_between]
  cases streamed with
  | text fragments => exact ⟨.text "" fragments, drawn, .text fragments, rfl, hopen .text (by decide)⟩
  | refusal fragments => exact ⟨.text "" fragments, drawn, .refusal fragments, rfl, hopen .refusal (by decide)⟩
  | thinking fragments signature =>
    exact ⟨.thinking "" (some "") fragments signature, drawn, .thinking fragments signature, rfl, hopen .thinking (by decide)⟩
  | toolUse id name fragments =>
    obtain ⟨given, after, hkept, hgiven, hcall⟩ := @open_tool_block_between serde uuid base index drawn id name
    refine ⟨.toolUse given name [] fragments, after, .toolUse id given name fragments hkept hgiven, rfl, ?_⟩
    have hstart : (stream_encoder serde uuid).Passes (between base index drawn) [.contentStart index .toolUse] []
        (between base index drawn) := .single rfl
    refine hstart.append (.single ?_)
    change (((between base index drawn).open_tool_block serde uuid index id name).1,
      ((between base index drawn).open_tool_block serde uuid index id name).2.2) = _
    rw [hcall]
    rfl

/-- A block is written as the frames of a block. -/
theorem writes_block (streamed : StreamedBlock) : ∃ sent after, WrittenAs streamed sent ∧
    (stream_encoder serde uuid).Passes (between base index drawn) (streamed.events index) ((sent.notices index).map (written serde))
      (between base (index + 1) after) := by
  obtain ⟨sent, after, hsent, hdeltas, hopening⟩ := @writes_opening serde uuid base index drawn streamed
  have hfragments := @writes_fragments serde uuid base index after streamed.kind streamed.fragments
  have hsignature : (stream_encoder serde uuid).Passes (within base index after streamed.kind)
      (streamed.signature.map (.thinkingSignature index)).toList
      (((streamed.signature.map signature_delta).toList.map (delta_notice index)).map (written serde))
      (within base index after streamed.kind) := by
    cases hsigned : streamed.signature with
    | none => exact .nil _ _
    | some signature =>
      rw [streamed.kind_of_signature (by rw [hsigned]; exact Option.some_ne_none signature)]
      exact .single (@encode_signature serde uuid base index after signature)
  have hstop : (stream_encoder serde uuid).Passes (within base index after streamed.kind) [.contentStop index]
      [written serde (stop_notice index)] (between base (index + 1) after) :=
    .single (@encode_stop serde uuid base index after streamed.kind)
  have hall := ((hopening.append hfragments).append hsignature).append hstop
  refine ⟨sent, after, hsent, ?_⟩
  rw [SentBlock.notices, hdeltas, List.map_append (f := delta_notice index)]
  rw [StreamedBlock.events]
  simpa only [List.map_append, List.map_cons, List.map_nil, List.cons_append, List.append_assoc, List.nil_append] using hall

/-- Blocks are written one after another. -/
theorem writes_blocks (streamed : List StreamedBlock) : ∃ sent after, List.Forall₂ WrittenAs streamed sent ∧
    (stream_encoder serde uuid).Passes (between base index drawn) (block_events streamed index)
      ((block_notices sent index).map (written serde)) (between base (index + streamed.length) after) := by
  induction streamed generalizing index drawn with
  | nil => exact ⟨[], drawn, .nil, .nil _ _⟩
  | cons block streamed ih =>
    obtain ⟨first, middle, hfirst, hblock⟩ := @writes_block serde uuid base index drawn block
    obtain ⟨sent, after, hsent, hrest⟩ := @ih (index + 1) middle
    refine ⟨first :: sent, after, .cons hfirst hsent, ?_⟩
    have hnotices : block_notices (first :: sent) index = first.notices index ++ block_notices sent (index + 1) := rfl
    rw [hnotices, List.map_append, List.length_cons, Nat.add_comm streamed.length, ← Nat.add_assoc]
    exact hblock.append hrest

end States

/-- The last counts and the reason of an answer. -/
def ending (usage : Usage) (reason : StopReason) (stop_sequence : Option String) : Map :=
  [("delta", .object [("stop_reason", .string (encode_stop_reason reason)),
      ("stop_sequence", (stop_sequence.map .string).getD .null)]),
    ("usage", encode_usage usage)]

/-- A stream starts with the counts that its first event has. -/
theorem writes_start (id model : String) (early : Option Usage) : ∃ (base : MessagesStreamEncoder) (drawn : Nat) (message : Map),
    base.usage = early.getD {} ∧ base.stop_sequence = none ∧
    message.lookup "usage" = some (encode_usage (early.getD {})) ∧ (Value.object message).WellFormed ∧
    (stream_encoder serde uuid).Passes {} [.start id model early] [written serde ("message_start", [("message", .object message)])]
      (between base 0 drawn) := by
  have hmessage : ∀ id : String, ∃ message : Map, message.lookup "usage" = some (encode_usage (early.getD {})) ∧
      (Value.object message).WellFormed ∧
      message_start_frame serde id model (early.getD {}) = written serde ("message_start", [("message", .object message)]) := by
    intro id
    refine ⟨_, ?_, ?_, rfl⟩
    · rfl
    · simp [encode_usage_wellFormed]
  let base : MessagesStreamEncoder := { id, model, input_usage := early.getD {}, usage := early.getD {} }
  by_cases hid : id = ""
  · obtain ⟨message, husage, hwell, hframe⟩ := hmessage ("msg_" ++ uuid 0)
    refine ⟨{ base with id := "msg_" ++ uuid 0 }, 1, message, rfl, rfl, husage, hwell, .single ?_⟩
    rw [← hframe]
    subst hid
    rfl
  · obtain ⟨message, husage, hwell, hframe⟩ := hmessage id
    refine ⟨base, 0, message, rfl, rfl, husage, hwell, .single ?_⟩
    rw [← hframe]
    change base.ensure_started serde uuid = _
    unfold ensure_started
    rw [if_neg Bool.false_ne_true, if_neg hid]
    rfl

/-- It ends with the counts and the reason that it was told. -/
theorem writes_end {base : MessagesStreamEncoder} {index drawn : Nat} {usage : Usage} (husage : base.usage.merge_max usage = usage)
    (hsequence : base.stop_sequence = none) (reason : StopReason) (stop_sequence : Option String) :
    ∃ after : MessagesStreamEncoder, after.finished = true ∧
      (stream_encoder serde uuid).Passes (between base index drawn) [.usage usage, .stop reason stop_sequence, .done]
        [written serde ("message_delta", ending usage reason stop_sequence), written serde ("message_stop", [])] after := by
  let told : MessagesStreamEncoder := { between base index drawn with usage, stop_reason := some reason, stop_sequence }
  refine ⟨{ told with finished := true }, rfl, ?_⟩
  have hcounts : (stream_encoder serde uuid).Passes (between base index drawn) [.usage usage] []
      { between base index drawn with usage } := by
    refine .single ?_
    change ({ between base index drawn with usage := base.usage.merge_max usage }, []) = _
    rw [husage]
  have hreason : (stream_encoder serde uuid).Passes { between base index drawn with usage } [.stop reason stop_sequence] [] told := by
    refine .single ?_
    change ({ between base index drawn with usage, stop_reason := some reason, stop_sequence := stop_sequence.or base.stop_sequence }, []) = _
    rw [hsequence, Option.or_none]
  have hdone : (stream_encoder serde uuid).Passes told [.done]
      [written serde ("message_delta", ending usage reason stop_sequence), written serde ("message_stop", [])]
      { told with finished := true } := .single rfl
  exact (hcounts.append hreason).append hdone

/-- The frames of an answer. -/
theorem outputs_answer (id model : String) {early : Option Usage} (streamed : List StreamedBlock) {usage : Usage}
    (husage : (early.getD {}).merge_max usage = usage) (reason : StopReason) (stop_sequence : Option String) :
    ∃ (message : Map) (sent : List SentBlock), message.lookup "usage" = some (encode_usage (early.getD {})) ∧
      (Value.object message).WellFormed ∧ List.Forall₂ WrittenAs streamed sent ∧
      (stream_encoder serde uuid).outputs (message_events id model early streamed usage reason stop_sequence) =
        (upstream [("message", .object message)] sent (ending usage reason stop_sequence)).map (written serde) := by
  obtain ⟨base, drawn, message, hcounts, hsequence, hmessage, hwell, hstart⟩ := @writes_start serde uuid id model early
  obtain ⟨sent, later, hsent, hblocks⟩ := @writes_blocks serde uuid base 0 drawn streamed
  obtain ⟨after, hfinished, hend⟩ := @writes_end serde uuid base (0 + streamed.length) later usage (by rw [hcounts, husage]) hsequence
    reason stop_sequence
  refine ⟨message, sent, hmessage, hwell, hsent, ?_⟩
  have hclosed : (stream_encoder serde uuid).finish after = (after, []) := by
    change after.wrap_up serde uuid = _
    rw [wrap_up, if_pos hfinished]
  refine (Transducer.Passes.outputs ((hstart.append hblocks).append hend)).trans ?_
  rw [hclosed, List.append_nil, upstream, List.map_append, List.map_cons]
  rfl

/-- A block that starts with a document has documents in all its frames. -/
theorem notices_wellFormed {sent : SentBlock} (hsent : (Value.object sent.content_block).WellFormed) (index : Nat) :
    ∀ notice ∈ sent.notices index, (payload notice).WellFormed := by
  have hdelta : ∀ delta : Map, (Value.object delta).WellFormed → (payload (delta_notice index delta)).WellFormed := by
    intro delta hdelta
    simp [payload, delta_notice, hdelta]
  have hfragment : ∀ kind text, (Value.object (fragment_delta kind text)).WellFormed := by
    intro kind text
    cases kind <;> simp [fragment_delta]
  intro notice hnotice
  simp only [SentBlock.notices, SentBlock.deltas, List.mem_append, List.mem_cons, List.mem_map, Option.mem_toList,
    Option.map_eq_some_iff, List.not_mem_nil, or_false] at hnotice
  obtain (rfl | ⟨_, ⟨text, -, rfl⟩ | ⟨signature, -, rfl⟩, rfl⟩) | rfl := hnotice
  · simp [payload, start_notice, hsent]
  · exact hdelta _ (hfragment _ _)
  · exact hdelta _ (by simp [signature_delta])
  · simp [payload, stop_notice]

/-- So has a stream of such blocks. -/
theorem upstream_wellFormed {opening ending : Map} {sent : List SentBlock} (hopening : (payload ("message_start", opening)).WellFormed)
    (hending : (payload ("message_delta", ending)).WellFormed) (hsent : ∀ block ∈ sent, (Value.object block.content_block).WellFormed) :
    ∀ notice ∈ upstream opening sent ending, (payload notice).WellFormed := by
  intro notice hnotice
  rcases List.mem_append.mp hnotice with hnotice | hnotice
  · rcases List.mem_cons.mp hnotice with rfl | hnotice
    · exact hopening
    · obtain ⟨⟨block, index⟩, hblock, hnotice⟩ := List.mem_flatMap.mp hnotice
      exact notices_wellFormed (hsent block (List.fst_mem_of_mem_zipIdx hblock)) index notice hnotice
  · simp only [List.mem_cons, List.not_mem_nil, or_false] at hnotice
    rcases hnotice with rfl | rfl
    · exact hending
    · simp [payload]

/-- Frames that are written as documents are read as what was written. -/
theorem bears_written (hserde : serde.Lawful) {notices : List Notice} (hwell : ∀ notice ∈ notices, (payload notice).WellFormed) :
    List.Forall₂ (Bears serde) (notices.map (written serde)) notices := by
  rw [List.forall₂_map_left_iff, List.forall₂_same]
  intro notice hnotice
  refine ⟨.inr rfl, ?_⟩
  change serde.from_str (trim (serde.to_string (payload notice))) = _
  rw [hserde.trim_to_string _ (hwell notice hnotice), hserde.from_str_to_string _ (hwell notice hnotice)]

/-- So are the frames of an answer. -/
theorem bears_answer (hserde : serde.Lawful) {message : Map} (hmessage : (Value.object message).WellFormed) {streamed : List StreamedBlock}
    {sent : List SentBlock} (hsent : List.Forall₂ WrittenAs streamed sent) (usage : Usage) (reason : StopReason)
    (stop_sequence : Option String) :
    let notices := upstream [("message", .object message)] sent (ending usage reason stop_sequence)
    List.Forall₂ (Bears serde) (notices.map (written serde)) notices := by
  have hblocks : ∀ block ∈ sent, (Value.object block.content_block).WellFormed := by
    intro block hblock
    obtain ⟨streamed, -, hwritten⟩ := exists_of_mem_forall₂ hsent.flip hblock
    cases hwritten <;> simp [SentBlock.content_block, optional_str]
  have hending : (payload ("message_delta", ending usage reason stop_sequence)).WellFormed := by
    cases stop_sequence <;> simp [payload, ending, encode_usage_wellFormed]
  exact bears_written hserde (upstream_wellFormed (by simp [payload, hmessage]) hending hblocks)

end MessagesStreamEncoder

/-- A block is told by the events of a block. No event tells redacted thinking, whatever stands for it. -/
inductive Tells (serde : Serde) : ContentPart → StreamedBlock → Prop
  | text (fragments : List String) : Tells serde (.text (String.join fragments)) (.text fragments)
  | thinking (fragments : List String) (signature : Option String) :
    Tells serde (.thinking (String.join fragments) signature) (.thinking fragments signature)
  | redacted (data : String) (block : StreamedBlock) : Tells serde (.redactedThinking data) block
  | toolUse (id name : String) (input : Map) (signature : Option String) (fragments : List String)
      (h : trim (String.join fragments) = "" ∧ input = [] ∨ serde.from_str (String.join fragments) = some (.object input)) :
    Tells serde (.toolUse id name (.object input) signature) (.toolUse id name fragments)

/-- A stream can tell the part: it is no redacted thinking, says something, and has an identifier if it is a call. -/
def Tellable : ContentPart → Prop
  | .text text => text ≠ ""
  | .thinking text signature => text ≠ "" ∨ signature ≠ none
  | .toolUse id _ _ _ => id ≠ ""
  | _ => False

/-- A part as a response of the protocol has it: without the signature of a call. -/
def plain : ContentPart → ContentPart
  | .toolUse id name input _ => .toolUse id name input none
  | part => part

section Responses

variable {serde : Serde} {content : List ContentPart} {streamed : List StreamedBlock}

/-- Parts that are told are read back from a response. -/
theorem decode_blocks_encode_blocks (htells : List.Forall₂ (Tells serde) content streamed) :
    decode_blocks serde (encode_blocks content) = .ok (content.map plain) := by
  induction htells with
  | nil => rw [encode_blocks, decode_blocks, List.map_nil]
  | @cons part block content streamed hpart _ ih =>
    have hone : ∃ raw, encode_block part = some raw ∧ decode_block serde raw = .ok [plain part] := by
      cases hpart with
      | text fragments =>
        refine ⟨_, by rw [encode_block], ?_⟩
        rw [decode_block]
        rfl
      | thinking fragments signature =>
        refine ⟨_, by rw [encode_block], ?_⟩
        rw [decode_block]
        cases signature <;> rfl
      | redacted data =>
        refine ⟨_, by rw [encode_block], ?_⟩
        rw [decode_block]
        rfl
      | toolUse id name input signature fragments h =>
        refine ⟨_, by rw [encode_block], ?_⟩
        rw [decode_block]
        rfl
    obtain ⟨raw, hraw, hread⟩ := hone
    rw [encode_blocks, hraw, Option.toList_some, List.singleton_append, decode_blocks, hread, ih]
    rfl

/-- A response is read back with its content, its reason and all counts but one. -/
theorem decode_response_written (now : Int) {ir : UnifiedResponse} (htells : List.Forall₂ (Tells serde) ir.content streamed) :
    ∃ back, decode_response serde now (encode_response ir) = .ok back ∧ back.content = ir.content.map plain ∧
      back.stop_reason = ir.stop_reason.map (fun reason => decode_stop_reason (encode_stop_reason reason)) ∧
      back.usage = decode_usage (encode_usage ir.usage) := by
  let fields : Map := [("id", .string ir.id), ("type", .string "message"), ("role", .string "assistant"), ("model", .string ir.model),
    ("content", .array (encode_blocks ir.content)),
    ("stop_reason", (ir.stop_reason.map fun reason => .string (encode_stop_reason reason)).getD .null),
    ("stop_sequence", (ir.stop_sequence.map .string).getD .null), ("usage", encode_usage ir.usage)]
  have hfield : ∀ {key : String} {value : Value}, fields.lookup key = some value → (encode_response ir).get key = some value := by
    intro key value hlookup
    rw [encode_response, Value.get_object, lookup_restore_of_isSome (by rw [hlookup]; rfl), hlookup]
  have htype : (encode_response ir).get "type" = some (.string "message") := hfield rfl
  have hcontent : (encode_response ir).get "content" = some (.array (encode_blocks ir.content)) := hfield rfl
  have hreason : (encode_response ir).get "stop_reason" =
      some ((ir.stop_reason.map fun reason => .string (encode_stop_reason reason)).getD .null) := hfield rfl
  have husage : (encode_response ir).get "usage" = some (encode_usage ir.usage) := hfield rfl
  obtain ⟨obj, hobj⟩ : ∃ obj, encode_response ir = .object obj := ⟨_, rfl⟩
  rw [hobj] at htype hcontent hreason husage ⊢
  have hanswer : (Value.object obj).get_str "type" ≠ some "error" := by
    rw [Value.get_str, htype]
    simp
  have hstop : ((Value.object obj).get_str "stop_reason").map decode_stop_reason =
      ir.stop_reason.map fun reason => decode_stop_reason (encode_stop_reason reason) := by
    rw [Value.get_str, hreason]
    cases ir.stop_reason <;> rfl
  have hblocks : Map.get obj "content" = some (.array (encode_blocks ir.content)) := hcontent
  have hcounts : Map.get obj "usage" = some (encode_usage ir.usage) := husage
  rw [decode_response, if_neg hanswer, hblocks, hcounts, Option.bind_some, Value.as_array_array, Option.getD_some,
    decode_blocks_encode_blocks htells]
  exact ⟨_, rfl, rfl, hstop, rfl⟩

/-- Redacted thinking is not put together from any events. -/
theorem render_ne_redacted (block : BlockAccum) (data : String) : block.render serde ≠ some (.redactedThinking data) := by
  unfold BlockAccum.render
  cases block with
  | toolUse id name args signature => simp
  | _ =>
    dsimp only
    split <;> simp

/-- What is told of a part and written is heard again exactly where a stream can tell it. -/
theorem Tells.render_iff (hblank : serde.RejectsBlank) {part : ContentPart} {block : StreamedBlock} {sent : SentBlock}
    (htells : Tells serde part block) (hwritten : WrittenAs block sent) :
    sent.heard.accum.render serde = some (plain part) ↔ Tellable part := by
  cases htells with
  | text fragments =>
    cases hwritten
    have hheard := @Sends.render_iff serde hblank _ _ (.text "" fragments)
    rwa [SentBlock.Kept, String.empty_append] at hheard
  | thinking fragments signature =>
    cases hwritten
    have hheard := @Sends.render_iff serde hblank _ _ (.thinking "" (some "") fragments signature)
    have hunsigned : (some "").filter (fun s : String => decide (s ≠ "")) = none := rfl
    rw [SentBlock.Kept, hunsigned, Option.or_none, String.empty_append] at hheard
    refine hheard.trans ?_
    cases signature <;> simp [Tellable]
  | redacted data block => exact ⟨fun hrender => absurd hrender (render_ne_redacted _ data), False.elim⟩
  | toolUse id name input signature fragments h =>
    cases hwritten with
    | toolUse _ given _ _ hkept hgiven =>
      have hinput := (@input_heard serde hblank [] _ (.object input)
        (h.imp_left fun h => ⟨h.1, congrArg Value.object h.2⟩)).mpr (.inl rfl)
      have hheard : (SentBlock.toolUse given name [] fragments).heard.accum.render serde =
          some (.toolUse given name (.object input) none) :=
        congrArg (fun input => some (ContentPart.toolUse given name input none)) hinput
      rw [hheard]
      constructor
      · intro heq
        have hsame : given = id := (ContentPart.toolUse.inj (Option.some.inj heq)).1
        exact fun hempty => hgiven (hsame.trans hempty)
      · intro htold
        rw [hkept htold]
        rfl

/-- A stream says what a response says. -/
def SaysSame (serde : Serde) (said : StreamAggregator) (response : Except GatewayError UnifiedResponse) : Prop :=
  ∃ ir, response = .ok ir ∧ said.into_content serde = ir.content ∧ said.stop_reason = ir.stop_reason ∧ said.usage = ir.usage

/-- The counts of a start that are no larger than the last ones do not change them. -/
theorem told_usage {early usage : Usage} (husage : early.merge_max usage = usage) :
    (decode_usage (encode_usage early)).merge_max (decode_usage (encode_usage usage)) = decode_usage (encode_usage usage) := by
  rw [decode_usage_encode_usage, decode_usage_encode_usage]
  cases usage with
  | mk input output cached written reasoning =>
    simp only [Usage.merge_max, Usage.mk.injEq] at husage ⊢
    obtain ⟨hinput, houtput, hcached, hwritten, -⟩ := husage
    exact ⟨hinput, houtput, hcached, hwritten, max_self 0⟩

section Said

variable {message : Map} {sent : List SentBlock} {early usage : Usage} {reason : StopReason} {stop_sequence : Option String} {frames : List SseFrame}

/-- Blocks between a start and an end say nothing of the counts and the reason. -/
theorem said_absorbed (id model : String) (first last : Usage) (blocks : List StreamedBlock) (reason : StopReason) (stop_sequence : Option String) :
    let said := ({} : StreamAggregator).absorb_all
      ([.start id model (some first)] ++ block_events blocks 0 ++ [.usage last, .stop reason stop_sequence] ++ [.done])
    said.stop_reason = some reason ∧ said.usage = first.merge_max last := by
  obtain ⟨hreasons, hsnapshots⟩ := block_events_quiet blocks 0
  refine ⟨?_, ?_⟩
  · rw [StreamAggregator.absorb_all_stop_reason, List.filterMap_append, List.filterMap_append, List.filterMap_append, hreasons]
    rfl
  · rw [StreamAggregator.absorb_all_usage, List.filterMap_append, List.filterMap_append, List.filterMap_append, hsnapshots]
    exact congrArg (Usage.merge_max · last) (Usage.default_merge_max first)

/-- The frames of an answer say why it stopped, and count what they count at last. -/
theorem said_aggregated (hserde : serde.Lawful) (hmessage : message.lookup "usage" = some (encode_usage early))
    (husage : early.merge_max usage = usage) (hroom : sent.length ≤ 4294967296)
    (hframes : List.Forall₂ (Bears serde) frames
      (upstream [("message", .object message)] sent (MessagesStreamEncoder.ending usage reason stop_sequence))) :
    (aggregated serde frames).stop_reason = some (decode_stop_reason (encode_stop_reason reason)) ∧
      (aggregated serde frames).usage = decode_usage (encode_usage usage) := by
  have hlast : MessagesStreamDecoder.decode_message_delta
      (payload ("message_delta", MessagesStreamEncoder.ending usage reason stop_sequence)) =
      [.usage (decode_usage (encode_usage usage)), .stop (decode_stop_reason (encode_stop_reason reason)) stop_sequence] := by
    have hcounts : (payload ("message_delta", MessagesStreamEncoder.ending usage reason stop_sequence)).get "usage" =
        some (encode_usage usage) := rfl
    have hdelta : (payload ("message_delta", MessagesStreamEncoder.ending usage reason stop_sequence)).get "delta" =
        some (.object [("stop_reason", .string (encode_stop_reason reason)),
          ("stop_sequence", (stop_sequence.map Value.string).getD .null)]) := rfl
    unfold MessagesStreamDecoder.decode_message_delta
    rw [hcounts, hdelta]
    cases stop_sequence <;> simp [List.lookup_cons, Value.as_str]
  obtain ⟨id, model, hfirst⟩ : ∃ id model, MessagesStreamDecoder.decode_message_start
      (payload ("message_start", [("message", .object message)])) = [.start id model (some (decode_usage (encode_usage early)))] := by
    have hget : (payload ("message_start", [("message", .object message)])).get "message" = some (.object message) := rfl
    unfold MessagesStreamDecoder.decode_message_start
    have hcounts : (some (Value.object message)).bind (·.get "usage") = some (encode_usage early) := hmessage
    rw [hget]
    dsimp only
    rw [hcounts]
    exact ⟨_, _, rfl⟩
  have hread := MessagesStreamDecoder.outputs_upstream hserde hframes hroom
  rw [hfirst, hlast] at hread
  obtain ⟨hstop, hcounts⟩ := said_absorbed id model (decode_usage (encode_usage early)) (decode_usage (encode_usage usage))
    (sent.map SentBlock.heard) (decode_stop_reason (encode_stop_reason reason)) stop_sequence
  rw [← hread] at hstop hcounts
  exact ⟨hstop, hcounts.trans (told_usage husage)⟩

/-- The frames of an answer have its content exactly where a stream can tell all its parts. -/
theorem content_told_iff (hserde : serde.Lawful) (hblank : serde.RejectsBlank) {opening ending : Map}
    (htells : List.Forall₂ (Tells serde) content streamed) (hsent : List.Forall₂ WrittenAs streamed sent) (hroom : sent.length ≤ 4294967296)
    (hframes : List.Forall₂ (Bears serde) frames (upstream opening sent ending)) :
    (aggregated serde frames).into_content serde = content.map plain ↔ ∀ part ∈ content, Tellable part := by
  have hlength : sent.length = (content.map plain).length := by
    rw [List.length_map, ← hsent.length_eq, htells.length_eq]
  have htold : List.Forall₂ (fun part sent => sent.heard.accum.render serde = some (plain part)) content sent ↔
      ∀ part ∈ content, Tellable part := by
    refine forall₂_iff_forall (forall₂_comp htells hsent) fun part sent h => ?_
    obtain ⟨block, hpart, hwritten⟩ := h
    exact hpart.render_iff hblank hwritten
  rw [content_aggregated hserde hframes hroom, filterMap_eq_iff hlength, List.forall₂_map_right_iff, ← htold]
  exact ⟨fun h => h.flip, fun h => h.flip⟩

end Said

/-- An answer that is streamed says what its response says exactly where a stream can tell all its parts. -/
theorem says_same_iff (hserde : serde.Lawful) (hblank : serde.RejectsBlank) (uuid : Nat → String) (now : Int) {ir : UnifiedResponse}
    {early : Option Usage} {reason : StopReason} (hreason : ir.stop_reason = some reason)
    (husage : (early.getD {}).merge_max ir.usage = ir.usage) (htells : List.Forall₂ (Tells serde) ir.content streamed)
    (hroom : streamed.length ≤ 4294967296) :
    SaysSame serde
        (aggregated serde ((stream_encoder serde uuid).outputs
          (message_events ir.id ir.model early streamed ir.usage reason ir.stop_sequence)))
        (decode_response serde now (encode_response ir)) ↔
      ∀ part ∈ ir.content, Tellable part := by
  obtain ⟨message, sent, hmessage, hwell, hsent, houtputs⟩ := @MessagesStreamEncoder.outputs_answer serde uuid ir.id ir.model early
    streamed ir.usage husage reason ir.stop_sequence
  have hbears := MessagesStreamEncoder.bears_answer hserde hwell hsent ir.usage reason ir.stop_sequence
  dsimp only at hbears
  rw [← houtputs] at hbears
  have hcount : sent.length ≤ 4294967296 := by
    rw [← hsent.length_eq]
    exact hroom
  obtain ⟨hstop, hcounts⟩ := said_aggregated hserde hmessage husage hcount hbears
  obtain ⟨back, hback, hcontent, hbackstop, hbackusage⟩ := decode_response_written now htells
  rw [← content_told_iff hserde hblank htells hsent hcount hbears, hback]
  constructor
  · rintro ⟨_, ⟨⟩, hsame, -, -⟩
    exact hsame.trans hcontent
  · intro hsame
    refine ⟨back, rfl, hsame.trans hcontent.symm, ?_, hcounts.trans hbackusage.symm⟩
    rw [hbackstop, hreason]
    exact hstop

/-- A streamed answer says what its response says exactly where a stream can tell all its parts, and a stream of an
    upstream loses nothing exactly where no start of a block carries what no delta tells. -/
theorem stream_agrees_iff (hserde : serde.Lawful) (hblank : serde.RejectsBlank) :
    (∀ (uuid : Nat → String) (now : Int) (ir : UnifiedResponse) (early : Option Usage) (reason : StopReason) (streamed : List StreamedBlock),
      ir.stop_reason = some reason → (early.getD {}).merge_max ir.usage = ir.usage →
      List.Forall₂ (Tells serde) ir.content streamed → streamed.length ≤ 4294967296 →
      (SaysSame serde
          (aggregated serde ((stream_encoder serde uuid).outputs
            (message_events ir.id ir.model early streamed ir.usage reason ir.stop_sequence)))
          (decode_response serde now (encode_response ir)) ↔
        ∀ part ∈ ir.content, Tellable part)) ∧
      ∀ (opening ending : Map) (blocks : List SentBlock) (parts : List ContentPart) (frames : List SseFrame),
        List.Forall₂ (Sends serde) blocks parts → blocks.length ≤ 4294967296 →
        List.Forall₂ (Bears serde) frames (upstream opening blocks ending) →
        ((aggregated serde frames).into_content serde = parts ↔ ∀ block ∈ blocks, block.Kept) := by
  refine ⟨?_, ?_⟩
  · intro uuid now ir early reason streamed hreason husage htells hroom
    exact says_same_iff hserde hblank uuid now hreason husage htells hroom
  · intro opening ending blocks parts frames hsends hroom hframes
    exact content_aggregated_iff hserde hblank hsends hroom hframes

end Responses

section Samples

/-- A thought, a text and a call. -/
def thought_answer : UnifiedResponse where
  id := "r"
  model := "m"
  created := 0
  content := [.thinking "hm" (some "s"), .text "hello", .toolUse "c" "f" (.object []) none]
  stop_reason := some .toolUse
  usage := { input_tokens := 3, output_tokens := 5 }

def thought_blocks : List StreamedBlock := [.thinking ["h", "m"] (some "s"), .text ["hel", "lo"], .toolUse "c" "f" []]

theorem thought_told : List.Forall₂ (Tells Serde.compact) thought_answer.content thought_blocks :=
  .cons (.thinking ["h", "m"] (some "s")) (.cons (.text ["hel", "lo"]) (.cons (.toolUse "c" "f" [] none [] (.inl ⟨by decide, rfl⟩)) .nil))

/-- The frames of an upstream that sends some blocks. -/
def sent_notices (blocks : List SentBlock) : List Notice :=
  upstream [("message", .object [("id", .string "r"), ("model", .string "m")])] blocks [("delta", .object [("stop_reason", .string "end_turn")])]

def sent_frames (blocks : List SentBlock) : List SseFrame := (sent_notices blocks).map (MessagesStreamEncoder.written Serde.compact)

theorem sent_frames_read {blocks : List SentBlock} (hblocks : ∀ block ∈ blocks, (Value.object block.content_block).WellFormed) :
    List.Forall₂ (Bears Serde.compact) (sent_frames blocks) (sent_notices blocks) :=
  MessagesStreamEncoder.bears_written Serde.compact_lawful
    (MessagesStreamEncoder.upstream_wellFormed (by simp [payload]) (by simp [payload]) hblocks)

/-- A text whose start carries its beginning. -/
def begun_text : List SentBlock := [.text "hel" ["lo"]]

theorem thought_answer_agrees :
    SaysSame Serde.compact
        (aggregated Serde.compact ((stream_encoder Serde.compact fun _ => "0").outputs
          (message_events "r" "m" none thought_blocks { input_tokens := 3, output_tokens := 5 } .toolUse none)))
        (decode_response Serde.compact 0 (encode_response thought_answer)) ∧
      (aggregated Serde.compact (sent_frames begun_text)).into_content Serde.compact = [.text "hello"] := by
  refine ⟨?_, ?_⟩
  · refine ((stream_agrees_iff Serde.compact_lawful Serde.compact_rejectsBlank).1 (fun _ => "0") 0 thought_answer none .toolUse
      thought_blocks rfl rfl thought_told (by decide)).mpr ?_
    simp [thought_answer, Tellable]
  · refine ((stream_agrees_iff Serde.compact_lawful Serde.compact_rejectsBlank).2 _ _ begun_text _ _
      (.cons (.text "hel" ["lo"]) .nil) (by decide) (sent_frames_read ?_)).mpr ?_
    · intro block hblock
      rw [List.mem_singleton.mp hblock]
      simp [SentBlock.content_block]
    · simp [begun_text, SentBlock.Kept]

/-- A redacted thought, and a call that starts with its input. -/
def carried_blocks : List SentBlock := [.redacted "abc", .toolUse "c" "f" [("city", .string "Paris")] []]

def carried_parts : List ContentPart := [.redactedThinking "abc", .toolUse "c" "f" (.object [("city", .string "Paris")]) none]

/-- Both are lost. -/
theorem carried_blocks_lost : List.Forall₂ (Sends Serde.compact) carried_blocks carried_parts ∧
    List.Forall₂ (Bears Serde.compact) (sent_frames carried_blocks) (sent_notices carried_blocks) ∧
    (aggregated Serde.compact (sent_frames carried_blocks)).into_content Serde.compact ≠ carried_parts := by
  have hread : List.Forall₂ (Bears Serde.compact) (sent_frames carried_blocks) (sent_notices carried_blocks) := by
    refine sent_frames_read fun block hblock => ?_
    simp only [carried_blocks, List.mem_cons, List.not_mem_nil, or_false] at hblock
    rcases hblock with rfl | rfl <;> simp [SentBlock.content_block]
  have hsends : List.Forall₂ (Sends Serde.compact) carried_blocks carried_parts :=
    .cons (.redacted "abc") (.cons (.toolUse "c" "f" _ [] _ (.inl ⟨by decide, rfl⟩)) .nil)
  refine ⟨hsends, hread, ?_⟩
  rw [Ne, content_aggregated_iff Serde.compact_lawful Serde.compact_rejectsBlank hsends (by decide) hread]
  exact fun hkept => hkept (.redacted "abc") (.head _)

end Samples

end refract.codec.messages
