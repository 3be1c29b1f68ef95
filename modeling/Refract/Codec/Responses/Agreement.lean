import Refract.Codec.Responses.Decoder
import Refract.Codec.Responses.Streamed
import Refract.Json.RoundTrip
import Refract.Stream.Aggregator

open refract.json refract.ir refract.machine refract.stream

namespace refract.codec.responses

/-- The payload of a frame. -/
def framed (notice : Notice) (seq : Nat) : Value :=
  .object (notice.2 ++ [("type", .string notice.1), ("sequence_number", .nat seq)])

/-- The payload has none of the members that every frame gets. -/
structure Plain (notice : Notice) : Prop where
  wellFormed : (Value.object notice.2).WellFormed
  untyped : "type" ∉ notice.2.map Prod.fst
  unnumbered : "sequence_number" ∉ notice.2.map Prod.fst

section Frames

variable {serde : Serde} {notice : Notice} {key : String} {value : Value} {seq index : Nat}

theorem Plain.framed (h : Plain notice) (seq : Nat) : (framed notice seq).WellFormed := by
  obtain ⟨hobject, htype, hnumber⟩ := h
  rw [Value.wellFormed_object] at hobject
  obtain ⟨hkeys, hvalues⟩ := hobject
  rw [responses.framed, Value.wellFormed_object, List.map_append]
  refine ⟨?_, ?_⟩
  · rw [List.nodup_append]
    refine ⟨hkeys, by simp, ?_⟩
    intro key hkey other hother
    simp only [List.map_cons, List.map_nil, List.mem_cons, List.not_mem_nil, or_false] at hother
    rintro rfl
    rcases hother with rfl | rfl
    · exact htype hkey
    · exact hnumber hkey
  · intro entry hentry
    rcases List.mem_append.mp hentry with hpayload | hadded
    · exact hvalues entry hpayload
    · simp only [List.mem_cons, List.not_mem_nil, or_false] at hadded
      rcases hadded with rfl | rfl
      · exact .string _
      · exact .number _

/-- What a payload has is read from its frame. -/
theorem get_framed (h : notice.2.lookup key = some value) (seq : Nat) : (framed notice seq).get key = some value := by
  rw [framed, Value.get_object, List.lookup_append, h, Option.some_or]

/-- An index of a `u32` is read back. -/
theorem output_index_eq {payload : Value} (h : payload.get "output_index" = some (.nat index)) (hroom : index < 4294967296) :
    output_index payload = index := by
  have hnat : (Value.nat index).as_u64 = some ⟨index, by omega⟩ := Value.as_u64_nat ⟨index, by omega⟩
  rw [output_index, h, Option.bind_some, as_u32, hnat]
  simp [Option.filter, hroom]

end Frames

theorem OpenBlock.item_wellFormed (block : OpenBlock) : block.item.WellFormed := by
  unfold item message_item
  cases block.kind <;> cases block.signature <;> simp [text_part, refusal_part, summary_part]

namespace ResponsesStreamDecoder

/-- The frames of a stream are read as some events, wherever they stand in it. -/
def Reads (serde : Serde) (before : ResponsesStreamDecoder) (notices : List Notice) (events : List StreamEvent)
    (after : ResponsesStreamDecoder) : Prop :=
  ∀ seq, (stream_decoder serde).Passes before (numbered serde seq notices) events after

/-- A decoder that has read of some items of known kinds. -/
def reading (kinds : List PartKind) : ResponsesStreamDecoder where
  opened := kinds.map some
  started := true

section Steps

variable {serde : Serde} {self middle after : ResponsesStreamDecoder} {notice : Notice} {notices rest : List Notice}
  {events more : List StreamEvent}

theorem Reads.nil (self : ResponsesStreamDecoder) : Reads serde self [] [] self := fun _ => .nil _ _

theorem Reads.append (h : Reads serde self notices events middle) (h' : Reads serde middle rest more after) :
    Reads serde self (notices ++ rest) (events ++ more) after := by
  intro seq
  rw [numbered_append]
  exact (h seq).append (h' _)

/-- A frame is read as its payload. -/
theorem Reads.single (hserde : serde.Lawful) (hplain : Plain notice)
    (hevent : ∀ seq, self.decode_event notice.1 (framed notice seq) = (after, events)) : Reads serde self [notice] events after := by
  intro seq
  have hvalue := hplain.framed seq
  have hframe : numbered serde seq [notice] = [.named notice.1 (serde.to_string (framed notice seq))] := rfl
  have hdecode : (stream_decoder serde).step self (.named notice.1 (serde.to_string (framed notice seq))) = (after, events) := by
    rw [stream_decoder_step, decode, SseFrame.named_data, hserde.trim_to_string _ hvalue, if_neg (hserde.to_string_ne_done hvalue),
      if_neg (hserde.to_string_ne_empty hvalue), hserde.from_str_to_string _ hvalue]
    exact hevent seq
  rw [hframe]
  exact .single hdecode

variable {kinds : List PartKind} {kind : PartKind}

theorem slot_reading_last (kinds : List PartKind) (kind : PartKind) :
    slot (reading (kinds ++ [kind])).opened kinds.length = some kind := by
  simp [reading, slot]

/-- The block of a new item is announced. -/
theorem ensure_open_next (kinds : List PartKind) (kind : PartKind) :
    (reading kinds).ensure_open kinds.length kind = (reading (kinds ++ [kind]), [.contentStart kinds.length kind]) := by
  have hfree : slot (reading kinds).opened kinds.length = none := slot_of_length_le _ _ (List.length_map some).le
  have hput : put (kinds.map some) kinds.length (some kind) = (kinds ++ [kind]).map some := by
    have hlength : kinds.length = (kinds.map some).length := (List.length_map some).symm
    rw [hlength, put_length, List.map_append]
    rfl
  rw [ensure_open, hfree, if_neg (Option.some_ne_none kind).symm, show (reading kinds).opened = kinds.map some from rfl, hput]
  rfl

/-- A block that is announced is not announced again. -/
theorem in_block_last (kinds : List PartKind) (kind : PartKind) (event : StreamEvent) :
    (reading (kinds ++ [kind])).in_block kinds.length kind event = (reading (kinds ++ [kind]), [event]) := by
  rw [in_block, ensure_open, if_pos (slot_reading_last kinds kind)]
  rfl

end Steps

section Items

variable {serde : Serde} (hserde : serde.Lawful) {kinds : List PartKind} {block : OpenBlock}
  (hindex : block.output_index = kinds.length) (hroom : kinds.length < 4294967296)

include hserde hindex hroom

/-- A delta is read as its fragment. -/
theorem reads_delta (text : String) :
    Reads serde (reading (kinds ++ [block.kind])) [block.delta text] [fragment_event block.kind kinds.length text]
      (reading (kinds ++ [block.kind])) := by
  have hplain : Plain (block.delta text) := by
    unfold OpenBlock.delta
    cases block.kind <;> exact ⟨by simp [OpenBlock.place], by simp [OpenBlock.place], by simp [OpenBlock.place]⟩
  have hplace : (block.delta text).2.lookup "output_index" = some (.nat kinds.length) := by
    rw [← hindex]
    unfold OpenBlock.delta
    cases block.kind <;> simp [OpenBlock.place, List.lookup_cons]
  have htext : (block.delta text).2.lookup "delta" = some (.string text) := by
    unfold OpenBlock.delta
    cases block.kind <;> simp [OpenBlock.place, List.lookup_cons]
  have hevent : ∀ (self : ResponsesStreamDecoder) (payload : Value), self.decode_event (block.delta text).1 payload =
      self.in_block (output_index payload) block.kind (fragment_event block.kind (output_index payload) (delta_text payload)) := by
    intro self payload
    unfold OpenBlock.delta
    cases block.kind <;> rfl
  refine .single hserde hplain fun seq => ?_
  have hread : delta_text (framed (block.delta text) seq) = text := by
    rw [delta_text, get_framed htext]
    rfl
  rw [hevent, output_index_eq (get_framed hplace seq) hroom, hread]
  exact in_block_last kinds block.kind _

theorem reads_deltas (fragments : List String) :
    Reads serde (reading (kinds ++ [block.kind])) (fragments.map block.delta)
      (fragments.map (fragment_event block.kind kinds.length)) (reading (kinds ++ [block.kind])) := by
  induction fragments with
  | nil => exact .nil _
  | cons text fragments ih => exact (reads_delta hserde hindex hroom text).append ih

/-- A frame that has an item and its index is read with both. -/
theorem reads_item {event : String} {item : Value} (hitem : item.WellFormed) {self after : ResponsesStreamDecoder} {events : List StreamEvent}
    (hevent : ∀ payload, output_index payload = kinds.length → payload.get "item" = some item →
      self.decode_event event payload = (after, events)) :
    Reads serde self [(event, [("output_index", .nat block.output_index), ("item", item)])] events after := by
  refine .single hserde ⟨by simp [hitem], by simp, by simp⟩ fun seq => ?_
  refine hevent _ (output_index_eq (get_framed ?_ seq) hroom) (get_framed rfl seq)
  rw [← hindex]
  rfl

/-- A frame about a part of an item is read with the index of the item. -/
theorem reads_part {event : String} {more : Map} (hmore : Plain (event, block.place more)) {self after : ResponsesStreamDecoder}
    {events : List StreamEvent}
    (hevent : ∀ payload, output_index payload = kinds.length →
      (∀ key value, (block.place more).lookup key = some value → payload.get key = some value) →
      self.decode_event event payload = (after, events)) :
    Reads serde self [(event, block.place more)] events after := by
  refine .single hserde hmore fun seq => ?_
  refine hevent _ (output_index_eq (get_framed ?_ seq) hroom) fun key value hlookup => get_framed hlookup seq
  rw [← hindex]
  simp [OpenBlock.place, List.lookup_cons]

/-- An item that is announced is read as the start of its block. -/
theorem reads_announcement :
    Reads serde (reading kinds) block.announcement
      (.contentStart kinds.length block.kind ::
        if block.kind = .toolUse then [.toolCallStart kinds.length block.tool_id block.tool_name none] else [])
      (reading (kinds ++ [block.kind])) := by
  have hadded : block.added_item.WellFormed := by
    unfold OpenBlock.added_item
    cases block.kind <;> simp
  have hitem : ∀ {self after : ResponsesStreamDecoder} {events : List StreamEvent},
      (∀ payload, output_index payload = kinds.length → payload.get "item" = some block.added_item →
        self.decode_item_added payload = (after, events)) →
      Reads serde self [("response.output_item.added", [("output_index", .nat block.output_index), ("item", block.added_item)])] events
        after := fun hevent => reads_item hserde hindex hroom hadded hevent
  have hpart : ∀ {kind : PartKind} {part : Value}, part.WellFormed → (∀ payload : Value, payload.get "part" = some part → part_kind payload = kind) →
      Reads serde (reading kinds) [("response.content_part.added", block.place [("content_index", .nat 0), ("part", part)])]
        [.contentStart kinds.length kind] (reading (kinds ++ [kind])) := by
    intro kind part hpart hkind
    refine reads_part hserde hindex hroom ⟨by simp [OpenBlock.place, hpart], by simp [OpenBlock.place], by simp [OpenBlock.place]⟩ ?_
    intro payload hplace hget
    change (reading kinds).ensure_open (output_index payload) (part_kind payload) = _
    rw [hplace, hkind payload (hget "part" part (by simp [OpenBlock.place, List.lookup_cons])), ensure_open_next]
  have hmessage : block.kind = .text ∨ block.kind = .refusal → ∀ payload : Value, payload.get "item" = some block.added_item →
      (reading kinds).decode_item_added payload = (reading kinds, []) := by
    intro hkind payload hadded
    rcases hkind with hkind | hkind
    · simp [decode_item_added, hadded, OpenBlock.added_item, hkind]
    · simp [decode_item_added, hadded, OpenBlock.added_item, hkind]
  unfold OpenBlock.announcement
  cases hkind : block.kind with
  | text =>
    have hadd := hitem fun payload _ hget => hmessage (.inl hkind) payload hget
    refine hadd.append (@hpart .text (OpenBlock.text_part "") (by simp [OpenBlock.text_part]) ?_)
    intro payload hpart
    simp [part_kind, hpart, OpenBlock.text_part]
  | refusal =>
    have hadd := hitem fun payload _ hget => hmessage (.inr hkind) payload hget
    refine hadd.append (@hpart .refusal (OpenBlock.refusal_part "") (by simp [OpenBlock.refusal_part]) ?_)
    intro payload hpart
    simp [part_kind, hpart, OpenBlock.refusal_part]
  | thinking =>
    have hadd : Reads serde (reading kinds) [("response.output_item.added", [("output_index", .nat block.output_index), ("item", block.added_item)])]
        [.contentStart kinds.length .thinking] (reading (kinds ++ [.thinking])) := by
      apply hitem
      intro payload hplace hget
      simp only [decode_item_added, hget, OpenBlock.added_item, hkind, hplace]
      exact ensure_open_next kinds .thinking
    have hsummary : Reads serde (reading (kinds ++ [.thinking]))
        [("response.reasoning_summary_part.added", block.place [("summary_index", .nat 0), ("part", OpenBlock.summary_part "")])]
        [] (reading (kinds ++ [.thinking])) := by
      refine reads_part hserde hindex hroom ⟨?_, by simp [OpenBlock.place], by simp [OpenBlock.place]⟩ fun payload _ _ => rfl
      simp [OpenBlock.place, OpenBlock.summary_part]
    exact hadd.append hsummary
  | toolUse =>
    refine hitem fun payload hplace hget => ?_
    simp only [decode_item_added, hget, OpenBlock.added_item, hkind, hplace]
    refine Eq.trans (b := (reading kinds).in_block kinds.length .toolUse (.toolCallStart kinds.length block.tool_id block.tool_name none)) rfl ?_
    rw [in_block, ensure_open_next]
    rfl

/-- Frames that close a part say nothing new. -/
theorem reads_closing (self : ResponsesStreamDecoder) : Reads serde self block.closing [] self := by
  have hsilent : ∀ {event : String} {more : Map}, Plain (event, block.place more) →
      (∀ payload, self.decode_event event payload = (self, [])) → Reads serde self [(event, block.place more)] [] self :=
    fun hplain hevent => reads_part hserde hindex hroom hplain fun payload _ _ => hevent payload
  unfold OpenBlock.closing
  cases block.kind with
  | text =>
    refine Reads.append (hsilent ⟨?_, ?_, ?_⟩ fun _ => rfl) (hsilent ⟨?_, ?_, ?_⟩ fun _ => rfl)
    all_goals simp [OpenBlock.place, OpenBlock.text_part]
  | refusal =>
    refine Reads.append (hsilent ⟨?_, ?_, ?_⟩ fun _ => rfl) (hsilent ⟨?_, ?_, ?_⟩ fun _ => rfl)
    all_goals simp [OpenBlock.place, OpenBlock.refusal_part]
  | thinking =>
    refine Reads.append (hsilent ⟨?_, ?_, ?_⟩ fun _ => rfl) (hsilent ⟨?_, ?_, ?_⟩ fun _ => rfl)
    all_goals simp [OpenBlock.place, OpenBlock.summary_part]
  | toolUse =>
    refine hsilent ⟨?_, ?_, ?_⟩ fun _ => rfl
    all_goals simp [OpenBlock.place]

/-- An item that is closed is read as the end of its block, and with its signature. -/
theorem reads_item_done (hsignature : block.signature ≠ none → block.kind = .thinking) :
    Reads serde (reading (kinds ++ [block.kind])) [block.item_done]
      ((block.signature.map (.thinkingSignature kinds.length)).toList ++ [.contentStop kinds.length])
      (reading (kinds ++ [block.kind])) := by
  have hkept : block.item.get_str "encrypted_content" = block.signature := by
    unfold OpenBlock.item OpenBlock.message_item
    cases hkind : block.kind <;> cases hsigned : block.signature <;> simp_all [List.lookup_cons]
  refine reads_item hserde hindex hroom block.item_wellFormed fun payload hplace hget => ?_
  change (reading (kinds ++ [block.kind])).decode_item_done payload = _
  rw [decode_item_done, hplace, hget, Option.bind_some, hkept]
  cases hsigned : block.signature with
  | none => rfl
  | some signature =>
    dsimp only
    rw [hsignature (by rw [hsigned]; exact Option.some_ne_none signature), in_block_last]
    rfl

end Items

section Blocks

variable {serde : Serde} (hserde : serde.Lawful) {kinds : List PartKind} (id : String)

include hserde

/-- The frames of a block are read as its events. -/
theorem reads_block (streamed : StreamedBlock) (hroom : kinds.length < 4294967296) :
    Reads serde (reading kinds) (streamed.notices kinds.length id) (streamed.events kinds.length)
      (reading (kinds ++ [streamed.kind])) := by
  have hannounced := @reads_announcement serde hserde kinds (streamed.first kinds.length id) rfl hroom
  have htold := @reads_deltas serde hserde kinds (streamed.first kinds.length id) rfl hroom streamed.fragments
  have hlast := streamed.same_last kinds.length id
  have hclosed := @reads_closing serde hserde kinds (streamed.last kinds.length id) hlast.output_index hroom
  have hdone := @reads_item_done serde hserde kinds (streamed.last kinds.length id) hlast.output_index hroom
  rw [streamed.signature_last, hlast.kind] at hdone
  have hcall : (if streamed.kind = .toolUse then
      [.toolCallStart kinds.length (streamed.first kinds.length id).tool_id (streamed.first kinds.length id).tool_name none] else []) =
      streamed.call_events kinds.length := by
    cases streamed <;> rfl
  rw [show (streamed.first kinds.length id).kind = streamed.kind from rfl] at hannounced htold hdone
  rw [hcall] at hannounced
  have hall := (hannounced.append htold).append ((hclosed _).append (hdone streamed.kind_of_signature))
  rw [List.nil_append] at hall
  rw [StreamedBlock.events, List.append_assoc]
  exact hall

/-- The frames of blocks are read as their events. -/
theorem reads_blocks (blocks : List StreamedBlock) (hroom : kinds.length + blocks.length ≤ 4294967296) :
    Reads serde (reading kinds) (block_notices blocks kinds.length id) (block_events blocks kinds.length)
      (reading (kinds ++ blocks.map StreamedBlock.kind)) := by
  induction blocks generalizing kinds with
  | nil =>
    rw [List.map_nil, List.append_nil]
    exact .nil _
  | cons block blocks ih =>
    rw [List.length_cons] at hroom
    have hfirst := @reads_block serde hserde kinds id block (by omega)
    have hlength : (kinds ++ [block.kind]).length = kinds.length + 1 := List.length_append
    have hrest := @ih (kinds ++ [block.kind]) (by omega)
    rw [hlength, List.append_assoc] at hrest
    exact hfirst.append hrest

end Blocks

end ResponsesStreamDecoder

namespace StreamedBlock

variable (streamed : StreamedBlock) (index : Nat) (id : String)

theorem kind_last : (streamed.last index id).kind = streamed.kind := (streamed.same_last index id).kind

theorem is_function_call_last :
    ResponsesStreamDecoder.is_function_call (streamed.last index id).item = decide (streamed.kind = .toolUse) := by
  rw [← streamed.kind_last index id]
  unfold ResponsesStreamDecoder.is_function_call OpenBlock.item OpenBlock.message_item
  cases (streamed.last index id).kind <;> simp

theorem is_refusal_last : ResponsesStreamDecoder.is_refusal (streamed.last index id).item = decide (streamed.kind = .refusal) := by
  rw [← streamed.kind_last index id]
  unfold ResponsesStreamDecoder.is_refusal OpenBlock.item OpenBlock.message_item
  cases (streamed.last index id).kind <;> cases (streamed.last index id).signature <;>
    simp [List.lookup_cons, Value.as_array, OpenBlock.text_part, OpenBlock.refusal_part]

end StreamedBlock

/-- The reason that a response tells: its status tells two of them, and its items the others. -/
def told_reason (reason : StopReason) (called refused : Bool) : StopReason :=
  match reason with
  | .maxTokens | .contentFilter => reason
  | _ => if called then .toolUse else if refused then .refusal else .stop

theorem map_status_told (reason : StopReason) (called refused : Bool) :
    map_status (status_str reason) ((incomplete_details reason).bind (·.get_str "reason")) called refused =
      told_reason reason called refused := by
  cases reason <;> rfl

namespace ResponsesStreamEncoder

/-- A response is written as a document. -/
theorem snapshot_wellFormed (self : ResponsesStreamEncoder) (status : String) (terminal : Bool)
    (hitems : ∀ item ∈ self.items.reduceOption, item.WellFormed) : (self.snapshot status terminal).WellFormed := by
  have hdetails : ((self.stop_reason.bind incomplete_details).getD .null).WellFormed := by
    cases self.stop_reason with
    | none => exact .null
    | some reason => cases reason <;> simp [incomplete_details]
  have houtput : (Value.array (if terminal then self.items.reduceOption else [])).WellFormed := by
    split
    next => exact .array hitems
    next => simp
  have husage : (if terminal then encode_usage self.usage else .null).WellFormed := by
    split
    next => exact encode_usage_wellFormed self.usage
    next => exact .null
  unfold snapshot
  simp [hdetails, houtput, husage]

end ResponsesStreamEncoder

namespace ResponsesStreamDecoder

variable {serde : Serde} (hserde : serde.Lawful)

include hserde

/-- A frame with a response is read with it. -/
theorem reads_response {event : String} {response : Value} (hresponse : response.WellFormed) {self after : ResponsesStreamDecoder}
    {events : List StreamEvent}
    (hevent : ∀ payload : Value, payload.get "response" = some response → self.decode_event event payload = (after, events)) :
    Reads serde self [(event, [("response", response)])] events after :=
  .single hserde ⟨by simp [hresponse], by simp, by simp⟩ fun seq => hevent _ (get_framed rfl seq)

/-- The frames that open a stream are read as its start. -/
theorem reads_opening (encoder : ResponsesStreamEncoder) (hitems : encoder.items = []) :
    Reads serde {} (opening (encoder.snapshot "in_progress" false)) [.start encoder.id encoder.model none] (reading []) := by
  have hwell : (encoder.snapshot "in_progress" false).WellFormed := by
    refine encoder.snapshot_wellFormed _ _ ?_
    rw [hitems, List.reduceOption_nil]
    exact List.forall_mem_nil _
  have hcreated : Reads serde {} [("response.created", [("response", encoder.snapshot "in_progress" false)])]
      [.start encoder.id encoder.model none] (reading []) := by
    refine reads_response hserde hwell fun payload hget => ?_
    change ({} : ResponsesStreamDecoder).decode_created payload = _
    rw [decode_created, hget]
    rfl
  have hagain : Reads serde (reading []) [("response.in_progress", [("response", encoder.snapshot "in_progress" false)])] []
      (reading []) := reads_response hserde hwell fun payload _ => rfl
  exact hcreated.append hagain

open ResponsesStreamEncoder in
omit hserde in
theorem final_reason_answer (uuid : String) (now : Int) (id model : String) (blocks : List StreamedBlock) (usage : Usage)
    (reason : StopReason) (event : String) :
    final_reason event (some (answer uuid now id model blocks usage reason)) =
      told_reason reason (blocks.any (·.kind = .toolUse)) (blocks.any (·.kind = .refusal)) := by
  have hstatus : (answer uuid now id model blocks usage reason).get_str "status" = some (status_str reason) := rfl
  have hdetails : ((answer uuid now id model blocks usage reason).get "incomplete_details").bind (·.get_str "reason") =
      (incomplete_details reason).bind (·.get_str "reason") := by
    cases reason <;> rfl
  have houtput : (answer uuid now id model blocks usage reason).get "output" = some (.array (answer_items uuid now id model blocks)) := by
    rw [answer, snapshot_output, informed, between, reduceOption_map_some]
  have hany : ∀ (p : Value → Bool) (kind : PartKind),
      (∀ (block : StreamedBlock) (index : Nat) (id : String), p (block.last index id).item = decide (block.kind = kind)) →
        (answer_items uuid now id model blocks).any p = blocks.any (·.kind = kind) := by
    intro p kind hp
    rw [answer_items, block_items, List.any_map]
    conv_rhs => rw [← List.zipIdx_map_fst 0 blocks, List.any_map]
    exact congrArg (blocks.zipIdx 0).any (funext fun entry => hp entry.1 entry.2 _)
  unfold final_reason
  dsimp only [Option.bind_some]
  rw [hstatus, hdetails, houtput, ← map_status_told, ← hany is_function_call .toolUse StreamedBlock.is_function_call_last,
    ← hany is_refusal .refusal StreamedBlock.is_refusal_last]
  rfl

open ResponsesStreamEncoder in
/-- The final response is read as the counts, the reason and the end of the stream. -/
theorem reads_answer (uuid : String) (now : Int) (id model : String) (blocks : List StreamedBlock) (usage : Usage) (reason : StopReason)
    {self : ResponsesStreamDecoder} (hlive : self.finished = false) :
    Reads serde self [(terminal_event (status_str reason), [("response", answer uuid now id model blocks usage reason)])]
      [.usage usage, .stop (told_reason reason (blocks.any (·.kind = .toolUse)) (blocks.any (·.kind = .refusal))) none, .done]
      { self with finished := true } := by
  have hitems : ((answer_items uuid now id model blocks).map some).reduceOption = answer_items uuid now id model blocks :=
    reduceOption_map_some _
  have hwell : (answer uuid now id model blocks usage reason).WellFormed := by
    refine snapshot_wellFormed _ _ _ ?_
    intro item hitem
    rw [informed, between, hitems] at hitem
    obtain ⟨entry, -, rfl⟩ := List.mem_map.mp hitem
    exact OpenBlock.item_wellFormed _
  refine reads_response hserde hwell fun payload hget => ?_
  have hanswer : ∀ event, self.decode_completed event payload =
      ({ self with finished := true },
        [.usage usage, .stop (told_reason reason (blocks.any (·.kind = .toolUse)) (blocks.any (·.kind = .refusal))) none, .done]) := by
    intro event
    rw [decode_completed, hget, hlive, final_reason_answer]
    have hcounts : nonnull ((some (answer uuid now id model blocks usage reason)).bind (·.get "usage")) = some (encode_usage usage) := rfl
    rw [hcounts, Option.map_some, decode_usage_encode_usage]
    rfl
  cases reason <;> exact hanswer _

open ResponsesStreamEncoder in
/-- The events that are read from a streamed answer. -/
theorem outputs_read (uuid : String) (now : Int) (id model : String) (blocks : List StreamedBlock) (usage : Usage) (reason : StopReason)
    (stop_sequence : Option String) (hroom : blocks.length ≤ 4294967296) :
    (stream_decoder serde).outputs ((stream_encoder serde uuid now).outputs (answer_events id model blocks usage reason stop_sequence)) =
      .start (begun uuid now id model).id (begun uuid now id model).model none :: block_events blocks 0 ++
        [.usage usage, .stop (told_reason reason (blocks.any (·.kind = .toolUse)) (blocks.any (·.kind = .refusal))) none, .done] := by
  have hopening := reads_opening hserde (begun uuid now id model) rfl
  have hblocks := @reads_blocks serde hserde [] (begun uuid now id model).id blocks (by rwa [List.length_nil, Nat.zero_add])
  have hend := reads_answer hserde uuid now id model blocks usage reason
    (show (reading ([] ++ blocks.map StreamedBlock.kind)).finished = false from rfl)
  have hall := (hopening.append hblocks).append hend
  rw [outputs_answer]
  refine (Transducer.Passes.outputs (hall 0)).trans ?_
  exact List.append_nil _

end ResponsesStreamDecoder

section Aggregation

variable {serde : Serde} {blocks : Blocks} {index : Nat}

/-- The block that an aggregator makes of a streamed one. -/
def StreamedBlock.accum : StreamedBlock → BlockAccum
  | .text fragments => .text (String.join fragments)
  | .refusal fragments => .refusal (String.join fragments)
  | .thinking fragments signature => .thinking (String.join fragments) signature
  | .toolUse id name fragments => .toolUse id name (String.join fragments) none

/-- Fragments are put together in the block that came last. -/
theorem absorb_fragments (hbelow : blocks.Below index) (block : BlockAccum) (fragments : List String) :
    (fragments.map (fragment_event block.kind index)).foldl Blocks.absorb (blocks ++ [(index, block)]) =
      blocks ++ [(index, block.push_str (String.join fragments))] := by
  induction fragments generalizing block with
  | nil => cases block <;> simp [BlockAccum.push_str]
  | cons text fragments ih =>
    have hone : Blocks.absorb (blocks ++ [(index, block)]) (fragment_event block.kind index text) =
        blocks ++ [(index, block.push_str text)] := by
      cases block <;> exact hbelow.edit_last rfl
    have hrest := ih (block.push_str text)
    rw [BlockAccum.kind_push_str] at hrest
    rw [List.map_cons, List.foldl_cons, hone, hrest, String.join_cons]
    cases block <;> simp [BlockAccum.push_str, String.append_assoc]

/-- A streamed block is put together behind the others. -/
theorem absorb_block (hbelow : blocks.Below index) (streamed : StreamedBlock) :
    (streamed.events index).foldl Blocks.absorb blocks = blocks ++ [(index, streamed.accum)] := by
  have hstart : Blocks.absorb blocks (.contentStart index streamed.kind) = blocks ++ [(index, .fresh streamed.kind)] := hbelow.edit
  have hstop : ∀ others : Blocks, others.absorb (.contentStop index) = others := fun _ => rfl
  have hfragments := fun block => absorb_fragments hbelow block streamed.fragments
  have hopen : ∀ events : List StreamEvent, (.contentStart index streamed.kind :: events).foldl Blocks.absorb blocks =
      events.foldl Blocks.absorb (blocks ++ [(index, .fresh streamed.kind)]) :=
    fun events => congrArg (fun opened => events.foldl Blocks.absorb opened) hstart
  rw [StreamedBlock.events, List.foldl_append, List.foldl_append, List.foldl_append, hopen, List.foldl_cons, hstop, List.foldl_nil]
  cases streamed with
  | text fragments =>
    refine (hfragments (.text "")).trans ?_
    rw [BlockAccum.push_str, String.empty_append]
    rfl
  | refusal fragments =>
    refine (hfragments (.refusal "")).trans ?_
    rw [BlockAccum.push_str, String.empty_append]
    rfl
  | thinking fragments signature =>
    have htold := hfragments (.thinking "" none)
    rw [BlockAccum.push_str, String.empty_append] at htold
    cases signature with
    | none => exact htold
    | some signature =>
      refine (congrArg (Blocks.absorb · (.thinkingSignature index signature)) htold).trans ?_
      exact hbelow.edit_last rfl
  | toolUse id name fragments =>
    have hcall : Blocks.absorb (blocks ++ [(index, .fresh .toolUse)]) (.toolCallStart index id name none) =
        blocks ++ [(index, .toolUse id name "" none)] := by
      refine (@Blocks.Below.edit_last blocks index .toolUse (·.announce id name none) hbelow (.toolUse "" "" "" none) rfl).trans ?_
      simp [BlockAccum.announce]
    have htold := hfragments (.toolUse id name "" none)
    rw [BlockAccum.push_str, String.empty_append] at htold
    refine Eq.trans ?_ htold
    exact congrArg (List.foldl Blocks.absorb · (fragments.map (fragment_event .toolUse index))) hcall

/-- Streamed blocks are put together one behind another. -/
theorem absorb_blocks (hbelow : blocks.Below index) (streamed : List StreamedBlock) :
    (block_events streamed index).foldl Blocks.absorb blocks =
      blocks ++ (streamed.zipIdx index).map fun entry => (entry.2, entry.1.accum) := by
  induction streamed generalizing blocks index with
  | nil => exact (List.append_nil blocks).symm
  | cons block streamed ih =>
    have hnext : Blocks.Below (blocks ++ [(index, block.accum)]) (index + 1) := by
      intro entry hentry
      rcases List.mem_append.mp hentry with hbefore | hlast
      · exact (hbelow entry hbefore).trans (Nat.lt_succ_self index)
      · rw [List.mem_singleton.mp hlast]
        exact Nat.lt_succ_self index
    have hevents : block_events (block :: streamed) index = block.events index ++ block_events streamed (index + 1) := rfl
    rw [hevents, List.foldl_append, absorb_block hbelow, ih hnext, List.append_assoc]
    rfl

/-- The events of a block have its index. -/
theorem events_index (streamed : StreamedBlock) (index : Nat) : ∀ event ∈ streamed.events index, event.index = some index := by
  have hfragment : ∀ text, (fragment_event streamed.kind index text).index = some index := by
    intro text
    cases streamed.kind <;> rfl
  intro event hevent
  simp only [StreamedBlock.events, List.mem_append, List.mem_cons, List.mem_map, Option.mem_toList, Option.map_eq_some_iff,
    List.not_mem_nil, or_false] at hevent
  obtain (((rfl | hcall) | ⟨text, -, rfl⟩) | ⟨signature, -, rfl⟩) | rfl := hevent
  · rfl
  · cases streamed with
    | toolUse id name fragments =>
      rw [List.mem_singleton.mp hcall]
      rfl
    | _ => cases hcall
  · exact hfragment text
  · rfl
  · rfl

/-- No event of a block says why a stream stopped or what it counts. -/
theorem block_events_quiet (streamed : List StreamedBlock) (index : Nat) :
    (block_events streamed index).filterMap StreamEvent.stop_reason = [] ∧
      (block_events streamed index).filterMap StreamEvent.snapshot = [] := by
  have hquiet : ∀ event ∈ block_events streamed index, event.stop_reason = none ∧ event.snapshot = none := by
    intro event hevent
    obtain ⟨⟨block, place⟩, -, hmem⟩ := List.mem_flatMap.mp hevent
    refine StreamEvent.of_index ?_
    rw [events_index block place event hmem]
    rfl
  refine ⟨?_, ?_⟩
  · exact List.filterMap_eq_nil_iff.mpr fun event hevent => (hquiet event hevent).1
  · exact List.filterMap_eq_nil_iff.mpr fun event hevent => (hquiet event hevent).2

/-- Blocks that are numbered are rendered in their order. -/
theorem into_content_of_numbered (serde : Serde) (streamed : List StreamedBlock) :
    Blocks.into_content serde ((streamed.zipIdx 0).map fun entry => (entry.2, entry.1.accum)) =
      streamed.filterMap fun block => block.accum.render serde := by
  have hordered : ((streamed.zipIdx 0).map fun entry => (entry.2, entry.1.accum)).Pairwise fun a b => a.1 ≤ b.1 := by
    have hindices : ((streamed.zipIdx 0).map Prod.snd).Pairwise (· < ·) := by
      rw [List.zipIdx_map_snd]
      exact List.pairwise_lt_range'
    rw [List.pairwise_map] at hindices ⊢
    exact hindices.imp fun hlt => hlt.le
  rw [Blocks.into_content_of_ordered serde hordered, List.filterMap_map]
  conv_rhs => rw [← List.zipIdx_map_fst 0 streamed, List.filterMap_map]
  rfl

end Aggregation

/-- A part of an answer is streamed as a block. Nothing is empty in it, and the fragments of a
    call are the text of its input. -/
inductive Streams (serde : Serde) : ContentPart → StreamedBlock → Prop
  | text (fragments : List String) (h : String.join fragments ≠ "") :
    Streams serde (.text (String.join fragments)) (.text fragments)
  | refusal (fragments : List String) (h : String.join fragments ≠ "") :
    Streams serde (.refusal (String.join fragments)) (.refusal fragments)
  | thinking (fragments : List String) (signature : Option String) (h : String.join fragments ≠ "" ∨ signature ≠ none) :
    Streams serde (.thinking (String.join fragments) signature) (.thinking fragments signature)
  | toolUse (id name : String) (fragments : List String) (input : Value) (h : serde.from_str (String.join fragments) = some input) :
    Streams serde (.toolUse id name input none) (.toolUse id name fragments)

section Answers

variable {serde : Serde}

theorem Streams.render (hblank : serde.RejectsBlank) {part : ContentPart} {block : StreamedBlock} (h : Streams serde part block) :
    block.accum.render serde = some part := by
  cases h with
  | text fragments h => exact if_neg h
  | refusal fragments h => exact if_neg h
  | thinking fragments signature h =>
    refine if_neg ?_
    rintro ⟨hempty, hunsigned⟩
    exact h.elim (fun hne => hne hempty) fun hne => hne hunsigned
  | toolUse id name fragments input h =>
    have hvisible : trim (String.join fragments) ≠ "" := by
      intro hempty
      rw [hblank _ hempty] at h
      cases h
    rw [StreamedBlock.accum, BlockAccum.render, if_neg hvisible, h]
    rfl

theorem Streams.kind {part : ContentPart} {block : StreamedBlock} (h : Streams serde part block) :
    part.is_tool_use = decide (block.kind = .toolUse) ∧ part.is_refusal = decide (block.kind = .refusal) := by
  cases h <;> exact ⟨rfl, rfl⟩

/-- The content of some streamed parts is put together again, and they tell whether there are calls and refusals. -/
theorem streams_all (hblank : serde.RejectsBlank) {content : List ContentPart} {blocks : List StreamedBlock}
    (h : List.Forall₂ (Streams serde) content blocks) :
    (blocks.filterMap fun block => block.accum.render serde) = content ∧
      content.any ContentPart.is_tool_use = blocks.any (·.kind = .toolUse) ∧
      content.any ContentPart.is_refusal = blocks.any (·.kind = .refusal) := by
  induction h with
  | nil => exact ⟨rfl, rfl, rfl⟩
  | cons hpart _ ih =>
    obtain ⟨hcontent, hcalls, hrefusals⟩ := ih
    obtain ⟨hcall, hrefusal⟩ := hpart.kind
    refine ⟨?_, ?_, ?_⟩
    · simp only [List.filterMap_cons, hpart.render hblank, hcontent]
    · rw [List.any_cons, List.any_cons, hcalls, hcall]
    · rw [List.any_cons, List.any_cons, hrefusals, hrefusal]

/-- What an aggregator makes of an answer that is streamed and read again. -/
def streamed_back (serde : Serde) (uuid : String) (now : Int) (id model : String) (blocks : List StreamedBlock) (usage : Usage)
    (reason : StopReason) (stop_sequence : Option String) : StreamAggregator :=
  ({} : StreamAggregator).absorb_all <| (stream_decoder serde).outputs <| (stream_encoder serde uuid now).outputs <|
    answer_events id model blocks usage reason stop_sequence

/-- An answer that is streamed and read again says the reason that it can tell. -/
theorem streamed_reason (hserde : serde.Lawful) (uuid : String) (now : Int) (id model : String) {blocks : List StreamedBlock}
    (hroom : blocks.length ≤ 4294967296) (usage : Usage) (reason : StopReason) (stop_sequence : Option String) :
    (streamed_back serde uuid now id model blocks usage reason stop_sequence).stop_reason =
      some (told_reason reason (blocks.any (·.kind = .toolUse)) (blocks.any (·.kind = .refusal))) := by
  obtain ⟨hreasons, -⟩ := block_events_quiet blocks 0
  rw [streamed_back, StreamAggregator.absorb_all_stop_reason, ResponsesStreamDecoder.outputs_read hserde _ _ _ _ _ _ _ _ hroom,
    List.filterMap_append, List.filterMap_cons_none rfl, hreasons]
  rfl

/-- An answer that is streamed and read again says the same: all content in its order, all counts, and
    the reason that its status or its items can tell. -/
theorem streamed_answer_read_back (hserde : serde.Lawful) (hblank : serde.RejectsBlank) (uuid : String) (now : Int) (id model : String)
    {content : List ContentPart} {blocks : List StreamedBlock} (hstreams : List.Forall₂ (Streams serde) content blocks)
    (hroom : blocks.length ≤ 4294967296) (usage : Usage) (reason : StopReason) (stop_sequence : Option String) :
    let said := streamed_back serde uuid now id model blocks usage reason stop_sequence
    said.into_content serde = content ∧ said.usage = usage ∧
      said.stop_reason = some (told_reason reason (content.any ContentPart.is_tool_use) (content.any ContentPart.is_refusal)) := by
  obtain ⟨hcontent, hcalls, hrefusals⟩ := streams_all hblank hstreams
  obtain ⟨-, hsnapshots⟩ := block_events_quiet blocks 0
  have hread := ResponsesStreamDecoder.outputs_read hserde uuid now id model blocks usage reason stop_sequence hroom
  refine ⟨?_, ?_, ?_⟩
  · have hbelow : Blocks.Below [] 0 := by
      intro entry hentry
      cases hentry
    rw [StreamAggregator.into_content, streamed_back, StreamAggregator.absorb_all_blocks, hread, List.foldl_append, List.foldl_cons]
    refine Eq.trans (congrArg (Blocks.into_content serde) (absorb_blocks hbelow blocks)) ?_
    exact (into_content_of_numbered serde blocks).trans hcontent
  · rw [streamed_back, StreamAggregator.absorb_all_usage, hread, List.filterMap_append, List.filterMap_cons_none rfl, hsnapshots]
    exact Usage.default_merge_max usage
  · rw [hcalls, hrefusals]
    exact streamed_reason hserde uuid now id model hroom usage reason stop_sequence

end Answers

section Samples

/-- A text, a thought and a call. -/
def told_content : List ContentPart := [.thinking "hm" (some "s"), .text "hello", .toolUse "c" "f" (.object []) none]

def told_blocks : List StreamedBlock := [.thinking ["h", "m"] (some "s"), .text ["hel", "lo"], .toolUse "c" "f" ["\x7b", "\x7d"]]

theorem told_streams : List.Forall₂ (Streams Serde.compact) told_content told_blocks := by
  refine .cons (.thinking ["h", "m"] (some "s") (.inl ?_)) (.cons (.text ["hel", "lo"] ?_) (.cons (.toolUse "c" "f" ["\x7b", "\x7d"] _ ?_) .nil))
  · decide
  · decide
  · exact Serde.compact_lawful.from_str_to_string (.object []) (by simp)

theorem told_read_back :
    let said := streamed_back Serde.compact "0" 0 "r" "m" told_blocks { input_tokens := 3, output_tokens := 5 } .toolUse none
    said.into_content Serde.compact = told_content ∧ said.usage = { input_tokens := 3, output_tokens := 5 } ∧
      said.stop_reason = some (told_reason .toolUse (told_content.any ContentPart.is_tool_use) (told_content.any ContentPart.is_refusal)) :=
  streamed_answer_read_back Serde.compact_lawful Serde.compact_rejectsBlank "0" 0 "r" "m" told_streams (by decide) _ _ _

/-- A stop sequence is not told: the answer is read again as one that stopped by itself. -/
theorem stop_sequence_not_read_back : List.Forall₂ (Streams Serde.compact) [.text (String.join ["a"])] [.text ["a"]] ∧
    (streamed_back Serde.compact "0" 0 "r" "m" [.text ["a"]] {} .stopSequence none).stop_reason ≠ some .stopSequence := by
  refine ⟨.cons (.text ["a"] (by decide)) .nil, ?_⟩
  rw [streamed_reason Serde.compact_lawful "0" 0 "r" "m" (by decide)]
  decide

end Samples

end refract.codec.responses
