import Refract.Codec.Gemini.Blocks
import Refract.Json.RoundTrip
import Refract.Machine.Ending

open refract.core refract.json refract.ir refract.stream refract.machine

namespace refract.codec.gemini

open GeminiStreamDecoder ContentPart

section Frames

/-- The parts of a response or of a frame of it. -/
def parts_of (obj : Map) : List Value := candidate_parts (first_candidate obj)

def usage_of (obj : Map) : Option Value := field obj "usageMetadata" "usage_metadata"

/-- Frames over which a response is split. The last one has the finish reason
    and the counts. -/
structure Splits (response : Map) (early : List Map) (last : Map) : Prop where
  parts : (early ++ [last]).flatMap parts_of = parts_of response
  no_finish : ∀ doc ∈ early, finish_reason (first_candidate doc) = none
  no_usage : ∀ doc ∈ early, usage_of doc = none
  finish : finish_reason (first_candidate last) = finish_reason (first_candidate response)
  usage : usage_of last = usage_of response

/-- The frame is this document, which is no error. -/
def Carries (serde : Serde) (frame : SseFrame) (doc : Map) : Prop :=
  serde.from_str (trim frame.data) = some (.object doc) ∧ parse_error_body serde (.object doc) = none

variable {serde : Serde} (uuid : String)

namespace GeminiStreamDecoder

theorem decode_of_carries (hserde : serde.Lawful) (self : GeminiStreamDecoder) {frame : SseFrame} {doc : Map}
    (h : Carries serde frame doc) : self.decode serde uuid frame = self.decode_object serde uuid doc := by
  obtain ⟨hread, herror⟩ := h
  have hempty : trim frame.data ≠ "" := fun heq => by
    rw [heq, hserde.from_str_empty] at hread
    cases hread
  have hdone : trim frame.data ≠ "[DONE]" := fun heq => by
    rw [heq, hserde.from_str_done] at hread
    cases hread
  unfold decode
  simp only [hempty, hdone, or_self, if_false, hread, herror, Value.as_object_object]

/-- The events of parts are events of blocks, and parts do not stop a stream. -/
theorem parts_in_blocks (serde : Serde) (self : GeminiStreamDecoder) (values : List Value) :
    ((parts serde).advance self values).stopped = self.stopped ∧
      ∀ e ∈ (parts serde).emit self values, e.index.isSome = true := by
  have hswitch : ∀ (decoder : GeminiStreamDecoder) (kind : PartKind),
      (decoder.switch kind).1.stopped = decoder.stopped ∧ ∀ e ∈ (decoder.switch kind).2, e.index.isSome = true := by
    intro decoder kind
    unfold switch
    split
    · split <;> simp [StreamEvent.index]
    · simp [StreamEvent.index]
  apply Transducer.emit_forall (T := parts serde) (P := fun s => s.stopped = self.stopped) (Q := fun _ => True)
  · intro s value hs _
    change (s.step_part serde value).1.stopped = self.stopped ∧ ∀ e ∈ (s.step_part serde value).2, e.index.isSome = true
    unfold step_part
    split
    · rename_i piece hpiece
      cases piece with
      | text t =>
        obtain ⟨hstopped, hmoved⟩ := hswitch s .text
        refine ⟨hstopped.trans hs, ?_⟩
        simpa [GeminiStreamDecoder.decode_content, or_imp, forall_and, StreamEvent.index] using hmoved
      | thinking t signature =>
        obtain ⟨hstopped, hmoved⟩ := hswitch s .thinking
        refine ⟨hstopped.trans hs, ?_⟩
        cases signature <;> simpa [GeminiStreamDecoder.decode_content, or_imp, forall_and, StreamEvent.index] using hmoved
      | toolUse id name input signature =>
        obtain ⟨hstopped, hmoved⟩ := hswitch { s with tool_index := min (s.tool_index + 1) 18446744073709551615 } .toolUse
        refine ⟨hstopped.trans hs, ?_⟩
        simpa [GeminiStreamDecoder.decode_content, or_imp, forall_and, StreamEvent.index] using hmoved
      | _ => exact ⟨hs, by simp [GeminiStreamDecoder.decode_content]⟩
    · exact ⟨hs, by simp⟩
  · rfl
  · simp

/-- What is said of the stream when it starts. -/
def opening (self : GeminiStreamDecoder) (doc : Map) : List StreamEvent :=
  if self.started then []
  else [.start (response_id uuid doc) ((non_empty_str (field doc "modelVersion" "model_version")).getD "") none]

end GeminiStreamDecoder

/-- After some events of a stream the blocks hold the content of the parts so
    far. -/
structure Continues (serde : Serde) (values : List Value) (decoder : GeminiStreamDecoder) (events : List StreamEvent) : Prop where
  told : Told serde (coalesce ((decode_parts serde values).filter is_delivered)) (events.foldl Blocks.absorb []) decoder
  index : decoder.tool_index = values.countP is_tool
  stopped : decoder.stopped = false
  reasons : events.filterMap StreamEvent.stop_reason = []
  snapshots : events.filterMap StreamEvent.snapshot = []

theorem Continues.init : Continues serde [] {} [] where
  told := ⟨rfl, rfl, by simp [decode_parts, decode_parts_from, coalesce], by simp [decode_parts, decode_parts_from, coalesce],
    by simp⟩
  index := rfl
  stopped := rfl
  reasons := rfl
  snapshots := rfl

theorem length_coalesce_le (content : List ContentPart) : (coalesce content).length ≤ content.length := by
  induction content using List.reverseRecOn with
  | nil => rfl
  | append_singleton content part ih =>
    have hlength := length_add_le (coalesce content) part
    rw [coalesce, List.foldl_append, List.foldl_cons, List.foldl_nil, List.length_append, List.length_singleton]
    exact hlength.trans (Nat.add_le_add_right ih 1)

theorem length_decode_parts_from_le (serde : Serde) (n : Nat) (values : List Value) :
    (decode_parts_from serde n values).length ≤ values.length := by
  induction values generalizing n with
  | nil => rfl
  | cons part values ih =>
    rw [decode_parts_from, List.length_append, List.length_cons]
    have hpiece : (decode_part serde part n).toList.length ≤ 1 := by cases decode_part serde part n <;> simp
    have hrest := ih (if is_tool part then n + 1 else n)
    omega

/-- The parts of a frame continue the content. -/
theorem Continues.add_parts {values more : List Value} {self : GeminiStreamDecoder} {events : List StreamEvent}
    (h : Continues serde values self events) (hcounts : ∀ part ∈ more, CountsCall serde part)
    (hroom : values.length + more.length < 4294967296) (doc : Map) :
    Continues serde (values ++ more) ((parts serde).advance { self with started := true } more)
      (events ++ (self.opening uuid doc ++ (parts serde).emit { self with started := true } more)) := by
  have hdelivered : (coalesce ((decode_parts serde values).filter is_delivered)).length ≤ values.length :=
    (length_coalesce_le _).trans ((List.length_filter_le _ _).trans (length_decode_parts_from_le serde 0 values))
  have hcount : values.countP is_tool ≤ values.length := List.countP_le_length
  have htold : Told serde (coalesce ((decode_parts serde values).filter is_delivered)) (events.foldl Blocks.absorb [])
      { self with started := true } :=
    ⟨h.told.blocks_eq, h.told.saw_eq, h.told.delivered, h.told.closed, h.told.opened⟩
  have hindex : ({ self with started := true } : GeminiStreamDecoder).tool_index = values.countP is_tool := h.index
  obtain ⟨htold, htools⟩ := told_parts serde hcounts htold (by omega) (by omega)
  obtain ⟨hstopped, hblocks⟩ := parts_in_blocks serde { self with started := true } more
  have hopening : ∀ blocks : Blocks, (self.opening uuid doc).foldl Blocks.absorb blocks = blocks := by
    intro blocks
    unfold opening
    split <;> rfl
  have hquiet : (self.opening uuid doc).filterMap StreamEvent.stop_reason = [] ∧
      (self.opening uuid doc).filterMap StreamEvent.snapshot = [] := by
    unfold opening
    split <;> exact ⟨rfl, rfl⟩
  refine ⟨?_, ?_, hstopped.trans h.stopped, ?_, ?_⟩
  · rw [List.foldl_append, List.foldl_append, hopening, decode_parts, decode_parts_from_append, List.filter_append, coalesce,
      List.foldl_append, Nat.zero_add, ← h.index]
    exact htold
  · rw [htools, hindex, List.countP_append]
  · rw [List.filterMap_append, List.filterMap_append, h.reasons, hquiet.1, List.nil_append, List.nil_append,
      List.filterMap_eq_nil_iff]
    exact fun e he => (StreamEvent.of_index (hblocks e he)).1
  · rw [List.filterMap_append, List.filterMap_append, h.snapshots, hquiet.2, List.nil_append, List.nil_append,
      List.filterMap_eq_nil_iff]
    exact fun e he => (StreamEvent.of_index (hblocks e he)).2

/-- Early frames continue the content. -/
theorem Continues.frames (hserde : serde.Lawful) {frames : List SseFrame} {docs : List Map}
    (hcarries : List.Forall₂ (Carries serde) frames docs) (hfinish : ∀ doc ∈ docs, finish_reason (first_candidate doc) = none)
    (husage : ∀ doc ∈ docs, usage_of doc = none) {values : List Value} {self : GeminiStreamDecoder}
    {events : List StreamEvent} (h : Continues serde values self events)
    (hcounts : ∀ part ∈ docs.flatMap parts_of, CountsCall serde part)
    (hroom : values.length + (docs.flatMap parts_of).length < 4294967296) :
    Continues serde (values ++ docs.flatMap parts_of) ((stream_decoder serde uuid).advance self frames)
      (events ++ (stream_decoder serde uuid).emit self frames) := by
  induction hcarries generalizing values self events with
  | nil => simpa using h
  | @cons frame doc frames docs hcarries hrest ih =>
    rw [List.flatMap_cons] at hcounts hroom ⊢
    rw [List.length_append] at hroom
    have hnext := h.add_parts uuid (fun part hpart => hcounts part (List.mem_append_left _ hpart)) (by omega) doc
    have hobject : self.decode_object serde uuid doc = ((parts serde).advance { self with started := true } (parts_of doc),
        self.opening uuid doc ++ (parts serde).emit { self with started := true } (parts_of doc)) := by
      have hnone := hfinish doc List.mem_cons_self
      have hquiet := husage doc List.mem_cons_self
      unfold finish_reason at hnone
      unfold usage_of at hquiet
      simp [decode_object, hnone, hquiet, opening, parts_of]
    have hstep : (stream_decoder serde uuid).step self frame = self.decode_object serde uuid doc := by
      rw [stream_decoder_step, decode_of_carries uuid hserde self hcarries]
    rw [Transducer.emit_cons, Transducer.advance_cons, hstep, hobject, ← List.append_assoc, ← List.append_assoc]
    apply ih (fun doc hdoc => hfinish doc (List.mem_cons_of_mem _ hdoc)) (fun doc hdoc => husage doc (List.mem_cons_of_mem _ hdoc))
      hnext (fun part hpart => hcounts part (List.mem_append_right _ hpart))
    rw [List.length_append]
    omega

/-- Joining pieces neither makes nor loses a call. -/
theorem any_coalesce (content : List ContentPart) :
    (coalesce content).any ContentPart.is_tool_use = content.any ContentPart.is_tool_use := by
  induction content using List.reverseRecOn with
  | nil => rfl
  | append_singleton content part ih =>
    have hadd : ∀ before : List ContentPart, (add before part).any ContentPart.is_tool_use =
        (before.any ContentPart.is_tool_use || part.is_tool_use) := by
      intro before
      cases hlast : before.getLast? with
      | none => simp [add, hlast]
      | some last =>
        obtain ⟨front, rfl⟩ := List.getLast?_eq_some_iff.mp hlast
        cases last <;> cases part <;> simp [add, ContentPart.join, is_tool_use]
    rw [coalesce, List.foldl_append, List.foldl_cons, List.foldl_nil, hadd, ← coalesce, ih, List.any_append]
    simp

theorem any_delivered (content : List ContentPart) :
    (content.filter is_delivered).any ContentPart.is_tool_use = content.any ContentPart.is_tool_use := by
  rw [List.any_filter]
  refine List.any_congr rfl fun part => ?_
  cases part <;> rfl

/-- The pieces of joined content can be read back if all pieces can. -/
theorem readable_coalesce {content : List ContentPart} (h : ∀ part ∈ content, Readable part) :
    ∀ part ∈ coalesce content, Readable part := by
  induction content using List.reverseRecOn with
  | nil => simp [coalesce]
  | append_singleton content part ih =>
    have hpart := h part (by simp)
    have hbefore := ih fun p hp => h p (List.mem_append_left _ hp)
    rw [coalesce, List.foldl_append, List.foldl_cons, List.foldl_nil, ← coalesce]
    intro p hp
    unfold add at hp
    split at hp
    · rename_i joined hjoined
      obtain ⟨last, -, hjoin⟩ := Option.bind_eq_some_iff.mp hjoined
      rcases List.mem_append.mp hp with hp | hp
      · exact hbefore p (List.dropLast_subset _ hp)
      · obtain rfl := List.mem_singleton.mp hp
        cases last <;> cases part <;> cases hjoin <;> trivial
    · rcases List.mem_append.mp hp with hp | hp
      · exact hbefore p hp
      · exact List.mem_singleton.mp hp ▸ hpart

/-- The inputs of calls are parts of the document. -/
theorem readable_decode_part {part : Value} (hpart : part.WellFormed) {tool_index : Nat} {piece : ContentPart}
    (hpiece : decode_part serde part tool_index = some piece) : Readable piece := by
  cases part with
  | object obj =>
    have hmedia : ∀ source mime, Readable (media_part source mime) := by
      intro source mime
      unfold media_part
      dsimp only
      split
      · trivial
      · split <;> trivial
    simp only [decode_part] at hpiece
    repeat' split at hpiece
    all_goals obtain rfl := Option.some.inj hpiece
    any_goals trivial
    any_goals exact hmedia _ _
    rename_i call hcall
    obtain ⟨value, hfield, hobject⟩ := Option.bind_eq_some_iff.mp hcall
    have hvalue : value.WellFormed := by
      unfold field at hfield
      obtain hget | ⟨-, hget⟩ := Option.or_eq_some_iff.mp hfield
      · exact Value.wellFormed_of_get hpart hget
      · exact Value.wellFormed_of_get hpart hget
    cases value with
    | object inner =>
      obtain rfl := Option.some.inj hobject
      change ((Map.get inner "args").getD (.object [])).WellFormed
      cases hargs : Map.get inner "args" with
      | none => simp
      | some args => exact Value.wellFormed_of_get hvalue hargs
    | _ => cases hobject
  | _ => cases hpiece

theorem readable_decode_parts {values : List Value} (hvalues : ∀ part ∈ values, part.WellFormed) :
    ∀ n, ∀ piece ∈ decode_parts_from serde n values, Readable piece := by
  induction values with
  | nil => simp [decode_parts_from]
  | cons part values ih =>
    obtain ⟨hpart, hrest⟩ := List.forall_mem_cons.mp hvalues
    intro n piece hpiece
    rw [decode_parts_from] at hpiece
    rcases List.mem_append.mp hpiece with hpiece | hpiece
    · exact readable_decode_part hpart (Option.mem_toList.mp hpiece)
    · exact ih hrest _ piece hpiece

/-- The parts of a document are documents. -/
theorem parts_of_wellFormed {doc : Map} (hdoc : (Value.object doc).WellFormed) : ∀ part ∈ parts_of doc, part.WellFormed := by
  have hobject : ∀ {value : Value} {map : Map}, value.WellFormed → value.as_object = some map → (Value.object map).WellFormed := by
    intro value map hvalue hobject
    cases value <;> cases hobject
    exact hvalue
  have harray : ∀ {value : Value} {items : List Value}, value.WellFormed → value.as_array = some items →
      ∀ item ∈ items, item.WellFormed := by
    intro value items hvalue harray
    cases value <;> cases harray
    exact (Value.wellFormed_array items).mp hvalue
  intro part hpart
  unfold parts_of candidate_parts at hpart
  cases hlist : (((((first_candidate doc).bind (Map.get · "content")).bind Value.as_object).bind (Map.get · "parts")).bind
      Value.as_array) with
  | none =>
    rw [hlist] at hpart
    cases hpart
  | some items =>
    rw [hlist] at hpart
    obtain ⟨list, hlist, hitems⟩ := Option.bind_eq_some_iff.mp hlist
    obtain ⟨content, hcontent, hparts⟩ := Option.bind_eq_some_iff.mp hlist
    obtain ⟨value, hvalue, hcontent⟩ := Option.bind_eq_some_iff.mp hcontent
    obtain ⟨candidate, hcandidate, hvalue⟩ := Option.bind_eq_some_iff.mp hvalue
    unfold first_candidate at hcandidate
    obtain ⟨first, hfirst, hcandidate⟩ := Option.bind_eq_some_iff.mp hcandidate
    obtain ⟨candidates, hcandidates, hhead⟩ := Option.bind_eq_some_iff.mp hfirst
    obtain ⟨all, hall, hcandidates⟩ := Option.bind_eq_some_iff.mp hcandidates
    have hfirst := harray (Value.wellFormed_of_get hdoc hall) hcandidates first (List.mem_of_head? hhead)
    have hvalue := Value.wellFormed_of_get (hobject hfirst hcandidate) hvalue
    have hlist := Value.wellFormed_of_get (hobject hvalue hcontent) hparts
    exact harray hlist hitems part hpart

/-- What follows the parts of the last frame. -/
structure Closes (finish : Option String) (saw_tool_call : Bool) (counts : Option Usage) (events : List StreamEvent) : Prop where
  blocks : ∀ blocks : Blocks, events.foldl Blocks.absorb blocks = blocks
  reasons : events.filterMap StreamEvent.stop_reason = (finish.map fun raw =>
    let mapped := stop_reason_from_gemini raw
    if mapped = .stop ∧ saw_tool_call then .toolUse else mapped).toList
  snapshots : events.filterMap StreamEvent.snapshot = counts.toList

/-- The end of the last frame and of the stream. -/
theorem closes_last (self : GeminiStreamDecoder) (hstopped : self.stopped = false) (doc : Map) :
    ∃ events next, Closes (finish_reason (first_candidate doc)) ((parts serde).advance { self with started := true }
        (parts_of doc)).saw_tool_call ((usage_of doc).map parse_usage) (events ++ next.finish.2) ∧
      self.decode_object serde uuid doc =
        (next, self.opening uuid doc ++ (parts serde).emit { self with started := true } (parts_of doc) ++ events) := by
  have hclosing : ∀ decoder : GeminiStreamDecoder,
      (∀ blocks : Blocks, decoder.finish.2.foldl Blocks.absorb blocks = blocks) ∧
      decoder.finish.2.filterMap StreamEvent.stop_reason = [] ∧ decoder.finish.2.filterMap StreamEvent.snapshot = [] := by
    intro decoder
    unfold GeminiStreamDecoder.finish
    cases decoder.opened <;> cases decoder.done <;> exact ⟨fun _ => rfl, rfl, rfl⟩
  have hrunning : ((parts serde).advance { self with started := true } (parts_of doc)).stopped = false :=
    (parts_in_blocks serde _ _).1.trans hstopped
  let after := (parts serde).advance { self with started := true } (parts_of doc)
  let counts := ((usage_of doc).map (StreamEvent.usage <| parse_usage ·)).toList
  have hcounts : (∀ blocks : Blocks, counts.foldl Blocks.absorb blocks = blocks) ∧
      counts.filterMap StreamEvent.stop_reason = [] ∧
      counts.filterMap StreamEvent.snapshot = ((usage_of doc).map parse_usage).toList := by
    cases hu : usage_of doc <;> simp [counts, hu, Blocks.absorb, StreamEvent.stop_reason, StreamEvent.snapshot]
  cases hfinish : finish_reason (first_candidate doc) with
  | none =>
    obtain ⟨hblocks, hreasons, hsnapshots⟩ := hclosing after
    refine ⟨counts, after, ⟨?_, ?_, ?_⟩, ?_⟩
    · intro blocks
      rw [List.foldl_append, hcounts.1, hblocks]
    · rw [List.filterMap_append, hcounts.2.1, hreasons]
      rfl
    · rw [List.filterMap_append, hcounts.2.2, hsnapshots, List.append_nil]
    · unfold finish_reason at hfinish
      simp [decode_object, hfinish, opening, parts_of, usage_of, after, counts]
  | some raw =>
    obtain ⟨hblocks, hreasons, hsnapshots⟩ := hclosing (after.decode_finish_reason raw).1
    refine ⟨counts ++ (after.decode_finish_reason raw).2, (after.decode_finish_reason raw).1, ⟨?_, ?_, ?_⟩, ?_⟩
    · intro blocks
      rw [List.foldl_append, List.foldl_append, hcounts.1, hblocks]
      simp only [decode_finish_reason, after, hrunning]
      cases ((parts serde).advance { self with started := true } (parts_of doc)).opened <;> rfl
    · rw [List.filterMap_append, List.filterMap_append, hcounts.2.1, hreasons, List.nil_append, List.append_nil]
      simp only [decode_finish_reason, after, hrunning]
      cases ((parts serde).advance { self with started := true } (parts_of doc)).opened <;> rfl
    · rw [List.filterMap_append, List.filterMap_append, hcounts.2.2, hsnapshots, List.append_nil]
      simp only [decode_finish_reason, after, hrunning]
      cases ((parts serde).advance { self with started := true } (parts_of doc)).opened <;>
        simp [StreamEvent.snapshot, List.filterMap_cons]
    · unfold finish_reason at hfinish
      simp [decode_object, hfinish, opening, parts_of, usage_of, after, counts]

theorem carried_wellFormed (hserde : serde.Lawful) {frames : List SseFrame} {docs : List Map}
    (hcarries : List.Forall₂ (Carries serde) frames docs) : ∀ doc ∈ docs, (Value.object doc).WellFormed := by
  induction hcarries with
  | nil => simp
  | cons hcarry _ ih => exact List.forall_mem_cons.mpr ⟨hserde.from_str_wellFormed _ _ hcarry.1, ih⟩

/-- A response that is split over the frames of a stream is put together again:
    the pieces a stream delivers, joined and without those that say nothing, the
    reason it stopped and its counts. -/
theorem stream_agrees (hserde : serde.Lawful) (now : Int) {response last : Map} {early : List Map}
    {frames : List SseFrame} {final : SseFrame} (hsplits : Splits response early last)
    (hcarries : List.Forall₂ (Carries serde) frames early) (hfinal : Carries serde final last)
    (hresponse : parse_error_body serde (.object response) = none)
    (hcounts : ∀ part ∈ parts_of response, CountsCall serde part) (hroom : (parts_of response).length < 4294967296)
    (hblocked : is_blocked response = true → (finish_reason (first_candidate response)).isSome = true) :
    ∃ ir, decode_response serde uuid now (.object response) = .ok ir ∧
      let said := ({} : StreamAggregator).absorb_all ((stream_decoder serde uuid).outputs (frames ++ [final]))
      said.into_content serde = (coalesce (ir.content.filter is_delivered)).filter is_present ∧
      said.stop_reason = ir.stop_reason ∧ said.usage = ir.usage := by
  have hparts : early.flatMap parts_of ++ parts_of last = parts_of response := by
    rw [← hsplits.parts, List.flatMap_append]
    simp
  have hlength : (early.flatMap parts_of).length + (parts_of last).length < 4294967296 := by
    rw [← List.length_append, hparts]
    exact hroom
  -- The early frames, then the parts of the last one.
  have hearly := Continues.init.frames uuid hserde hcarries hsplits.no_finish hsplits.no_usage
    (fun part hpart => hcounts part (hparts ▸ List.mem_append_left _ hpart)) (by simpa using Nat.lt_of_add_right_lt hlength)
  rw [List.nil_append, List.nil_append] at hearly
  have hall := hearly.add_parts uuid (fun part hpart => hcounts part (hparts ▸ List.mem_append_right _ hpart)) hlength last
  obtain ⟨events, next, hcloses, hobject⟩ := @closes_last serde uuid ((stream_decoder serde uuid).advance {} frames)
    hearly.stopped last
  rw [hparts] at hall
  have houtputs : (stream_decoder serde uuid).outputs (frames ++ [final]) =
      ((stream_decoder serde uuid).emit {} frames ++ (((stream_decoder serde uuid).advance {} frames).opening uuid last ++
        (parts serde).emit { (stream_decoder serde uuid).advance {} frames with started := true } (parts_of last))) ++
      (events ++ next.finish.2) := by
    have hstep := (decode_of_carries uuid hserde ((stream_decoder serde uuid).advance {} frames) hfinal).trans hobject
    rw [← stream_decoder_step] at hstep
    rw [Transducer.outputs_append, stream_decoder_init, Transducer.emit_cons, Transducer.advance_cons, hstep]
    simp only [Transducer.emit_nil, Transducer.advance_nil, stream_decoder_finish, List.append_nil, List.append_assoc]
  have hblocks := hall.told.blocks_eq
  have hsaw := hall.told.saw_eq
  rw [any_coalesce, any_delivered] at hsaw
  -- Every part is a part of a frame, which is a document.
  have hwellFormed : ∀ part ∈ parts_of response, part.WellFormed := by
    intro part hpart
    rw [← hparts] at hpart
    rcases List.mem_append.mp hpart with hpart | hpart
    · obtain ⟨doc, hmem, hpart⟩ := List.mem_flatMap.mp hpart
      exact parts_of_wellFormed (carried_wellFormed hserde hcarries doc hmem) part hpart
    · exact parts_of_wellFormed (hserde.from_str_wellFormed _ _ hfinal.1) part hpart
  have hreadable : ∀ part ∈ coalesce ((decode_parts serde (parts_of response)).filter is_delivered), Readable part :=
    readable_coalesce fun part hpart => readable_decode_parts hwellFormed 0 part (List.mem_of_mem_filter hpart)
  refine ⟨_, by simp only [decode_response, hresponse]; rfl, ?_⟩
  dsimp only
  refine ⟨?_, ?_, ?_⟩
  · rw [StreamAggregator.into_content, StreamAggregator.absorb_all_blocks, houtputs, List.foldl_append, hcloses.blocks, hblocks]
    exact laid_into_content hserde hall.told.delivered hreadable
  · rw [StreamAggregator.absorb_all_stop_reason, houtputs, List.filterMap_append, hall.reasons, hcloses.reasons,
      List.nil_append, hsaw, hsplits.finish]
    unfold stop_reason
    cases hfinish : finish_reason (first_candidate response) with
    | none =>
      have hnot : is_blocked response = false := by
        by_contra h
        have hsome := hblocked (Bool.eq_true_of_not_eq_false h)
        rw [hfinish] at hsome
        cases hsome
      simp [hnot]
    | some raw => rfl
  · rw [StreamAggregator.absorb_all_usage, houtputs, List.filterMap_append, hall.snapshots, hcloses.snapshots,
      List.nil_append, hsplits.usage]
    unfold usage_of
    cases (field response "usageMetadata" "usage_metadata") <;> simp

end Frames

/-- A document as one frame. -/
def frame_of (doc : Map) : SseFrame := .ofData (Serde.compact.to_string (.object doc))

theorem carries_frame_of {doc : Map} (hdoc : (Value.object doc).WellFormed)
    (herror : parse_error_body Serde.compact (.object doc) = none) : Carries Serde.compact (frame_of doc) doc := by
  have hread : Serde.compact.from_str (trim (Serde.compact.to_string (.object doc))) = some (.object doc) := by
    rw [Serde.compact_lawful.trim_to_string _ hdoc]
    exact Serde.compact_lawful.from_str_to_string _ hdoc
  exact ⟨hread, herror⟩

/-- A candidate with some parts, and the reason it stopped. -/
def answer (values : List Value) (finish : Option String) : Map :=
  [("candidates", .array [.object (("content", .object [("parts", .array values)]) ::
    (finish.map fun reason => ("finishReason", Value.string reason)).toList)])]

/-- A text in two frames is put together. -/
theorem text_agrees :
    ∃ ir, decode_response Serde.compact "" 0
        (.object (answer [.object [("text", .string "hel")], .object [("text", .string "lo")]] (some "STOP"))) = .ok ir ∧
      let said := ({} : StreamAggregator).absorb_all ((stream_decoder Serde.compact "").outputs
        ([frame_of (answer [.object [("text", .string "hel")]] none)] ++
          [frame_of (answer [.object [("text", .string "lo")]] (some "STOP"))]))
      said.into_content Serde.compact = (coalesce (ir.content.filter is_delivered)).filter is_present ∧
      said.stop_reason = ir.stop_reason ∧ said.usage = ir.usage := by
  have hsplits : Splits (answer [.object [("text", .string "hel")], .object [("text", .string "lo")]] (some "STOP"))
      [answer [.object [("text", .string "hel")]] none] (answer [.object [("text", .string "lo")]] (some "STOP")) :=
    ⟨rfl, by simp; rfl, by simp; rfl, rfl, rfl⟩
  exact stream_agrees "" Serde.compact_lawful 0 hsplits
    (.cons (carries_frame_of (by simp [answer]) rfl) .nil) (carries_frame_of (by simp [answer]) rfl) rfl
    (by
      intro part hpart htool
      have hparts : part ∈ [Value.object [("text", .string "hel")], .object [("text", .string "lo")]] := hpart
      simp only [List.mem_cons, List.not_mem_nil, or_false] at hparts
      rcases hparts with rfl | rfl <;> cases htool)
    (Nat.lt_of_sub_pos (Nat.succ_pos 4294967293)) (by decide)

/-- A stream says what the whole response says. -/
def StreamAgrees (serde : Serde) (uuid : String) (now : Int) (response : Map) (frames : List SseFrame) : Prop :=
  ∃ ir, decode_response serde uuid now (.object response) = .ok ir ∧
    let said := ({} : StreamAggregator).absorb_all ((stream_decoder serde uuid).outputs frames)
    said.into_content serde = coalesce ir.content ∧ said.stop_reason = ir.stop_reason ∧ said.usage = ir.usage

/-- A response in which the model runs code of its own. -/
def code_run : Map := answer [.object [("executableCode", .object [("code", .string "1 + 1")])]] (some "STOP")

/-- A stream leaves out a part that the whole response has. -/
theorem code_run_not_agrees : Splits code_run [] code_run ∧ Carries Serde.compact (frame_of code_run) code_run ∧
    ¬ StreamAgrees Serde.compact "" 0 code_run [frame_of code_run] := by
  have hcarries : Carries Serde.compact (frame_of code_run) code_run := carries_frame_of (by simp [code_run, answer]) rfl
  refine ⟨⟨rfl, by simp, by simp, rfl, rfl⟩, hcarries, ?_⟩
  rintro ⟨ir, hir, hcontent, -⟩
  have houtputs : (stream_decoder Serde.compact "").outputs [frame_of code_run] =
      [.start "gemini-" "" none, .stop .stop none, .done] := by
    have hobject : ({} : GeminiStreamDecoder).decode_object Serde.compact "" code_run =
        ({ started := true, stopped := true }, [.start "gemini-" "" none, .stop .stop none]) := rfl
    have hstep : (stream_decoder Serde.compact "").step {} (frame_of code_run) =
        ({ started := true, stopped := true }, [.start "gemini-" "" none, .stop .stop none]) := by
      rw [stream_decoder_step, decode_of_carries "" Serde.compact_lawful {} hcarries, hobject]
    rw [Transducer.outputs, stream_decoder_init, Transducer.emit_cons, Transducer.advance_cons, hstep, stream_decoder_finish]
    rfl
  have hsaid : (({} : StreamAggregator).absorb_all [.start "gemini-" "" none, .stop .stop none, .done]).into_content
      Serde.compact = [] := by
    simp [StreamAggregator.into_content, Blocks.absorb, Blocks.into_content]
  have hwhole : ir.content = [.opaqueBlock "gemini" (.object [("executableCode", .object [("code", .string "1 + 1")])])] := by
    unfold decode_response at hir
    have herror : parse_error_body Serde.compact (.object code_run) = none := rfl
    simp only [herror] at hir
    rw [← Except.ok.inj hir]
    rfl
  rw [houtputs, hsaid, hwhole] at hcontent
  cases hcontent

end refract.codec.gemini
