import Refract.Codec.Responses.Decoder
import Refract.Codec.Responses.Response
import Refract.Json.Object
import Refract.Json.RoundTrip
import Refract.Machine.Numbering
import Refract.Stream.Aggregator

open refract.core refract.json refract.ir refract.machine refract.stream

namespace refract.codec.responses

section Streamed

variable (serde : Serde)

/-- The document of a frame, unless it is the sentinel or blank. -/
def document (frame : SseFrame) : Option Value :=
  if trim frame.data = "[DONE]" ∨ trim frame.data = "" then none else serde.from_str frame.data

/-- The item that a frame announces or closes, with its index. -/
def streamed_item (frame : SseFrame) : Option (Nat × Value) :=
  (document serde frame).bind fun value =>
    if ResponsesStreamDecoder.event_name frame value ∈ ["response.output_item.added", "response.output_item.done"] then
      (value.get "item").map (output_index value, ·)
    else none

/-- The items of a stream, each as it was streamed last. -/
def streamed_items (frames : List SseFrame) : List Value :=
  ((frames.filterMap (streamed_item serde)).foldl
    (fun items entry => upsert Prod.fst entry.1 entry (fun _ => entry) items) []).map Prod.snd

/-- A frame that ends a response, with its event and its document. -/
def Ends (frame : SseFrame) (event : String) (value : Value) : Prop :=
  document serde frame = some value ∧ ResponsesStreamDecoder.event_name frame value = event ∧
    (event = "response.completed" ∨ event = "response.incomplete")

/-- The status that the end of a response reports, which its event tells where it does not. -/
def final_status (event : String) (value : Value) : String :=
  ((value.get "response").bind (·.get_str "status")).getD
    (if event = "response.incomplete" then "incomplete" else "completed")

/-- The generation did not run to its end. -/
def Interrupted (status : String) : Prop := status ∈ ["incomplete", "failed", "cancelled", "queued", "in_progress"]

/-- The items that the end of a response repeats. -/
def final_items (value : Value) : List Value := (((value.get "response").bind (·.get "output")).bind Value.as_array).getD []

/-- A whole response that ended alike and whose output is some items. -/
def whole_response (event : String) (value : Value) (items : List Value) : Value :=
  .object ([("status", .string (final_status event value))] ++
    member "incomplete_details" ((value.get "response").bind (·.get "incomplete_details")) ++ [("output", .array items)])

/-- The last reason to stop that a decoded stream gives. -/
def last_reason (frames : List SseFrame) : Option StopReason :=
  (((stream_decoder serde).outputs frames).filterMap StreamEvent.stop_reason).getLast?

/-- A message with a part that refuses. -/
def refuses (item : Value) : Bool := item.get_str "type" = some "message" && ResponsesStreamDecoder.is_refusal item

/-- A completed stream that called a function stopped for it, and any stream
    stopped for what a whole response with its items would have stopped for. -/
def StopsForItems (now : Int) (frames : List SseFrame) (final : SseFrame) (event : String) (value : Value) : Prop :=
  (event = "response.completed" → ¬Interrupted (final_status event value) →
    (streamed_items serde frames).any ResponsesStreamDecoder.is_function_call = true →
      last_reason serde (frames ++ [final]) = some .toolUse) ∧
    ∃ response, decode_response serde now (whole_response event value (streamed_items serde frames)) = .ok response ∧
      last_reason serde (frames ++ [final]) = response.stop_reason

end Streamed

section Whole

variable (serde : Serde)

theorem type_eq {value : Value} {kind : String} (h : (value.get_str "type").getD "" = kind) (hkind : kind ≠ "") :
    value.get_str "type" = some kind := by
  cases hget : value.get_str "type" with
  | none =>
    rw [hget] at h
    exact absurd h.symm hkind
  | some found =>
    rw [hget] at h
    exact congrArg some h

/-- A part is never read as a call, and as a refusal only if it is one. -/
theorem decode_content_part_kind {part : Value} {read : ContentPart} (h : decode_content_part part = some read) :
    read.is_tool_use = false ∧ (read.is_refusal = true → part.get_str "type" = some "refusal") := by
  unfold decode_content_part at h
  split at h
  · split at h
    iterate 4
      · obtain rfl := Option.some.inj h
        exact ⟨rfl, fun hrefusal => by cases hrefusal⟩
    iterate 2
      · dsimp only at h
        split at h
        · obtain rfl := Option.some.inj h
          exact ⟨rfl, fun hrefusal => by cases hrefusal⟩
        · obtain ⟨url, -, rfl⟩ := Option.map_eq_some_iff.mp h
          exact ⟨rfl, fun hrefusal => by cases hrefusal⟩
    iterate 2
      · dsimp only at h
        split at h
        · obtain rfl := Option.some.inj h
          exact ⟨rfl, fun hrefusal => by cases hrefusal⟩
        · obtain rfl := Option.some.inj h
          exact ⟨rfl, fun hrefusal => by cases hrefusal⟩
        · obtain ⟨url, -, rfl⟩ := Option.map_eq_some_iff.mp h
          exact ⟨rfl, fun hrefusal => by cases hrefusal⟩
    iterate 2
      · obtain ⟨data, -, rfl⟩ := Option.map_eq_some_iff.mp h
        exact ⟨rfl, fun hrefusal => by cases hrefusal⟩
    next hkind =>
      obtain rfl := Option.some.inj h
      exact ⟨rfl, fun _ => type_eq hkind (by decide)⟩
    · cases h
  · cases h

/-- Every refusal among some parts is read as one. -/
theorem any_refusal_parts (parts : List Value) :
    (parts.filterMap decode_content_part).any ContentPart.is_refusal = parts.any fun part => part.get_str "type" = some "refusal" := by
  rw [Bool.eq_iff_iff, List.any_eq_true, List.any_eq_true]
  constructor
  · rintro ⟨read, hread, hrefusal⟩
    obtain ⟨part, hpart, hdecode⟩ := List.mem_filterMap.mp hread
    exact ⟨part, hpart, decide_eq_true ((decode_content_part_kind hdecode).2 hrefusal)⟩
  · rintro ⟨part, hpart, hkind⟩
    refine ⟨.refusal ((part.get_str "refusal").getD ""), List.mem_filterMap.mpr ⟨part, hpart, ?_⟩, rfl⟩
    cases part with
    | object obj => rw [decode_content_part, of_decide_eq_true hkind]; rfl
    | _ => cases of_decide_eq_true hkind

/-- An item is read as a call exactly if it is one. -/
theorem any_tool_use_item (item : Value) :
    (decode_output_item serde item).any ContentPart.is_tool_use = ResponsesStreamDecoder.is_function_call item := by
  unfold decode_output_item ResponsesStreamDecoder.is_function_call
  split
  · dsimp only
    split
    next hmessage =>
      rw [type_eq hmessage (by decide), List.any_eq_false.mpr]
      · rfl
      · intro read hread
        obtain ⟨part, -, hdecode⟩ := List.mem_filterMap.mp hread
        simp [(decode_content_part_kind hdecode).1]
    next hcall => rw [type_eq hcall (by decide)]; rfl
    next hreasoning => rw [type_eq hreasoning (by decide)]; rfl
    next hcall _ =>
      refine (decide_eq_false fun hkind => hcall ?_).symm
      rw [hkind]
      rfl
  next hobject =>
    cases item with
    | object obj => exact absurd rfl (hobject obj)
    | _ => rfl

/-- An item is read with a refusal exactly if it is a message with one. -/
theorem any_refusal_item (item : Value) : (decode_output_item serde item).any ContentPart.is_refusal = refuses item := by
  unfold decode_output_item refuses
  split
  next obj =>
    dsimp only
    cases htype : (Value.object obj).get_str "type" with
    | none => rfl
    | some kind =>
      rw [Option.getD_some]
      split
      · rw [any_refusal_parts, ResponsesStreamDecoder.is_refusal]
        change _ = (_ && ((Map.get obj "content").bind Value.as_array).any _)
        cases (Map.get obj "content").bind Value.as_array <;> rfl
      · rfl
      · rfl
      next hmessage _ _ =>
        rw [decide_eq_false fun heq => hmessage (Option.some.inj heq)]
        rfl
  next hobject =>
    cases item with
    | object obj => exact absurd rfl (hobject obj)
    | _ => rfl

theorem any_decode_output_items (p : ContentPart → Bool) (items : List Value) :
    (decode_output_items serde items).any p = items.any fun item => (decode_output_item serde item).any p := by
  rw [decode_output_items, List.any_flatMap]

/-- The reason of a whole response, by its items. -/
theorem decode_whole_response (now : Int) (event : String) (value : Value) (items : List Value) :
    ∃ response, decode_response serde now (whole_response event value items) = .ok response ∧
      response.stop_reason = some (map_status (final_status event value)
        (((value.get "response").bind (·.get "incomplete_details")).bind (·.get_str "reason"))
        (items.any ResponsesStreamDecoder.is_function_call) (items.any refuses)) := by
  have hcalls : (decode_output_items serde items).any ContentPart.is_tool_use =
      items.any ResponsesStreamDecoder.is_function_call := by
    rw [any_decode_output_items]
    exact congrArg (items.any ·) (funext (any_tool_use_item serde))
  have hrefusals : (decode_output_items serde items).any ContentPart.is_refusal = items.any refuses := by
    rw [any_decode_output_items]
    exact congrArg (items.any ·) (funext (any_refusal_item serde))
  obtain ⟨obj, hobj⟩ : ∃ obj, whole_response event value items = .object obj := ⟨_, rfl⟩
  have hget : ∀ key, Map.get obj key = (whole_response event value items).get key := fun key => by rw [hobj]; rfl
  have herror : Map.get obj "error" = none := by
    rw [hget, whole_response, Value.get_object]
    simp [List.lookup_append, lookup_member, List.lookup_cons]
  have hnested : Map.get obj "response" = none := by
    rw [hget, whole_response, Value.get_object]
    simp [List.lookup_append, lookup_member, List.lookup_cons]
  have hstatus : (Value.object obj).get_str "status" = some (final_status event value) := by
    rw [← hobj]
    rfl
  have hdetails : Map.get obj "incomplete_details" = (value.get "response").bind (·.get "incomplete_details") := by
    rw [hget, whole_response, Value.get_object]
    simp [List.lookup_append, lookup_member, List.lookup_cons]
  have houtput : Map.get obj "output" = some (.array items) := by
    rw [hget, whole_response, Value.get_object]
    simp [List.lookup_append, lookup_member, List.lookup_cons]
  rw [hobj, decode_response, herror, Option.filter_none]
  dsimp only
  split
  next inner hinner =>
    rw [hnested] at hinner
    cases hinner
  · refine ⟨_, rfl, ?_⟩
    dsimp only
    rw [hstatus, hdetails, houtput]
    exact congrArg some (congrArg₂ (map_status _ _) hcalls hrefusals)

end Whole

section Runs

variable (serde : Serde)

theorem decode_finish_reason (self : ResponsesStreamDecoder) : self.finish.2.filterMap StreamEvent.stop_reason = [] := by
  unfold ResponsesStreamDecoder.finish
  split <;> rfl

/-- The end of a response gives the reason that its own items tell. -/
theorem last_reason_concat (frames : List SseFrame) {final : SseFrame} {event : String} {value : Value}
    (h : Ends serde final event value) :
    last_reason serde (frames ++ [final]) = some (map_status (final_status event value)
      (((value.get "response").bind (·.get "incomplete_details")).bind (·.get_str "reason"))
      ((final_items value).any ResponsesStreamDecoder.is_function_call)
      ((final_items value).any ResponsesStreamDecoder.is_refusal)) := by
  obtain ⟨hdocument, hname, hevent⟩ := h
  have hstep : ∀ self : ResponsesStreamDecoder, ∃ before after,
      (ResponsesStreamDecoder.decode serde self final).2 = before ++ .stop (ResponsesStreamDecoder.final_reason event (value.get "response")) none :: after ∧
        after.filterMap StreamEvent.stop_reason = [] := by
    intro self
    have hdecode : ResponsesStreamDecoder.decode serde self final = self.decode_completed event value := by
      rw [document] at hdocument
      split at hdocument
      · cases hdocument
      next hshown =>
        obtain ⟨hsentinel, hblank⟩ := not_or.mp hshown
        rw [ResponsesStreamDecoder.decode, if_neg hsentinel, if_neg hblank, hdocument]
        dsimp only
        rw [hname]
        rcases hevent with rfl | rfl
        · rfl
        · rfl
    rw [hdecode, ResponsesStreamDecoder.decode_completed]
    refine ⟨_, _, List.append_assoc .., ?_⟩
    split <;> rfl
  rw [last_reason, Transducer.outputs_append, Transducer.emit_cons, Transducer.emit_nil, List.append_nil]
  rw [stream_decoder_step, stream_decoder_finish]
  obtain ⟨before, after, hfinal, hafter⟩ := hstep ((stream_decoder serde).advance (stream_decoder serde).init frames)
  rw [hfinal, List.filterMap_append, List.filterMap_append, List.filterMap_append, @List.filterMap_cons_some _ _ StreamEvent.stop_reason _ _ _ rfl, hafter,
    decode_finish_reason, List.append_nil, ← List.append_assoc, List.getLast?_concat]
  rfl

end Runs

section Claims

variable {serde : Serde} {now : Int} {frames : List SseFrame} {final : SseFrame} {event : String} {value : Value}

theorem map_status_ended {status : String} (h : ¬Interrupted status) (details : Option String) (called refused : Bool) :
    map_status status details called refused = if called then .toolUse else if refused then .refusal else .stop := by
  simp only [Interrupted, List.mem_cons, List.not_mem_nil, or_false, not_or] at h
  unfold map_status
  split <;> simp_all

/-- Where the generation ran to its end, the reason tells whether a call was made, and
    else whether something was refused. -/
theorem map_status_eq_iff {status : String} {details : Option String} {called refused also_called also_refused : Bool} :
    map_status status details called refused = map_status status details also_called also_refused ↔
      Interrupted status ∨ (called = also_called ∧ (called = true ∨ refused = also_refused)) := by
  by_cases hstatus : Interrupted status
  · refine iff_of_true ?_ (.inl hstatus)
    simp only [Interrupted, List.mem_cons, List.not_mem_nil, or_false] at hstatus
    rcases hstatus with rfl | rfl | rfl | rfl | rfl <;> rfl
  · rw [map_status_ended hstatus, map_status_ended hstatus]
    simp only [hstatus, false_or]
    cases called <;> cases refused <;> cases also_called <;> cases also_refused <;> decide

theorem stops_for_items_iff (h : Ends serde final event value) :
    StopsForItems serde now frames final event value ↔
      Interrupted (final_status event value) ∨
        ((final_items value).any ResponsesStreamDecoder.is_function_call =
            (streamed_items serde frames).any ResponsesStreamDecoder.is_function_call ∧
          ((final_items value).any ResponsesStreamDecoder.is_function_call = true ∨
            (final_items value).any ResponsesStreamDecoder.is_refusal = (streamed_items serde frames).any refuses)) := by
  obtain ⟨response, hresponse, hreason⟩ := decode_whole_response serde now event value (streamed_items serde frames)
  have hlast := last_reason_concat serde frames h
  have hsame : (∃ response, decode_response serde now (whole_response event value (streamed_items serde frames)) = .ok response ∧
        last_reason serde (frames ++ [final]) = response.stop_reason) ↔ last_reason serde (frames ++ [final]) = response.stop_reason := by
    constructor
    · rintro ⟨other, hother, hequal⟩
      obtain rfl := Except.ok.inj (hresponse.symm.trans hother)
      exact hequal
    · exact fun hequal => ⟨response, hresponse, hequal⟩
  rw [StopsForItems, hsame, ← map_status_eq_iff, hreason, hlast]
  constructor
  · exact fun hstops => Option.some.inj hstops.2
  · intro hequal
    refine ⟨fun _ hended hcalled => ?_, congrArg some hequal⟩
    rw [hequal, hcalled, map_status_ended hended]
    rfl

end Claims

section Samples

/-- A document is read back from its frame. -/
theorem document_named {serde : Serde} (hserde : serde.Lawful) {value : Value} (hvalue : value.WellFormed) (event : String) :
    document serde (.named event (serde.to_string value)) = some value := by
  have htext : ¬(trim (serde.to_string value) = "[DONE]" ∨ trim (serde.to_string value) = "") := by
    rw [hserde.trim_to_string value hvalue]
    exact not_or.mpr ⟨hserde.to_string_ne_done hvalue, hserde.to_string_ne_empty hvalue⟩
  rw [document, SseFrame.named_data, if_neg htext, hserde.from_str_to_string value hvalue]

def call_item : Value := .object [("type", .string "function_call"), ("call_id", .string "c"), ("name", .string "f")]

/-- The frame that announces a call. -/
def call_frame : SseFrame := .named "response.output_item.added" (Serde.compact.to_string (.object [("item", call_item)]))

/-- The end of a response that repeats some items. -/
def final_value (items : List Value) : Value := .object [("response", .object [("output", .array items)])]

def final_frame (items : List Value) : SseFrame := .named "response.completed" (Serde.compact.to_string (final_value items))

theorem streamed_call : streamed_items Serde.compact [call_frame] = [call_item] := by
  have hitem : streamed_item Serde.compact call_frame = some (0, call_item) := by
    rw [streamed_item, call_frame, document_named Serde.compact_lawful (by simp [call_item])]
    rfl
  rw [streamed_items, List.filterMap_cons_some hitem]
  rfl

theorem final_frame_ends {items : List Value} (h : (final_value items).WellFormed) :
    Ends Serde.compact (final_frame items) "response.completed" (final_value items) :=
  ⟨document_named Serde.compact_lawful h _, rfl, .inl rfl⟩

theorem stops_for_items_of_repeated :
    StopsForItems Serde.compact 0 [call_frame] (final_frame [call_item]) "response.completed" (final_value [call_item]) := by
  refine (stops_for_items_iff (final_frame_ends (by simp [final_value, call_item]))).mpr (.inr ⟨?_, .inl ?_⟩)
  · rw [streamed_call]
    rfl
  · decide

/-- A stream that called a function and whose end repeats no items stops as if
    it had called none. -/
theorem unrepeated_call_lost :
    ¬StopsForItems Serde.compact 0 [call_frame] (final_frame []) "response.completed" (final_value []) := by
  rintro ⟨hstops, -⟩
  have hended : ¬Interrupted (final_status "response.completed" (final_value [])) := by
    unfold Interrupted
    decide
  have hreason := hstops rfl hended (by rw [streamed_call]; decide)
  rw [last_reason_concat Serde.compact [call_frame] (final_frame_ends (by simp [final_value])), map_status_ended hended] at hreason
  cases hreason

end Samples

end refract.codec.responses
