import Refract.Codec.Gemini.Delivery
import Refract.Codec.Inputs
import Refract.Codec.Messages.Conformance

open refract.core refract.json refract.ir refract.machine refract.stream

namespace refract.codec

namespace messages

/-- What a client reads off a frame about the input of a call: that a call
    begins, or a piece of its input. -/
inductive Mark where
  | opened
  | piece (text : String)
  deriving DecidableEq, Repr

def mark_of (value : Value) : Option Mark :=
  match value.get_str "type" with
  | some "content_block_start" =>
    if (value.get "content_block").bind (·.get_str "type") = some "tool_use" then some .opened else none
  | some "content_block_delta" =>
    (value.get "delta").bind fun delta =>
      if delta.get_str "type" = some "input_json_delta" then (delta.get_str "partial_json").map .piece else none
  | _ => none

def mark (serde : Serde) (frame : SseFrame) : Option Mark := (serde.from_str frame.data).bind mark_of

/-- Goes on with the input of the last call. -/
def collect_mark (texts : List String) : Mark → List String
  | .opened => texts ++ [""]
  | .piece text =>
    match texts.getLast? with
    | some before => texts.dropLast ++ [before ++ text]
    | none => []

/-- The texts of the inputs, in the order of their calls. -/
def collect (marks : List Mark) : List String := marks.foldl collect_mark []

/-- What an event is written as. A piece whose call is not the open block begins
    a call of its own. -/
def event_marks (t : Tracker) : StreamEvent → List Mark
  | .toolCallStart _ _ _ _ => [.opened]
  | .toolCallArgsDelta index fragment =>
    if t.current = some (index, .toolUse) then [.piece fragment] else [.opened, .piece fragment]
  | _ => []

def marks_from (t : Tracker) : List StreamEvent → List Mark
  | [] => []
  | e :: es => event_marks t e ++ marks_from (t.step e) es

/-- The texts of the arguments that a stream assembles for its calls. -/
def assembled (es : List StreamEvent) : List String := collect (marks_from {} (live es))

end messages

section Messages

open messages messages.MessagesStreamEncoder

variable {serde : Serde} (hserde : serde.Lawful) (uuid : Nat → String) {self : MessagesStreamEncoder}

include hserde

theorem mark_frame {event : String} {map : Map} (hmap : (Value.object (("type", .string event) :: map)).WellFormed) :
    mark serde (frame serde event map) = mark_of (.object (("type", .string event) :: map)) := by
  rw [mark, frame, SseFrame.named_data, hserde.from_str_to_string _ hmap]
  rfl

theorem mark_message_start (id model : String) (usage : Usage) : mark serde (message_start_frame serde id model usage) = none := by
  rw [message_start_frame, mark_frame hserde]
  · rfl
  · simp [encode_usage_wellFormed]

theorem mark_block_start (index : Nat) {content_block : Map} (hblock : (Value.object content_block).WellFormed) :
    mark serde (block_start_frame serde index content_block) =
      if (Value.object content_block).get_str "type" = some "tool_use" then some .opened else none := by
  rw [block_start_frame, mark_frame hserde]
  · rfl
  · simpa using hblock

theorem mark_block_delta (index : Nat) {delta : Map} (hdelta : (Value.object delta).WellFormed) :
    mark serde (block_delta_frame serde index delta) =
      if (Value.object delta).get_str "type" = some "input_json_delta" then
        ((Value.object delta).get_str "partial_json").map .piece
      else none := by
  rw [block_delta_frame, mark_frame hserde]
  · rfl
  · simpa using hdelta

theorem mark_block_stop (index : Nat) : mark serde (block_stop_frame serde index) = none := by
  rw [block_stop_frame, mark_frame hserde]
  · rfl
  · simp

theorem mark_ensure_started : (self.ensure_started serde uuid).2.filterMap (mark serde) = [] := by
  unfold ensure_started
  split
  · rfl
  · split
    · simp [mark_message_start hserde]
    · simp [mark_message_start hserde]

theorem mark_close_open : (self.close_open serde).2.filterMap (mark serde) = [] := by
  unfold close_open
  split
  · simp [mark_block_stop hserde]
  · rfl

/-- A block of another kind leaves the inputs alone. -/
theorem mark_open_block (index : Nat) {kind : PartKind} (hkind : kind ≠ .toolUse) :
    (self.open_block serde uuid index kind).2.2.filterMap (mark serde) = [] := by
  have hstart : ∀ i, mark serde (block_start_frame serde i (content_block kind)) = none := by
    intro i
    rw [mark_block_start hserde i (content_block_wellFormed kind), if_neg]
    cases kind with
    | toolUse => exact absurd rfl hkind
    | _ => decide
  unfold open_block
  dsimp only
  split
  · exact mark_ensure_started hserde uuid
  · rw [List.filterMap_append, List.filterMap_append, mark_ensure_started hserde uuid, mark_close_open hserde,
      List.filterMap_cons_none (hstart _)]
    rfl

theorem mark_open_tool_block (index : Nat) (id name : String) :
    (self.open_tool_block serde uuid index id name).2.2.filterMap (mark serde) = [.opened] := by
  have hstart : ∀ i id, mark serde (block_start_frame serde i [("type", .string "tool_use"), ("id", .string id),
      ("name", .string name), ("input", .object [])]) = some .opened := fun i id =>
    (mark_block_start hserde i (tool_block_wellFormed id name)).trans (if_pos rfl)
  unfold open_tool_block
  dsimp only
  rw [List.filterMap_append, List.filterMap_append, mark_ensure_started hserde uuid, mark_close_open hserde,
    List.filterMap_cons_some (hstart _ _)]
  rfl

theorem mark_piece (index : Nat) (fragment : String) :
    mark serde (block_delta_frame serde index [("type", .string "input_json_delta"), ("partial_json", .string fragment)]) =
      some (.piece fragment) :=
  (mark_block_delta hserde index (by simp)).trans (if_pos rfl)

theorem mark_write_delta (index : Nat) {kind : PartKind} (hkind : kind ≠ .toolUse) {delta : Map}
    (hdelta : (Value.object delta).WellFormed) (htype : (Value.object delta).get_str "type" ≠ some "input_json_delta") :
    (self.write_delta serde uuid index kind delta).2.filterMap (mark serde) = [] := by
  unfold write_delta
  dsimp only
  rw [List.filterMap_append, mark_open_block hserde uuid index hkind,
    List.filterMap_cons_none ((mark_block_delta hserde _ hdelta).trans (if_neg htype))]
  rfl

variable {t : Tracker} {tokens : List Token}

theorem mark_write_fragment (h : Tracks t self tokens) (index : Nat) (fragment : String) :
    (self.write_fragment serde uuid index fragment).2.filterMap (mark serde) =
      if t.current = some (index, .toolUse) then [.piece fragment] else [.opened, .piece fragment] := by
  obtain ⟨hindexed, hindex, -⟩ := h.anth_index index
  unfold write_fragment
  simp only [hindex, hindexed.opened_iff index]
  have hcurrent : (t.mention index).current = t.current := rfl
  rw [hcurrent]
  split
  · rw [List.filterMap_cons_some (mark_piece hserde _ fragment)]
    rfl
  · rw [List.filterMap_append, mark_open_tool_block hserde uuid,
      List.filterMap_cons_some (mark_piece hserde _ fragment)]
    rfl

/-- Every event is written as its marks. -/
theorem mark_encode (h : Tracks t self tokens) {event : StreamEvent} (hevent : event.is_terminal = false) :
    (self.encode serde uuid event).2.filterMap (mark serde) = event_marks t event := by
  unfold MessagesStreamEncoder.encode
  rw [if_neg (by simp [h.live])]
  cases event with
  | start id model usage => exact mark_ensure_started hserde uuid
  | contentStart index kind =>
    dsimp only
    split
    · rfl
    next hkind => exact mark_open_block hserde uuid index hkind
  | textDelta index text => exact mark_write_delta hserde uuid index (by decide) (by simp) (by simp)
  | refusalDelta index text => exact mark_write_delta hserde uuid index (by decide) (by simp) (by simp)
  | thinkingDelta index text => exact mark_write_delta hserde uuid index (by decide) (by simp) (by simp)
  | thinkingSignature index signature => exact mark_write_delta hserde uuid index (by decide) (by simp) (by simp)
  | toolCallStart index id name signature => exact mark_open_tool_block hserde uuid index id name
  | toolCallArgsDelta index fragment => exact mark_write_fragment hserde uuid h index fragment
  | contentStop index =>
    dsimp only
    unfold stop_block
    dsimp only
    split
    · exact mark_close_open hserde
    · rfl
  | usage usage => rfl
  | stop reason stop_sequence => rfl
  | ping =>
    have hping : mark serde (frame serde "ping" []) = none := by
      rw [mark_frame hserde (by simp)]
      rfl
    exact List.filterMap_cons_none hping
  | done => cases hevent
  | error message kind => cases hevent

theorem mark_emit (h : Tracks t self tokens) {es : List StreamEvent} (hes : ∀ e ∈ es, e.is_terminal = false) :
    ((messages.stream_encoder serde uuid).emit self es).filterMap (mark serde) = marks_from t es := by
  induction es generalizing t self tokens with
  | nil => rfl
  | cons e es ih =>
    obtain ⟨hevent, hrest⟩ := List.forall_mem_cons.mp hes
    have hstep : (messages.stream_encoder serde uuid).step self e = self.encode serde uuid e := rfl
    rw [Transducer.emit_cons, List.filterMap_append, marks_from, hstep, mark_encode hserde uuid h hevent,
      ih (h.encode uuid hserde hevent) hrest]

/-- The texts of the inputs in the frames are those that the events assemble. -/
theorem messages.collect_outputs (es : List StreamEvent) :
    collect (((messages.stream_encoder serde uuid).outputs es).filterMap (mark serde)) = assembled es := by
  have hwrap : (((messages.stream_encoder serde uuid).advance {} (live es)).wrap_up serde uuid).2.filterMap (mark serde) = [] := by
    have hlive := (Tracks.run uuid hserde (live es) fun ev => is_terminal_of_mem_live).live
    obtain ⟨reason, stop_sequence, usage, hframes⟩ := wrap_up_frames serde uuid hlive
    have hends : [message_delta_frame serde reason stop_sequence usage, frame serde "message_stop" []].filterMap
        (mark serde) = [] := by
      have hdelta : mark serde (message_delta_frame serde reason stop_sequence usage) = none := by
        rw [message_delta_frame, mark_frame hserde]
        · rfl
        · cases stop_sequence <;> simp [encode_usage_wellFormed]
      have hstop : mark serde (frame serde "message_stop" []) = none := by
        rw [mark_frame hserde (by simp)]
        rfl
      rw [List.filterMap_cons_none hdelta, List.filterMap_cons_none hstop, List.filterMap_nil]
    rw [hframes, List.filterMap_append, List.filterMap_append, mark_ensure_started hserde uuid, mark_close_open hserde, hends]
    rfl
  have herror : ∀ message kind, mark serde (error_frame serde message kind) = none := by
    intro message kind
    rw [error_frame, mark_frame hserde (by simp)]
    rfl
  rw [outputs_live serde uuid hserde, List.filterMap_append, mark_emit hserde uuid Tracks.init fun e => is_terminal_of_mem_live,
    assembled]
  congr 1
  split
  · rw [List.filterMap_cons_none (herror _ _), List.filterMap_nil, List.append_nil]
  · rw [hwrap, List.append_nil]

end Messages

section Claims

variable {serde : Serde}

/-- What a client takes the text of an input for. No text at all stands for no
    arguments. -/
def client_input (serde : Serde) (text : String) : Option Value := if text = "" then some (.object []) else serde.from_str text

/-- The inputs of the calls in a stream to a client. -/
def stream_inputs (serde : Serde) : Protocol → List SseFrame → List (Option Value)
  | .messages, frames => (messages.collect (frames.filterMap (messages.mark serde))).map (client_input serde)
  | .gemini, frames => (gemini.function_calls serde frames).map fun part => (part.get "functionCall").bind (·.get "args")
  | _, _ => []

/-- The texts of the arguments that the events of a stream assemble for its calls. -/
def stream_arguments : Protocol → List StreamEvent → List String
  | .messages, es => messages.assembled es
  | .gemini, es => (gemini.ledger.outputs es).map (·.buf.args)
  | _, _ => []

/-- The stream that is written for some events. -/
def encode_all (serde : Serde) (uuid : Nat → String) : Protocol → List StreamEvent → List SseFrame
  | .messages, es => (messages.stream_encoder serde uuid).outputs es
  | .gemini, es => (gemini.stream_encoder serde).outputs es
  | _, _ => []

/-- A text of arguments that is streamed as an object. Gemini gets an empty object
    for a text that is no document. -/
def StreamsObject (serde : Serde) : Protocol → String → Prop
  | .gemini, text => ∀ v, trim text ≠ "" → serde.from_str text = some v → v.is_object = true
  | _, text => text = "" ∨ ∃ map, serde.from_str text = some (.object map)

/-- All inputs are objects, and arguments that are the text of an object are
    passed on as that object. -/
structure InputsHold (serde : Serde) (arguments inputs : List (Option Value)) : Prop where
  objects : ∀ input ∈ inputs, ∃ map, input = some (.object map)
  faithful : List.Forall₂ (fun given input => ∀ s map, given = some (.string s) → serde.from_str s = some (.object map) →
    input = some (.object map)) arguments inputs

variable (hblank : serde.RejectsBlank)

include hblank

/-- What holds of documents whose inputs are what their arguments become. -/
theorem inputsHold_documents {source : Protocol} (hsource : source = .chat ∨ source = .responses)
    (arguments : List (Option Value)) :
    InputsHold serde arguments (arguments.map fun given => some (argument_input serde source given)) ↔
      ∀ given ∈ arguments, StandForObject serde source given := by
  have hobject : ∀ given, (∃ map, some (argument_input serde source given) = some (Value.object map)) ↔
      StandForObject serde source given := by
    intro given
    rw [← is_object_argument_input serde hsource]
    cases argument_input serde source given <;> simp [Value.is_object]
  constructor
  · intro h given hgiven
    exact (hobject given).mp (h.objects _ (List.mem_map_of_mem hgiven))
  · intro h
    refine ⟨fun input hinput => ?_, ?_⟩
    · obtain ⟨given, hgiven, rfl⟩ := List.mem_map.mp hinput
      exact (hobject given).mpr (h given hgiven)
    · rw [List.forall₂_map_right_iff, List.forall₂_same]
      rintro given - s map rfl hparse
      have htrim : trim s ≠ "" := fun hs => by cases (hblank s hs).symm.trans hparse
      rcases hsource with rfl | rfl
      · simp [argument_input, chat.parse_arguments, htrim, hparse]
      · simp [argument_input, responses.parse_arguments, htrim, hparse]

omit hblank in
/-- What holds of streams whose inputs are what the texts of their arguments become. -/
theorem inputsHold_texts {target : Protocol} {become : String → Option Value}
    (hobject : ∀ text, (∃ map, become text = some (.object map)) ↔ StreamsObject serde target text)
    (hfaithful : ∀ text map, serde.from_str text = some (.object map) → become text = some (.object map)) (texts : List String) :
    InputsHold serde (texts.map fun text => some (.string text)) (texts.map become) ↔
      ∀ text ∈ texts, StreamsObject serde target text := by
  constructor
  · intro h text htext
    exact (hobject text).mp (h.objects _ (List.mem_map_of_mem htext))
  · intro h
    refine ⟨fun input hinput => ?_, ?_⟩
    · obtain ⟨text, htext, rfl⟩ := List.mem_map.mp hinput
      exact (hobject text).mpr (h text htext)
    · rw [List.forall₂_map_left_iff, List.forall₂_map_right_iff, List.forall₂_same]
      rintro text - s map hs hparse
      obtain rfl : text = s := by simpa using hs
      exact hfaithful text map hparse

omit hblank in
theorem exists_client_input (text : String) :
    (∃ map, client_input serde text = some (.object map)) ↔ StreamsObject serde .messages text := by
  rw [client_input, StreamsObject]
  · by_cases htext : text = ""
    · simp [htext]
    · simp [htext]
  · intro h
    cases h

omit hblank in
theorem exists_parse_args (text : String) :
    (∃ map, some (gemini.GeminiStreamEncoder.parse_args serde text) = some (.object map)) ↔
      StreamsObject serde .gemini text := by
  rw [gemini.GeminiStreamEncoder.parse_args, StreamsObject]
  by_cases htrim : trim text = ""
  · simp [htrim]
  · cases hparse : serde.from_str text with
    | none => simp [htrim]
    | some v => cases v <;> simp [htrim, Value.is_object]

theorem client_input_of_object {text : String} {map : Map} (hparse : serde.from_str text = some (.object map)) :
    client_input serde text = some (.object map) := by
  have hne : text ≠ "" := by
    rintro rfl
    cases (hblank "" (by decide)).symm.trans hparse
  rw [client_input, if_neg hne, hparse]

theorem parse_args_of_object {text : String} {map : Map} (hparse : serde.from_str text = some (.object map)) :
    some (gemini.GeminiStreamEncoder.parse_args serde text) = some (.object map) := by
  have htrim : trim text ≠ "" := fun h => by cases (hblank text h).symm.trans hparse
  rw [gemini.GeminiStreamEncoder.parse_args, if_neg htrim, hparse]
  rfl

/-- The inputs in a stream to a client are objects exactly if the texts that its
    events assemble are streamed as objects. -/
theorem inputsHold_stream (hserde : serde.Lawful) (uuid : Nat → String) {target : Protocol}
    (htarget : target = .messages ∨ target = .gemini) (es : List StreamEvent) :
    InputsHold serde ((stream_arguments target es).map fun text => some (.string text))
        (stream_inputs serde target (encode_all serde uuid target es)) ↔
      ∀ text ∈ stream_arguments target es, StreamsObject serde target text := by
  rcases htarget with rfl | rfl
  · rw [stream_inputs, encode_all, messages.collect_outputs hserde uuid]
    exact inputsHold_texts exists_client_input (fun _ _ => client_input_of_object hblank) _
  · have hinputs : stream_inputs serde .gemini (encode_all serde uuid .gemini es) =
        (stream_arguments .gemini es).map fun text => some (gemini.GeminiStreamEncoder.parse_args serde text) := by
      rw [stream_inputs, encode_all, gemini.GeminiStreamEncoder.function_calls_outputs hserde, stream_arguments, List.map_map,
        List.map_map]
      refine List.map_congr_left fun d _ => ?_
      rw [Function.comp_apply, gemini.Delivery.part, gemini.GeminiStreamEncoder.call_part]
      split <;> rfl
    rw [hinputs]
    exact inputsHold_texts exists_parse_args (fun _ _ => parse_args_of_object hblank) _

/-- The inputs that a client's or an upstream's arguments become are objects, in
    documents and in streams, exactly if the arguments stand for objects. -/
theorem tool_inputs_hold_iff (hserde : serde.Lawful) {source target : Protocol} (hsource : source = .chat ∨ source = .responses)
    (htarget : target = .messages ∨ target = .gemini) (name : String) (now : Int) (uuid : Nat → String) :
    (∀ raw ir, decode_request serde source raw = .ok ir →
      (InputsHold serde (request_arguments source raw) (request_inputs target (encode_request serde target ir)) ↔
        ∀ given ∈ request_arguments source raw, StandForObject serde source given)) ∧
    (∀ raw answer, decode_response serde name now source raw = .ok answer →
      (InputsHold serde (answer_arguments source raw) (answer_inputs target (encode_response serde target answer)) ↔
        ∀ given ∈ answer_arguments source raw, StandForObject serde source given)) ∧
    ∀ frames, let es := decode_all serde name source frames
      InputsHold serde ((stream_arguments target es).map fun text => some (.string text))
          (stream_inputs serde target (encode_all serde uuid target es)) ↔
        ∀ text ∈ stream_arguments target es, StreamsObject serde target text := by
  refine ⟨fun raw ir h => ?_, fun raw answer h => ?_, fun frames => inputsHold_stream hblank hserde uuid htarget _⟩
  · rw [request_inputs_eq hsource htarget h]
    exact inputsHold_documents hblank hsource _
  · rw [answer_inputs_eq hsource htarget h]
    exact inputsHold_documents hblank hsource _

end Claims

/-- A Chat request whose one call came with some arguments. -/
def called_with (arguments : String) : Value :=
  .object [("model", .string "m"), ("messages", .array [.object [("role", .string "assistant"), ("tool_calls", .array [.object
    [("id", .string "c1"), ("function", .object [("name", .string "f"), ("arguments", .string arguments)])]])]])]

theorem tool_inputs_hold_of_object :
    ∃ ir, decode_request Serde.compact .chat (called_with "{}") = .ok ir ∧
      InputsHold Serde.compact (request_arguments .chat (called_with "{}"))
        (request_inputs .messages (encode_request Serde.compact .messages ir)) :=
  ⟨_, rfl, ((tool_inputs_hold_iff Serde.compact_rejectsBlank Serde.compact_lawful (.inl rfl) (.inl rfl) "" 0 fun _ => "").1 _ _
    rfl).mpr fun given hgiven => by
      obtain rfl := List.mem_singleton.mp hgiven
      exact .inr ⟨[], rfl⟩⟩

/-- Arguments that are a list are passed on as a list. -/
theorem list_input_passed_on : ¬ ∀ raw ir, decode_request Serde.compact .chat raw = .ok ir →
    InputsHold Serde.compact (request_arguments .chat raw) (request_inputs .messages (encode_request Serde.compact .messages ir)) := by
  intro h
  have hread : ∃ ir, decode_request Serde.compact .chat (called_with "[]") = .ok ir := ⟨_, rfl⟩
  obtain ⟨ir, hir⟩ := hread
  have hinputs := request_inputs_eq (.inl rfl) (.inl rfl) hir
  obtain ⟨map, hmap⟩ := (h _ ir hir).objects (some (.array [])) (by rw [hinputs]; exact List.mem_singleton.mpr rfl)
  cases hmap

end refract.codec
