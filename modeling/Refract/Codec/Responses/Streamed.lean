import Refract.Codec.Responses.Sequence

open refract.json refract.ir refract.machine refract.stream

namespace refract.codec.responses

/-- A block of an answer as it is streamed, its text in fragments. -/
inductive StreamedBlock where
  | text (fragments : List String)
  | refusal (fragments : List String)
  | thinking (fragments : List String) (signature : Option String)
  | toolUse (id name : String) (fragments : List String)

/-- The event of a fragment. -/
def fragment_event (kind : PartKind) (index : Nat) (text : String) : StreamEvent :=
  match kind with
  | .text => .textDelta index text
  | .refusal => .refusalDelta index text
  | .thinking => .thinkingDelta index text
  | .toolUse => .toolCallArgsDelta index text

namespace StreamedBlock

def kind : StreamedBlock → PartKind
  | .text _ => .text
  | .refusal _ => .refusal
  | .thinking _ _ => .thinking
  | .toolUse _ _ _ => .toolUse

def fragments : StreamedBlock → List String
  | .text fragments | .refusal fragments | .thinking fragments _ | .toolUse _ _ fragments => fragments

def signature : StreamedBlock → Option String
  | .thinking _ signature => signature
  | _ => none

/-- A call begins with what it calls. -/
def call_events (index : Nat) : StreamedBlock → List StreamEvent
  | .toolUse id name _ => [.toolCallStart index id name none]
  | _ => []

variable (block : StreamedBlock) (index : Nat)

/-- The events that tell of a block at an index. -/
def events : List StreamEvent :=
  .contentStart index block.kind :: block.call_events index ++ block.fragments.map (fragment_event block.kind index) ++
    (block.signature.map (.thinkingSignature index)).toList ++ [.contentStop index]

/-- The item of a block before its first fragment. -/
def item_start (id : String) : OpenBlock where
  output_index := index
  item_id := ResponsesStreamEncoder.item_prefix block.kind ++ "_" ++ id ++ "_" ++ toString index
  kind := block.kind
  tool_id := match block with
    | .toolUse id _ _ => id
    | _ => ""
  tool_name := match block with
    | .toolUse _ name _ => name
    | _ => ""

end StreamedBlock

namespace OpenBlock

variable (block : OpenBlock)

/-- An item with one fragment more. -/
def push (text : String) : OpenBlock :=
  match block.kind with
  | .toolUse => { block with args := block.args ++ text }
  | .text | .refusal | .thinking => { block with text := block.text ++ text }

/-- The item of a block after its last fragment. -/
def pushed (fragments : List String) : OpenBlock := fragments.foldl push block

/-- A signature that has come replaces an earlier one. -/
def signed (signature : Option String) : OpenBlock :=
  match signature with
  | some signature => { block with signature := some signature }
  | none => block

variable {block}

theorem Same.push (text : String) : block.Same (block.push text) := by
  unfold OpenBlock.push
  split <;> exact ⟨rfl, rfl, rfl⟩

theorem announced_push (text : String) : (block.push text).announced = block.announced := by
  unfold OpenBlock.push
  split <;> rfl

theorem Same.pushed (fragments : List String) : block.Same (block.pushed fragments) := by
  unfold OpenBlock.pushed
  induction fragments generalizing block with
  | nil => exact Same.refl block
  | cons text fragments ih => exact (Same.push text).trans ih

theorem announced_pushed (fragments : List String) : (block.pushed fragments).announced = block.announced := by
  unfold OpenBlock.pushed
  induction fragments generalizing block with
  | nil => rfl
  | cons text fragments ih => exact ih.trans (announced_push text)

theorem Same.signed (signature : Option String) : block.Same (block.signed signature) := by
  unfold OpenBlock.signed
  split <;> exact ⟨rfl, rfl, rfl⟩

theorem announced_signed (signature : Option String) : (block.signed signature).announced = block.announced := by
  unfold OpenBlock.signed
  split <;> rfl

theorem signature_pushed (fragments : List String) : (block.pushed fragments).signature = block.signature := by
  unfold OpenBlock.pushed
  induction fragments generalizing block with
  | nil => rfl
  | cons text fragments ih =>
    refine ih.trans ?_
    unfold OpenBlock.push
    split <;> rfl

end OpenBlock

namespace ResponsesStreamEncoder

/-- Events are written as some frames. -/
structure Writes (serde : Serde) (uuid : String) (now : Int) (before : ResponsesStreamEncoder) (events : List StreamEvent)
    (notices : List Notice) (after : ResponsesStreamEncoder) : Prop where
  passes : (stream_encoder serde uuid now).Passes before events (numbered serde before.seq notices) after
  seq : after.seq = before.seq + notices.length

variable {serde : Serde} {uuid : String} {now : Int} {self middle after : ResponsesStreamEncoder} {events more : List StreamEvent}
  {notices rest : List Notice}

theorem Writes.nil (self : ResponsesStreamEncoder) : Writes serde uuid now self [] [] self := ⟨.nil _ _, rfl⟩

theorem Writes.append (h : Writes serde uuid now self events notices middle) (h' : Writes serde uuid now middle more rest after) :
    Writes serde uuid now self (events ++ more) (notices ++ rest) after := by
  refine ⟨?_, ?_⟩
  · rw [numbered_append, ← h.seq]
    exact h.passes.append h'.passes
  · rw [h'.seq, h.seq, List.length_append, Nat.add_assoc]

theorem Writes.step {event : StreamEvent} (hlive : self.finished = false)
    (hstep : self.notices uuid now event = ({ after with seq := self.seq }, notices)) (hseq : after.seq = self.seq + notices.length) :
    Writes serde uuid now self [event] notices after := by
  have hencode : self.encode serde uuid now event = (after, numbered serde self.seq notices) := by
    unfold encode
    rw [hlive, if_neg (by decide), hstep]
    dsimp only
    rw [emit_eq, ← hseq]
  exact ⟨.single hencode, hseq⟩

section States

variable (base : ResponsesStreamEncoder) (items : List Value) (seq : Nat)

/-- An encoder that has written some items, and is writing none. -/
def between : ResponsesStreamEncoder := {
  base with
    seq
    started := true
    finished := false
    blocks := []
    next_output_index := items.length
    items := items.map some }

/-- An encoder that is writing an item after some others. -/
def within (block : OpenBlock) : ResponsesStreamEncoder := {
  base with
    seq
    started := true
    finished := false
    blocks := [(items.length, block)]
    next_output_index := items.length + 1
    items := items.map some }

variable {base items seq} {block : OpenBlock}

theorem lookup_within : (within base items seq block).blocks.lookup items.length = some block := by
  simp [within]

theorem insert_within (other : OpenBlock) : (within base items seq block).blocks.insert items.length other = [(items.length, other)] := by
  simp [within, OrderedMap.insert]

/-- A block that is being written is ensured. -/
theorem ensure_block_within : (within base items seq block).ensure_block uuid now items.length block.kind = (within base items seq block, []) := by
  unfold ensure_block
  rw [ensure_started_of_started rfl]
  dsimp only
  rw [lookup_within]
  exact if_pos rfl

theorem announce_within (hsilent : block.announced = false) :
    (within base items seq block).announce items.length = (within base items seq { block with announced := true }, block.announcement) := by
  unfold announce
  rw [lookup_within]
  dsimp only
  rw [if_neg (by rw [hsilent]; decide), insert_within]
  rfl

theorem announce_within_of_announced (hannounced : block.announced = true) :
    (within base items seq block).announce items.length = (within base items seq block, []) := by
  unfold announce
  rw [lookup_within]
  exact if_pos hannounced

/-- A fragment is written as a delta. -/
theorem notices_fragment (hannounced : block.announced = true) (text : String) :
    (within base items seq block).notices uuid now (fragment_event block.kind items.length text) =
      (within base items seq (block.push text), [block.delta text]) := by
  have hensured := @ensure_block_within uuid now base items seq block
  have hwritten : ∀ event update delta, (within base items seq block).write_delta items.length event update delta =
      (within base items seq (update block), [(event, block.place delta)]) := by
    intro event update delta
    unfold write_delta
    rw [lookup_within]
    dsimp only
    rw [insert_within]
    rfl
  obtain ⟨output_index, item_id, kind, announced, said, signature, tool_id, tool_name, args⟩ := block
  cases kind with
  | toolUse =>
    dsimp only [fragment_event, notices]
    unfold write_fragment
    rw [hensured]
    dsimp only
    rw [announce_within_of_announced hannounced]
    dsimp only
    rw [hwritten]
    rfl
  | _ =>
    dsimp only [fragment_event, notices]
    unfold write_text
    rw [hensured]
    dsimp only
    rw [hwritten]
    rfl

/-- Fragments are written one after another. -/
theorem writes_fragments (hannounced : block.announced = true) (fragments : List String) :
    Writes serde uuid now (within base items seq block) (fragments.map (fragment_event block.kind items.length))
      (fragments.map block.delta) (within base items (seq + fragments.length) (block.pushed fragments)) := by
  induction fragments generalizing seq block with
  | nil => exact .nil _
  | cons text fragments ih =>
    have hfirst : Writes serde uuid now (within base items seq block) [fragment_event block.kind items.length text] [block.delta text]
        (within base items (seq + 1) (block.push text)) := .step rfl (notices_fragment hannounced text) rfl
    have hrest := @ih (seq + 1) (block.push text) ((OpenBlock.announced_push text).trans hannounced)
    rw [(OpenBlock.Same.push text).kind, List.map_congr_left fun other _ => (OpenBlock.Same.push text).delta other] at hrest
    have hcount : seq + (text :: fragments).length = seq + 1 + fragments.length := by
      rw [List.length_cons, Nat.add_assoc, Nat.add_comm 1]
    rw [hcount]
    exact hfirst.append hrest

theorem writes_signature (hkind : block.kind = .thinking) (signature : Option String) :
    Writes serde uuid now (within base items seq block) (signature.map (.thinkingSignature items.length)).toList []
      (within base items seq (block.signed signature)) := by
  cases signature with
  | none => exact .nil _
  | some signature =>
    refine .step rfl ?_ rfl
    have hensured := @ensure_block_within uuid now base items seq block
    rw [hkind] at hensured
    dsimp only [notices]
    unfold write_signature
    rw [hensured]
    dsimp only
    rw [lookup_within]
    dsimp only
    rw [insert_within]
    rfl

/-- A block that stops closes its item. -/
theorem notices_stop (hannounced : block.announced = true) (hindex : block.output_index = items.length) :
    (within base items seq block).notices uuid now (.contentStop items.length) =
      (between base (items ++ [block.item]) seq, block.closing ++ [block.item_done]) := by
  have hput : put (items.map some) items.length (some block.item) = (items ++ [block.item]).map some := by
    have hlength : items.length = (items.map some).length := (List.length_map some).symm
    rw [hlength, put_length, List.map_append]
    rfl
  have hremoved : (within base items seq block).blocks.remove items.length = [] := by simp [within, OrderedMap.remove]
  dsimp only [notices]
  unfold close_block
  rw [announce_within_of_announced hannounced]
  dsimp only
  rw [lookup_within]
  dsimp only
  unfold finish_block
  rw [hremoved, hindex, show (within base items seq block).items = items.map some from rfl, hput]
  unfold between within
  rw [List.length_append]
  rfl

/-- The item of a block of a kind, before it is announced. -/
def unannounced (base : ResponsesStreamEncoder) (index : Nat) (kind : PartKind) : OpenBlock where
  output_index := index
  item_id := item_prefix kind ++ "_" ++ base.id ++ "_" ++ toString index
  kind

/-- A block that starts is announced, but for a call. -/
theorem notices_start (kind : PartKind) :
    (between base items seq).notices uuid now (.contentStart items.length kind) =
      if kind = .toolUse then (within base items seq (unannounced base items.length kind), [])
      else (within base items seq { unannounced base items.length kind with announced := true },
        (unannounced base items.length kind).announcement) := by
  have hnew : (between base items seq).new_block items.length kind =
      if kind = .toolUse then (within base items seq (unannounced base items.length kind), [])
      else (within base items seq (unannounced base items.length kind)).announce items.length := rfl
  dsimp only [notices]
  unfold ensure_block
  rw [ensure_started_of_started rfl]
  dsimp only
  rw [show (between base items seq).blocks.lookup items.length = none from rfl]
  dsimp only
  rw [hnew, announce_within rfl]
  rfl

/-- A call is announced with what it calls. -/
theorem notices_call (id name : String) (signature : Option String) :
    (within base items seq (unannounced base items.length .toolUse)).notices uuid now (.toolCallStart items.length id name signature) =
      (within base items seq { unannounced base items.length .toolUse with announced := true, tool_id := id, tool_name := name },
        { unannounced base items.length .toolUse with tool_id := id, tool_name := name }.announcement) := by
  have hensured := @ensure_block_within uuid now base items seq (unannounced base items.length .toolUse)
  have hid : (if id = "" then (unannounced base items.length .toolUse).tool_id else id) = id := by
    split
    next hempty => exact hempty.symm
    next => rfl
  have hname : (if name = "" then (unannounced base items.length .toolUse).tool_name else name) = name := by
    split
    next hempty => exact hempty.symm
    next => rfl
  dsimp only [notices]
  unfold start_call
  rw [show (unannounced base items.length .toolUse).kind = .toolUse from rfl] at hensured
  rw [hensured]
  dsimp only
  rw [lookup_within]
  dsimp only
  rw [insert_within, hid, hname]
  exact congrArg (fun step : ResponsesStreamEncoder × List Notice => (step.1, [] ++ step.2))
    (@announce_within base items seq { unannounced base items.length .toolUse with tool_id := id, tool_name := name } rfl)

/-- A block that starts is announced at once, and a call with what it calls. -/
theorem writes_opening (streamed : StreamedBlock) :
    Writes serde uuid now (between base items seq) (.contentStart items.length streamed.kind :: streamed.call_events items.length)
      (streamed.item_start items.length base.id).announcement
      (within base items (seq + (streamed.item_start items.length base.id).announcement.length)
        { streamed.item_start items.length base.id with announced := true }) := by
  cases streamed with
  | toolUse id name fragments =>
    have hstart : Writes serde uuid now (between base items seq) [.contentStart items.length .toolUse] []
        (within base items seq (unannounced base items.length .toolUse)) := .step rfl (notices_start .toolUse) rfl
    exact hstart.append (.step rfl (notices_call id name none) rfl)
  | text fragments => exact .step rfl (notices_start .text) rfl
  | refusal fragments => exact .step rfl (notices_start .refusal) rfl
  | thinking fragments signature => exact .step rfl (notices_start .thinking) rfl

end States

end ResponsesStreamEncoder

namespace StreamedBlock

variable (streamed : StreamedBlock) (index : Nat) (id : String)

/-- The item of a block as it is announced. -/
def first : OpenBlock := { streamed.item_start index id with announced := true }

/-- The item of a block when it is closed. -/
def last : OpenBlock := ((streamed.first index id).pushed streamed.fragments).signed streamed.signature

/-- The frames that tell of a block. -/
def notices : List Notice :=
  (streamed.first index id).announcement ++ streamed.fragments.map (streamed.first index id).delta ++
    ((streamed.last index id).closing ++ [(streamed.last index id).item_done])

/-- A block has a signature only if it is a reasoning. -/
theorem kind_of_signature (h : streamed.signature ≠ none) : streamed.kind = .thinking := by
  cases streamed with
  | thinking fragments signature => rfl
  | _ => exact absurd rfl h

theorem same_last : (streamed.first index id).Same (streamed.last index id) :=
  (OpenBlock.Same.pushed streamed.fragments).trans (OpenBlock.Same.signed streamed.signature)

theorem signature_last : (streamed.last index id).signature = streamed.signature := by
  have hnone : ((streamed.first index id).pushed streamed.fragments).signature = none := OpenBlock.signature_pushed streamed.fragments
  unfold last OpenBlock.signed
  cases streamed.signature with
  | none => exact hnone
  | some signature => rfl

theorem announced_last : (streamed.last index id).announced = true :=
  (OpenBlock.announced_signed streamed.signature).trans (OpenBlock.announced_pushed streamed.fragments)

end StreamedBlock

/-- The events that tell of some blocks. -/
def block_events (blocks : List StreamedBlock) (first : Nat) : List StreamEvent :=
  (blocks.zipIdx first).flatMap fun (block, index) => block.events index

/-- The frames that tell of some blocks. -/
def block_notices (blocks : List StreamedBlock) (first : Nat) (id : String) : List Notice :=
  (blocks.zipIdx first).flatMap fun (block, index) => block.notices index id

/-- The items of some blocks. -/
def block_items (blocks : List StreamedBlock) (first : Nat) (id : String) : List Value :=
  (blocks.zipIdx first).map fun (block, index) => (block.last index id).item

/-- The events of an answer: it starts, its blocks come one after another, and it ends. -/
def answer_events (id model : String) (blocks : List StreamedBlock) (usage : Usage) (reason : StopReason)
    (stop_sequence : Option String) : List StreamEvent :=
  .start id model none :: block_events blocks 0 ++ [.usage usage, .stop reason stop_sequence, .done]

namespace ResponsesStreamEncoder

variable {serde : Serde} {uuid : String} {now : Int} {base : ResponsesStreamEncoder} {items : List Value} {seq : Nat}

/-- A block is written as one item. -/
theorem writes_block (streamed : StreamedBlock) :
    Writes serde uuid now (between base items seq) (streamed.events items.length) (streamed.notices items.length base.id)
      (between base (items ++ [(streamed.last items.length base.id).item]) (seq + (streamed.notices items.length base.id).length)) := by
  have hopening := @writes_opening serde uuid now base items seq streamed
  let first := streamed.first items.length base.id
  have hfragments := @writes_fragments serde uuid now base items (seq + first.announcement.length) first rfl streamed.fragments
  let told := first.pushed streamed.fragments
  have hsigned : ∀ seq, Writes serde uuid now (within base items seq told) (streamed.signature.map (.thinkingSignature items.length)).toList []
      (within base items seq (told.signed streamed.signature)) := by
    intro seq
    by_cases hnone : streamed.signature = none
    · rw [hnone]
      exact .nil _
    · exact writes_signature ((OpenBlock.Same.pushed streamed.fragments).kind.trans (streamed.kind_of_signature hnone)) _
  let last := streamed.last items.length base.id
  have hstop : ∀ seq, Writes serde uuid now (within base items seq last) [.contentStop items.length] (last.closing ++ [last.item_done])
      (between base (items ++ [last.item]) (seq + (last.closing ++ [last.item_done]).length)) := fun seq =>
    .step rfl (notices_stop (streamed.announced_last _ _) (streamed.same_last _ _).output_index) rfl
  have hall := ((hopening.append hfragments).append (hsigned _)).append (hstop _)
  have hcount : seq + (streamed.notices items.length base.id).length =
      seq + first.announcement.length + streamed.fragments.length + (last.closing ++ [last.item_done]).length := by
    change seq + (first.announcement ++ streamed.fragments.map first.delta ++ (last.closing ++ [last.item_done])).length = _
    simp only [List.length_append, List.length_map]
    omega
  rw [hcount]
  rw [List.append_nil] at hall
  exact hall

/-- Blocks are written one after another, each as an item. -/
theorem writes_blocks (blocks : List StreamedBlock) :
    Writes serde uuid now (between base items seq) (block_events blocks items.length) (block_notices blocks items.length base.id)
      (between base (items ++ block_items blocks items.length base.id)
        (seq + (block_notices blocks items.length base.id).length)) := by
  induction blocks generalizing items seq with
  | nil =>
    rw [show block_items [] items.length base.id = [] from rfl, List.append_nil]
    exact .nil _
  | cons block blocks ih =>
    have hfirst := @writes_block serde uuid now base items seq block
    let item := (block.last items.length base.id).item
    have hrest := @ih (items ++ [item]) (seq + (block.notices items.length base.id).length)
    have hlength : (items ++ [item]).length = items.length + 1 := List.length_append
    rw [hlength, List.append_assoc, Nat.add_assoc, ← List.length_append] at hrest
    exact hfirst.append hrest

section Answers

variable (uuid : String) (now : Int) (id model : String)

/-- An encoder whose stream has begun. -/
def begun : ResponsesStreamEncoder := (({} : ResponsesStreamEncoder).notices uuid now (.start id model none)).1

/-- An encoder that knows the counts of a stream and why it ended. -/
def informed (items : List Value) (usage : Usage) (reason : StopReason) : ResponsesStreamEncoder :=
  { between { begun uuid now id model with usage, stop_reason := some reason } items 0 with finished := true }

/-- The items of an answer. -/
def answer_items (blocks : List StreamedBlock) : List Value := block_items blocks 0 (begun uuid now id model).id

/-- The final response of an answer. -/
def answer (blocks : List StreamedBlock) (usage : Usage) (reason : StopReason) : Value :=
  (informed uuid now id model (answer_items uuid now id model blocks) usage reason).snapshot (status_str reason) true

/-- The frames of an answer. -/
def answer_notices (blocks : List StreamedBlock) (usage : Usage) (reason : StopReason) : List Notice :=
  opening ((begun uuid now id model).snapshot "in_progress" false) ++ block_notices blocks 0 (begun uuid now id model).id ++
    [(terminal_event (status_str reason), [("response", answer uuid now id model blocks usage reason)])]

variable {uuid now id model}

theorem writes_start : Writes serde uuid now {} [.start id model none] (opening ((begun uuid now id model).snapshot "in_progress" false))
    (between (begun uuid now id model) [] 2) := .step rfl rfl rfl

/-- The end of a stream is written as the final response. -/
theorem writes_end (usage : Usage) (reason : StopReason) (stop_sequence : Option String) (husage : base.usage = {}) :
    ∃ after : ResponsesStreamEncoder, after.finished = true ∧
      Writes serde uuid now (between base items seq) [.usage usage, .stop reason stop_sequence, .done]
        [(terminal_event (status_str reason),
          [("response", { between { base with usage, stop_reason := some reason } items 0 with finished := true }.snapshot (status_str reason) true)])]
        after := by
  have hcounted : Writes serde uuid now (between base items seq) [.usage usage] [] (between { base with usage } items seq) := by
    refine .step rfl ?_ rfl
    have hmerged : base.usage.merge_max usage = usage := by rw [husage, Usage.default_merge_max]
    change ({ between base items seq with usage := base.usage.merge_max usage }, []) = _
    rw [hmerged]
    rfl
  have hreason : Writes serde uuid now (between { base with usage } items seq) [.stop reason stop_sequence] []
      (between { base with usage, stop_reason := some reason } items seq) := .step rfl rfl rfl
  let after := { between { base with usage, stop_reason := some reason } items (seq + 1) with finished := true }
  have hdone : Writes serde uuid now (between { base with usage, stop_reason := some reason } items seq) [.done]
      [(terminal_event (status_str reason), [("response", after.snapshot (status_str reason) true)])] after := .step rfl rfl rfl
  exact ⟨after, rfl, (hcounted.append hreason).append hdone⟩

/-- The frames that are written for an answer. -/
theorem outputs_answer (blocks : List StreamedBlock) (usage : Usage) (reason : StopReason) (stop_sequence : Option String) :
    (stream_encoder serde uuid now).outputs (answer_events id model blocks usage reason stop_sequence) =
      numbered serde 0 (answer_notices uuid now id model blocks usage reason) := by
  have hblocks := @writes_blocks serde uuid now (begun uuid now id model) [] 2 blocks
  obtain ⟨after, hfinished, hend⟩ := @writes_end serde (begun uuid now id model) (answer_items uuid now id model blocks)
    (2 + (block_notices blocks 0 (begun uuid now id model).id).length) uuid now usage reason stop_sequence rfl
  have hall := (writes_start.append hblocks).append hend
  have hclosed : (stream_encoder serde uuid now).finish after = (after, []) := by
    change after.finish serde uuid now = _
    rw [ResponsesStreamEncoder.finish, hfinished]
    rfl
  refine (Transducer.Passes.outputs hall.passes).trans ?_
  rw [hclosed]
  exact List.append_nil _

end Answers

end ResponsesStreamEncoder

end refract.codec.responses
