import Refract.Codec.Messages.Steps

open refract.json refract.ir refract.machine refract.stream

namespace refract.codec.messages

open MessagesStreamEncoder

/-- The tokens of a list of frames that belong to the message sequence. -/
def message_tokens (serde : Serde) (frames : List SseFrame) : List Token := sequence (frames.map (token serde))

@[simp] theorem message_tokens_append (serde : Serde) (frames more : List SseFrame) :
    message_tokens serde (frames ++ more) = message_tokens serde frames ++ message_tokens serde more := by
  simp [message_tokens]

@[simp] theorem message_tokens_nil (serde : Serde) : message_tokens serde [] = [] := rfl

variable {serde : Serde} {t t' : Tracker} {e e' : MessagesStreamEncoder}
  {tokens more : List Token}

theorem sequence_of_blocks (started : Bool) (closed : List (Nat × Nat)) (current : Option (Nat × Nat)) :
    sequence (start_token started ++ closed_blocks closed ++ open_tokens current) =
      start_token started ++ closed_blocks closed ++ open_tokens current := by
  apply List.filter_eq_self.mpr
  intro t ht
  simp only [List.mem_append] at ht
  rcases ht with (ht | ht) | ht
  · cases started <;> simp [start_token] at ht
    subst ht
    rfl
  · obtain ⟨b, _, hb⟩ := List.mem_flatMap.mp ht
    simp only [block, List.cons_append, List.mem_cons, List.mem_append, List.mem_replicate,
      List.not_mem_nil, or_false] at hb
    rcases hb with rfl | ⟨_, rfl⟩ | rfl <;> rfl
  · cases current with
    | none => cases ht
    | some b =>
      simp only [open_tokens, List.mem_cons, List.mem_replicate] at ht
      rcases ht with rfl | ⟨_, rfl⟩ <;> rfl

namespace Tracks

/-- A running encoder has written nothing that stands outside the sequence. -/
theorem sequence_eq (h : Tracks t e tokens) : sequence tokens = tokens := by
  obtain ⟨closed, current, rfl, _, _⟩ := h.written
  exact sequence_of_blocks e.started closed current

/-- What a running encoder adds while it keeps running belongs to the sequence. -/
theorem message_tokens_eq (h : Tracks t e tokens) {frames : List SseFrame}
    (h' : Tracks t' e' (tokens ++ frames.map (token serde))) :
    message_tokens serde frames = frames.map (token serde) := by
  have heq := h'.sequence_eq
  rwa [sequence_append, h.sequence_eq, List.append_cancel_left_eq] at heq

theorem sequence_more (h : Tracks t e tokens) {frames : List SseFrame}
    (h' : Tracks t' e' (tokens ++ frames.map (token serde))) :
    Tracks t' e' (tokens ++ message_tokens serde frames) := by
  rwa [h.message_tokens_eq h']

/-- Every event that does not end the stream is tracked. -/
theorem encode (uuid : Nat → String) (hserde : serde.Lawful) (h : Tracks t e tokens) {event : StreamEvent}
    (hevent : event.is_terminal = false) :
    Tracks (t.step event) (e.encode serde uuid event).1
      (tokens ++ message_tokens serde (e.encode serde uuid event).2) := by
  have hlive : ¬ e.finished = true := by simp [h.live]
  unfold MessagesStreamEncoder.encode
  rw [if_neg hlive]
  cases event with
  | start id model usage =>
    have hfields : Tracks t (if e.started then e else { e with
        id, model
        input_usage := usage.getD e.input_usage
        usage := usage.getD e.usage }) tokens := by
      split
      · exact h
      · exact h.congr _ rfl rfl rfl rfl rfl
    exact hfields.sequence_more (hfields.ensure_started uuid hserde).1
  | contentStart index kind =>
    by_cases hkind : kind = .toolUse
    · simpa [hkind, Tracker.step] using h
    · simp only [hkind, if_false, Tracker.step]
      exact h.sequence_more (h.open_block uuid hserde index kind).1
  | textDelta index text => exact h.sequence_more (h.write_delta uuid hserde index .text (by simp))
  | refusalDelta index text => exact h.sequence_more (h.write_delta uuid hserde index .refusal (by simp))
  | thinkingDelta index text => exact h.sequence_more (h.write_delta uuid hserde index .thinking (by simp))
  | thinkingSignature index signature => exact h.sequence_more (h.write_delta uuid hserde index .thinking (by simp))
  | toolCallStart index id name signature => exact h.sequence_more (h.open_tool_block uuid hserde index id name).1
  | toolCallArgsDelta index fragment => exact h.sequence_more (h.write_fragment uuid hserde index fragment)
  | contentStop index => exact h.sequence_more (h.stop_block hserde index)
  | usage usage => 
    simpa [Tracker.step] using h.congr { e with usage := e.usage.merge_max usage } rfl rfl rfl rfl rfl
  | stop reason stop_sequence =>
    simpa [Tracker.step] using h.congr { e with
      stop_reason := some reason, stop_sequence := stop_sequence.or e.stop_sequence } rfl rfl rfl rfl rfl
  | ping => simpa [Tracker.step, message_tokens, token_ping hserde, sequence, Token.is_aside] using h
  | done => cases hevent
  | error message kind => cases hevent

theorem init : Tracks {} {} [] where
  live := rfl
  valid := ⟨List.nodup_nil, by simp, by simp⟩
  remap := rfl
  next_index := rfl
  opened := rfl
  unstarted _ := rfl
  written := ⟨[], none, rfl, rfl, rfl⟩

/-- A run of events that do not end the stream is tracked. -/
theorem run (uuid : Nat → String) (hserde : serde.Lawful) (es : List StreamEvent) (hes : ∀ ev ∈ es, ev.is_terminal = false) :
    Tracks (track es) ((stream_encoder serde uuid).advance {} es)
      (message_tokens serde ((stream_encoder serde uuid).emit {} es)) := by
  let P (es : List StreamEvent) (frames : List SseFrame) (e : MessagesStreamEncoder) : Prop :=
    (∀ ev ∈ es, ev.is_terminal = false) → Tracks (track es) e (message_tokens serde frames)
  have hstep : ∀ es frames e ev, P es frames e →
      P (es ++ [ev]) (frames ++ (e.encode serde uuid ev).2) (e.encode serde uuid ev).1 := by
    intro es frames e ev hP hall
    have hev : ev.is_terminal = false := hall ev (by simp)
    have htracks := (hP fun x hx => hall x (List.mem_append_left _ hx)).encode uuid hserde hev
    rwa [track_append_singleton, message_tokens_append]
  have hrun := Transducer.history (T := stream_encoder serde uuid) hstep (s := {}) (fun _ => init) es
  exact hrun hes

end Tracks

/-- Ending a message closes its block and writes the two closing events. -/
theorem wrap_up_frames (serde : Serde) (uuid : Nat → String) (hlive : e.finished = false) : ∃ reason stop_sequence usage,
    (e.wrap_up serde uuid).2 = (e.ensure_started serde uuid).2 ++
      ((e.ensure_started serde uuid).1.close_open serde).2 ++
      [message_delta_frame serde reason stop_sequence usage, frame serde "message_stop" []] := by
  refine ⟨e.stop_reason.getD .stop, e.stop_sequence, e.usage, ?_⟩
  obtain ⟨started, id, model, input_usage, remap, opened, next_index, usage, stop_reason, stop_sequence,
    finished, drawn⟩ := e
  subst hlive
  cases opened <;> cases started <;> by_cases hid : id = "" <;>
    simp [wrap_up, ensure_started, close_open, hid]

theorem wrap_up_finished (serde : Serde) (uuid : Nat → String) (e : MessagesStreamEncoder) : (e.wrap_up serde uuid).1.finished = true := by
  unfold wrap_up
  split
  · assumption
  · obtain ⟨started, id, model, input_usage, remap, opened, next_index, usage, stop_reason, stop_sequence,
      finished, drawn⟩ := e
    cases opened <;> cases started <;> by_cases hid : id = "" <;>
      simp [ensure_started, close_open, hid]

/-- The tokens of a message that has been ended. -/
theorem Tracks.wrap_up (uuid : Nat → String) (hserde : serde.Lawful) (h : Tracks t e tokens) :
    WellFormed (tokens ++ message_tokens serde (e.wrap_up serde uuid).2) ↔ t.openings <+: t.mentions := by
  obtain ⟨hstart, hstarted⟩ := h.ensure_started uuid hserde
  obtain ⟨hclosed, hstarted', hopened⟩ := hstart.close_open hserde
  obtain ⟨reason, stop_sequence, usage, hframes⟩ := wrap_up_frames serde uuid h.live
  obtain ⟨closed, current, htokens, hcurrent, hopenings⟩ := hclosed.written
  have hnone : current = none := by
    rw [hopened] at hcurrent
    simpa using hcurrent
  subst hnone
  have hends : message_tokens serde [message_delta_frame serde reason stop_sequence usage,
      frame serde "message_stop" []] = [.messageDelta, .messageStop] := by
    simp [message_tokens, token_message_delta hserde, token_message_stop hserde, sequence, Token.is_aside]
  rw [hframes, message_tokens_append, message_tokens_append, h.message_tokens_eq hstart,
    hstart.message_tokens_eq hclosed, hends, ← List.append_assoc, ← List.append_assoc, htokens,
    hstarted'.trans hstarted]
  simp only [start_token, if_true, open_tokens, List.append_nil, List.cons_append, List.nil_append]
  rw [← List.cons_append, wellFormed_closed]
  simp only [Option.map_none, Option.toList_none, List.append_nil] at hopenings
  have hlength : closed.length = t.openings.length := by
    simpa [Tracker.close] using congrArg List.length hopenings
  rw [hopenings, hlength]
  exact map_idxOf_eq_range h.valid.nodup h.valid.openings

/-- The blocks a running encoder has opened, by their written indices. -/
theorem Tracks.opens (h : Tracks t e tokens) :
    tokens.filterMap Token.opens = t.openings.map (t.mentions.idxOf ·) := by
  obtain ⟨closed, current, rfl, _, hopenings⟩ := h.written
  have hstart : (start_token e.started).filterMap Token.opens = [] := by
    cases e.started <;> rfl
  have hcurrent : (open_tokens current).filterMap Token.opens = (current.map Prod.fst).toList := by
    cases current with
    | none => rfl
    | some b =>
      have hdeltas : (List.replicate b.2 (Token.blockDelta b.1)).filterMap Token.opens = [] := by
        rw [List.filterMap_eq_nil_iff]
        intro x hx
        rw [List.eq_of_mem_replicate hx]
        rfl
      simp [open_tokens, hdeltas, Token.opens]
  rw [List.filterMap_append, List.filterMap_append, hstart, filterMap_opens_closed, hcurrent,
    List.nil_append, hopenings]

/-- What a running encoder has written can be completed exactly when its blocks
    were opened in order. -/
theorem Tracks.extensible (hserde : serde.Lawful) (h : Tracks t e tokens) :
    (∃ rest, WellFormed (tokens ++ rest)) ↔ t.openings <+: t.mentions := by
  constructor
  · rintro ⟨rest, hrest⟩
    obtain ⟨n, hopens⟩ := hrest.opens
    rw [List.filterMap_append, h.opens] at hopens
    rw [← map_idxOf_eq_range h.valid.nodup h.valid.openings]
    have hbegins : t.openings.map (t.mentions.idxOf ·) <+: List.range n := ⟨_, hopens⟩
    have hlength := hbegins.length_le
    rw [List.length_map, List.length_range] at hlength
    rw [List.prefix_iff_eq_take.mp hbegins, List.length_map, List.take_range, Nat.min_eq_left hlength]
  · intro horder
    exact ⟨_, (h.wrap_up (fun _ => "") hserde).mpr horder⟩

/-- A running encoder has not ended the message. -/
theorem Tracks.not_wellFormed (h : Tracks t e tokens) : ¬ WellFormed tokens := by
  rintro ⟨deltas, heq⟩
  have hstop : Token.messageStop ∈ tokens := by
    rw [heq]
    simp
  obtain ⟨closed, current, rfl, _, _⟩ := h.written
  simp only [List.mem_append] at hstop
  rcases hstop with (hstop | hstop) | hstop
  · cases hs : e.started <;> simp [hs, start_token] at hstop
  · obtain ⟨b, _, hb⟩ := List.mem_flatMap.mp hstop
    simp [block] at hb
  · cases current <;> simp [open_tokens] at hstop

section Runs

variable (serde : Serde) (uuid : Nat → String)

/-- A finished encoder writes nothing more. -/
theorem outputs_of_finished {e : MessagesStreamEncoder} (hfinished : e.finished = true) (es : List StreamEvent) :
    (stream_encoder serde uuid).emit e es = [] ∧
      ((stream_encoder serde uuid).finish ((stream_encoder serde uuid).advance e es)).2 = [] := by
  have hstep : ∀ (e : MessagesStreamEncoder) ev, e.finished = true →
      ((stream_encoder serde uuid).step e ev).1.finished = true := by
    intro e ev hfinished
    simp [stream_encoder, encode, hfinished]
  have hquiet : ∀ (e : MessagesStreamEncoder) ev, e.finished = true →
      ((stream_encoder serde uuid).step e ev).2 = [] := by
    intro e ev hfinished
    simp [stream_encoder, encode, hfinished]
  refine ⟨Transducer.emit_absorbed hstep hquiet hfinished es, ?_⟩
  have hend := Transducer.advance_invariant (P := fun e : MessagesStreamEncoder => e.finished = true) hstep hfinished es
  have hwrap : ∀ e : MessagesStreamEncoder, e.finished = true → (e.wrap_up serde uuid).2 = [] := by
    intro e hfinished
    simp [wrap_up, hfinished]
  exact hwrap _ hend

/-- The frames of a whole run: those of the events before the end, and those of
    the end itself. -/
theorem outputs_live (hserde : serde.Lawful) (es : List StreamEvent) :
    (stream_encoder serde uuid).outputs es =
      (stream_encoder serde uuid).emit {} (live es) ++
        match ending es with
        | some (.error message kind) => [error_frame serde message kind]
        | _ => (((stream_encoder serde uuid).advance {} (live es)).wrap_up serde uuid).2 := by
  have hlive := (Tracks.run uuid hserde (live es) fun ev => is_terminal_of_mem_live).live
  obtain ⟨hall, hnone, _⟩ | ⟨ev, hsplit, hev, hsome⟩ := live_cases es
  · rw [hnone, hall]
    rfl
  · rw [hsome]
    conv_lhs => rw [hsplit, Transducer.outputs_append]
    generalize late es = tail
    have hinit : (stream_encoder serde uuid).init = {} := rfl
    rw [hinit]
    congr 1
    generalize (stream_encoder serde uuid).advance {} (live es) = e at hlive ⊢
    rw [Transducer.emit_cons, Transducer.advance_cons]
    have hstep : (stream_encoder serde uuid).step e ev = e.encode serde uuid ev := rfl
    rw [hstep]
    cases ev with
    | done =>
      have hdone : e.encode serde uuid .done = e.wrap_up serde uuid := by simp [encode, hlive]
      obtain ⟨hquiet, hend⟩ := outputs_of_finished serde uuid (wrap_up_finished serde uuid e) tail
      simp only [hdone, hquiet, hend, List.append_nil]
    | error message kind =>
      have herror : e.encode serde uuid (.error message kind) =
          ({ e with finished := true }, [error_frame serde message kind]) := by simp [encode, hlive]
      obtain ⟨hquiet, hend⟩ := outputs_of_finished serde uuid (e := { e with finished := true }) rfl tail
      simp only [herror, hquiet, hend, List.append_nil]
    | _ => cases hev

/-- The message sequence of a run is complete exactly when its blocks are
    opened in order and no error ends it; a run that an error ends writes an
    initial part of a message exactly when its blocks are opened in order. -/
theorem outputs_wellFormed (hserde : serde.Lawful) (es : List StreamEvent) :
    (WellFormed (message_tokens serde ((stream_encoder serde uuid).outputs es)) ↔
      BlocksInOrder es ∧ ¬ EndsInError es) ∧
    (EndsInError es →
      ((∃ rest, WellFormed (message_tokens serde ((stream_encoder serde uuid).outputs es) ++ rest)) ↔
        BlocksInOrder es)) := by
  have htracks := Tracks.run uuid hserde (live es) fun ev => is_terminal_of_mem_live
  rw [outputs_live serde uuid hserde, message_tokens_append]
  by_cases herror : EndsInError es
  · obtain ⟨message, kind, hending⟩ := herror
    have hframe : message_tokens serde [error_frame serde message kind] = [] := by
      simp [message_tokens, token_error hserde, sequence, Token.is_aside]
    simp only [hending, hframe, List.append_nil]
    refine ⟨⟨fun h => absurd h htracks.not_wellFormed, fun h => absurd ⟨message, kind, hending⟩ h.2⟩, ?_⟩
    exact fun _ => htracks.extensible hserde
  · refine ⟨?_, fun h => absurd h herror⟩
    have hwrap := htracks.wrap_up uuid hserde
    have hmatch : (match ending es with
        | some (.error message kind) => [error_frame serde message kind]
        | _ => (((stream_encoder serde uuid).advance {} (live es)).wrap_up serde uuid).2) =
        (((stream_encoder serde uuid).advance {} (live es)).wrap_up serde uuid).2 := by
      split
      · exact absurd ⟨_, _, ‹_›⟩ herror
      · rfl
    rw [hmatch, hwrap]
    exact ⟨fun h => ⟨h, herror⟩, fun h => h.1⟩

end Runs

end refract.codec.messages
