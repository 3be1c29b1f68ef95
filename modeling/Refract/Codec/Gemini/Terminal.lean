import Refract.Codec.Gemini.Decoder
import Refract.Machine.Ending

open refract.json refract.ir refract.machine refract.stream

namespace refract.codec.gemini

open GeminiStreamDecoder

namespace GeminiStreamDecoder

variable (serde : Serde) (uuid : String) (self : GeminiStreamDecoder)

/-- The step reports no end, and changes nothing about what is known of it. -/
def Quiet (self : GeminiStreamDecoder) (step : GeminiStreamDecoder × List StreamEvent) : Prop :=
  step.1.done = self.done ∧ ∀ e ∈ step.2, e.is_done = false

theorem switch_quiet (kind : PartKind) : self.Quiet (self.switch kind) := by
  unfold switch Quiet
  split
  · split <;> simp [StreamEvent.is_done]
  · simp [StreamEvent.is_done]

theorem decode_content_quiet (part : ContentPart) : self.Quiet (self.decode_content serde part) := by
  have hswitch (self : GeminiStreamDecoder) (kind : PartKind) {more : List StreamEvent}
      (hmore : ∀ e ∈ more, e.is_done = false) :
      (self.switch kind).1.done = self.done ∧ ∀ e ∈ (self.switch kind).2 ++ more, e.is_done = false := by
    obtain ⟨hdone, hmoved⟩ := self.switch_quiet kind
    refine ⟨hdone, ?_⟩
    intro e he
    rcases List.mem_append.mp he with he | he
    · exact hmoved e he
    · exact hmore e he
  unfold decode_content
  split
  · exact hswitch self _ (by simp [StreamEvent.is_done])
  · dsimp only
    rw [List.append_assoc]
    apply hswitch self
    intro e he
    simp only [List.singleton_append, List.mem_cons, Option.mem_toList, Option.map_eq_some_iff] at he
    rcases he with rfl | ⟨signature, _, rfl⟩ <;> rfl
  · exact hswitch { self with tool_index := _ } _ (by simp [StreamEvent.is_done])
  · exact ⟨rfl, by simp⟩

theorem parts_quiet (values : List Value) :
    self.Quiet ((parts serde).advance self values, (parts serde).emit self values) := by
  apply Transducer.emit_forall (T := parts serde) (P := fun s => s.done = self.done) (Q := fun _ => True)
  · intro s part hs _
    have hstep : (parts serde).step s part = s.step_part serde part := rfl
    rw [hstep]
    unfold step_part
    split
    · obtain ⟨hdone, hquiet⟩ := s.decode_content_quiet serde ‹_›
      exact ⟨hdone.trans hs, hquiet⟩
    · exact ⟨hs, by simp⟩
  · rfl
  · simp

theorem decode_finish_reason_quiet (finish : String) : self.Quiet (self.decode_finish_reason finish) := by
  unfold decode_finish_reason
  split
  · exact ⟨rfl, by simp⟩
  · refine ⟨rfl, ?_⟩
    intro e he
    simp only [List.mem_append, Option.mem_toList, Option.map_eq_some_iff, List.mem_singleton] at he
    rcases he with ⟨kind, _, rfl⟩ | rfl <;> rfl

theorem decode_object_quiet (obj : Map) : self.Quiet (self.decode_object serde uuid obj) := by
  obtain ⟨hparts, hcontent⟩ := parts_quiet serde { self with started := true } (candidate_parts (first_candidate obj))
  have hfront : ∀ e ∈ (if self.started then [] else
      [.start (response_id uuid obj) ((non_empty_str (field obj "modelVersion" "model_version")).getD "") none]) ++
        (parts serde).emit { self with started := true } (candidate_parts (first_candidate obj)) ++
        ((field obj "usageMetadata" "usage_metadata").map (StreamEvent.usage <| parse_usage ·)).toList,
      e.is_done = false := by
    intro e he
    simp only [List.mem_append, Option.mem_toList, Option.map_eq_some_iff] at he
    rcases he with (he | he) | ⟨usage, _, rfl⟩
    · split at he
      · cases he
      · rw [List.mem_singleton.mp he]
        rfl
    · exact hcontent e he
    · rfl
  unfold decode_object
  dsimp only
  split
  · rename_i finish _
    obtain ⟨hdone, hstop⟩ := ((parts serde).advance { self with started := true }
      (candidate_parts (first_candidate obj))).decode_finish_reason_quiet finish
    refine ⟨hdone.trans hparts, ?_⟩
    intro e he
    rcases List.mem_append.mp he with he | he
    · exact hfront e he
    · exact hstop e he
  · refine ⟨hparts, ?_⟩
    rw [List.append_nil]
    exact hfront

/-- No frame reports the end of the stream. -/
theorem decode_quiet (frame : SseFrame) : self.Quiet (self.decode serde uuid frame) := by
  unfold decode
  dsimp only
  split
  · exact ⟨rfl, by simp⟩
  · split
    · exact ⟨rfl, by simp⟩
    · split
      · exact ⟨rfl, by simp [StreamEvent.is_done]⟩
      · split
        · exact self.decode_object_quiet serde uuid _
        · exact ⟨rfl, by simp⟩

end GeminiStreamDecoder

/-- The end of a stream is reported once, and last, since only the end of the
    connection is one. -/
theorem decode_endsWith_done (serde : Serde) (uuid : String) (frames : List SseFrame) :
    EndsWith StreamEvent.is_done ((stream_decoder serde uuid).outputs frames) := by
  have hrun := Transducer.emit_forall (T := stream_decoder serde uuid) (P := fun s => s.done = false)
    (Q := fun _ => True) (R := fun e => e.is_done = false) (s := {})
    (fun s frame hdone _ => by
      obtain ⟨hflag, hquiet⟩ := s.decode_quiet serde uuid frame
      rw [stream_decoder_step]
      exact ⟨hflag.trans hdone, hquiet⟩) rfl frames (by simp)
  obtain ⟨hdone, hquiet⟩ := hrun
  rw [Transducer.outputs, stream_decoder_init, stream_decoder_finish]
  apply EndsWith.prepend _ hquiet
  rw [finish, hdone]
  apply (EndsWith.singleton rfl).prepend
  intro e he
  simp only [Option.mem_toList, Option.map_eq_some_iff] at he
  obtain ⟨kind, _, rfl⟩ := he
  rfl

end refract.codec.gemini
