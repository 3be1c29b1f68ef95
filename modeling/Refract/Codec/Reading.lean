import Refract.Codec.Chat.Response
import Refract.Codec.Gemini.Response
import Refract.Codec.Messages.Reading
import Refract.Codec.Responses.Response

open refract.core refract.json refract.ir

namespace refract.codec

/-- Reads a response of a protocol. -/
def decode_response (serde : Serde) (uuid : String) (now : Int) : Protocol → Value → Except GatewayError UnifiedResponse
  | .chat => chat.decode_response serde now
  | .responses => responses.decode_response serde now
  | .messages => messages.decode_response serde now
  | .gemini => gemini.decode_response serde uuid now

/-- An error that the upstream reports in place of a response, which may be
    wrapped in another object. -/
inductive responses.ErrorEnvelope : Value → Prop
  | error {obj : Map} (herror : ((Map.get obj "error").filter (!·.is_null)).isSome) : ErrorEnvelope (.object obj)
  | wrapped {obj inner : Map} (hinner : (Map.get obj "response").bind Value.as_object = some inner)
      (h : ErrorEnvelope (.object inner)) : ErrorEnvelope (.object obj)

/-- The upstream answers with an error of its own. -/
def ErrorEnvelope : Protocol → Value → Prop
  | .chat, raw => ((raw.get "error").filter (!·.is_null)).isSome
  | .responses, raw => responses.ErrorEnvelope raw
  | .messages, raw => raw.get_str "type" = some "error"
  | .gemini, raw => ((raw.get "error").bind Value.as_object).isSome

/-- The document is a response: an object, whose blocks are readable where the
    protocol has blocks. -/
def Readable (protocol : Protocol) (raw : Value) : Prop :=
  raw.is_object ∧ (protocol = .messages →
    ∀ items, raw.get "content" = some (.array items) → ∀ item ∈ items, messages.ReadableBlock item)

/-- What a reading of a document comes to: the upstream's own error, a response,
    or an error that blames a request. -/
def Outcome (envelope readable : Prop) (result : Except GatewayError UnifiedResponse) : Prop :=
  (envelope ∧ ∃ error, result = .error error) ∨
    (¬ envelope ∧ readable ∧ ∃ response, result = .ok response) ∨
    (¬ envelope ∧ ¬ readable ∧ ∃ message, result = .error (.invalid_request message))

section Reading

variable (serde : Serde) (uuid : String) (now : Int)

theorem chat_decode_response_outcome (raw : Value) :
    Outcome (ErrorEnvelope .chat raw) (Readable .chat raw) (chat.decode_response serde now raw) := by
  unfold chat.decode_response
  split
  · rename_i err herr
    exact .inl ⟨by simp [ErrorEnvelope, herr], _, rfl⟩
  · rename_i herr
    have hnot : ¬ ErrorEnvelope .chat raw := by simp [ErrorEnvelope, herr]
    split
    · exact .inr (.inl ⟨hnot, ⟨rfl, by simp⟩, _, rfl⟩)
    · rename_i hobject
      refine .inr (.inr ⟨hnot, ?_, _, rfl⟩)
      rintro ⟨his, -⟩
      cases raw with
      | object obj => exact hobject obj rfl
      | _ => cases his

theorem gemini_decode_response_outcome (raw : Value) :
    Outcome (ErrorEnvelope .gemini raw) (Readable .gemini raw) (gemini.decode_response serde uuid now raw) := by
  have henvelope : ErrorEnvelope .gemini raw ↔ (gemini.parse_error_body serde raw).isSome := by
    cases hbody : (raw.get "error").bind Value.as_object with
    | none => simp only [ErrorEnvelope, gemini.parse_error_body, hbody, Option.isSome_none]
    | some err =>
      simp only [ErrorEnvelope, gemini.parse_error_body, hbody, Option.isSome_some, true_iff]
      split <;> rfl
  unfold gemini.decode_response
  split
  · split
    · rename_i herr
      exact .inl ⟨by simp [henvelope, herr], _, rfl⟩
    · rename_i herr
      exact .inr (.inl ⟨by simp [henvelope, herr], ⟨rfl, by simp⟩, _, rfl⟩)
  · rename_i hobject
    refine .inr (.inr ⟨?_, ?_, _, rfl⟩)
    · intro h
      cases raw with
      | object obj => exact hobject obj rfl
      | _ => cases h
    · rintro ⟨his, -⟩
      cases raw with
      | object obj => exact hobject obj rfl
      | _ => cases his

theorem messages_decode_response_outcome (raw : Value) :
    Outcome (ErrorEnvelope .messages raw) (Readable .messages raw) (messages.decode_response serde now raw) := by
  unfold messages.decode_response
  split
  · rename_i obj
    split
    · rename_i htype
      exact .inl ⟨htype, _, rfl⟩
    · rename_i htype
      have hreads := messages.decode_blocks_reads serde
        fun (item : Value) (_ : item ∈ ((Map.get obj "content").bind Value.as_array).getD []) =>
          messages.decode_block_reads serde item
      have hreadable : Readable .messages (.object obj) ↔
          ∀ item ∈ ((Map.get obj "content").bind Value.as_array).getD [], messages.ReadableBlock item := by
        have hget : (Value.object obj).get "content" = Map.get obj "content" := rfl
        simp only [Readable, hget, Value.is_object, true_and, true_implies]
        cases hcontent : Map.get obj "content" with
        | none => simp
        | some value => cases value <;> simp [Value.as_array]
      obtain ⟨hall, content, hok⟩ | ⟨hall, message, herror⟩ := hreads
      · exact .inr (.inl ⟨htype, hreadable.mpr hall, _, by rw [hok]; rfl⟩)
      · exact .inr (.inr ⟨htype, fun h => hall (hreadable.mp h), message, by rw [herror]; rfl⟩)
  · rename_i hobject
    refine .inr (.inr ⟨?_, ?_, _, rfl⟩)
    · intro h
      cases raw with
      | object obj => exact hobject obj rfl
      | _ => cases h
    · rintro ⟨his, -⟩
      cases raw with
      | object obj => exact hobject obj rfl
      | _ => cases his

theorem responses_decode_response_outcome (raw : Value) :
    Outcome (ErrorEnvelope .responses raw) (Readable .responses raw) (responses.decode_response serde now raw) := by
  have hobject : ∀ obj : Map, Readable .responses (.object obj) := fun obj => ⟨rfl, by simp⟩
  fun_induction responses.decode_response serde now raw with
  | case1 obj err herr => exact .inl ⟨.error (by simp [herr]), _, rfl⟩
  | case2 obj herr inner hinner ih =>
    have henvelope : ErrorEnvelope .responses (.object inner) ↔ ErrorEnvelope .responses (.object obj) := by
      constructor
      · exact .wrapped hinner
      · rintro (⟨herror⟩ | ⟨hwrapped, h⟩)
        · simp [herr] at herror
        · rw [hinner] at hwrapped
          exact Option.some.inj hwrapped ▸ h
    obtain ⟨h, herror⟩ | ⟨h, -, hok⟩ | ⟨-, hnot, -⟩ := ih
    · exact .inl ⟨henvelope.mp h, herror⟩
    · exact .inr (.inl ⟨fun h' => h (henvelope.mpr h'), hobject obj, hok⟩)
    · exact absurd (hobject inner) hnot
  | case3 obj herr hinner content =>
    refine .inr (.inl ⟨?_, hobject obj, _, rfl⟩)
    rintro (⟨herror⟩ | ⟨hwrapped, -⟩)
    · simp [herr] at herror
    · rw [hinner] at hwrapped
      cases hwrapped
  | case4 raw hnot =>
    refine .inr (.inr ⟨?_, ?_, _, rfl⟩)
    · rintro (⟨-⟩ | ⟨-, -⟩)
      · exact hnot _ rfl
      · exact hnot _ rfl
    · rintro ⟨his, -⟩
      cases raw with
      | object obj => exact hnot obj rfl
      | _ => cases his

/-- An answer that is no error of the upstream and cannot be read is put down to
    an invalid request. -/
theorem decode_response_outcome (protocol : Protocol) (raw : Value) :
    Outcome (ErrorEnvelope protocol raw) (Readable protocol raw) (decode_response serde uuid now protocol raw) := by
  cases protocol with
  | chat => exact chat_decode_response_outcome serde now raw
  | responses => exact responses_decode_response_outcome serde now raw
  | messages => exact messages_decode_response_outcome serde now raw
  | gemini => exact gemini_decode_response_outcome serde uuid now raw

end Reading

end refract.codec
