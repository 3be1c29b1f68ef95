import Refract.Codec.Messages.Conformance
import Refract.Codec.Protocols
import Refract.Json.RoundTrip

open refract.core refract.json refract.machine refract.stream

namespace refract.codec.messages

/-- A stream of any protocol is written as a complete message sequence exactly
    when its events open their blocks in the order of first mention, each block
    once, and no error ends it. When an error ends it, what was written before
    is an initial part of such a sequence under the same condition. -/
theorem transcoded_wellFormed {serde : Serde} (hserde : serde.Lawful) (uuid : Nat → String) (name : String)
    (protocol : Protocol) (frames : List SseFrame) :
    let es := decode_all serde name protocol frames
    let tokens := message_tokens serde ((stream_encoder serde uuid).outputs es)
    (WellFormed tokens ↔ BlocksInOrder es ∧ ¬ EndsInError es) ∧
      (EndsInError es → ((∃ rest, WellFormed (tokens ++ rest)) ↔ BlocksInOrder es)) :=
  outputs_wellFormed serde uuid hserde (decode_all serde name protocol frames)

/-- A chunk of a Chat stream. -/
def chat_chunk (key text : String) : Value :=
  .object
    [("id", .string "c1"), ("model", .string "m"),
      ("choices", .array [.object [("delta", .object [(key, .string text)])]])]

/-- A Chat stream given by the texts of its chunks. -/
def chat_stream (texts : List (String × String)) : List SseFrame :=
  (texts.map fun t => chat_chunk t.1 t.2).map fun v => .ofData (Serde.compact.to_string v)

theorem decode_chat_stream (texts : List (String × String)) :
    decode_all Serde.compact "" .chat (chat_stream texts) =
      chat.documents.outputs (texts.map fun t => chat_chunk t.1 t.2) := by
  apply decode_all_chat_documents Serde.compact_lawful
  intro v hv
  obtain ⟨t, _, rfl⟩ := List.mem_map.mp hv
  simp [chat_chunk]

theorem answer_wellFormed : WellFormed (message_tokens Serde.compact
    ((stream_encoder Serde.compact fun _ => "").outputs
      (decode_all Serde.compact "" .chat (chat_stream [("content", "hello")])))) := by
  refine (transcoded_wellFormed Serde.compact_lawful (fun _ => "") "" .chat _).1.mpr ?_
  rw [decode_chat_stream]
  refine ⟨by decide, ?_⟩
  rintro ⟨message, kind, hending⟩
  have hdone : ending (chat.documents.outputs [chat_chunk "content" "hello"]) = some .done := by decide
  rw [List.map_cons, List.map_nil, hdone] at hending
  cases hending

/-- A Chat stream that thinks and then answers does both under one block index,
    which is opened twice. -/
theorem reasoning_then_answer_not_wellFormed : ¬ WellFormed (message_tokens Serde.compact
    ((stream_encoder Serde.compact fun _ => "").outputs
      (decode_all Serde.compact "" .chat
        (chat_stream [("reasoning_content", "why"), ("content", "hello")])))) := by
  rw [(outputs_wellFormed Serde.compact (fun _ => "") Serde.compact_lawful _).1, decode_chat_stream]
  exact fun h => absurd h.1 (by decide)

end refract.codec.messages
