import Refract.Codec.Chat.Encoder
import Refract.Codec.Gemini.Decoder
import Refract.Codec.Gemini.Encoder
import Refract.Codec.Messages.Decoder
import Refract.Codec.Messages.Encoder
import Refract.Codec.Responses.Decoder
import Refract.Codec.Responses.Encoder
import Refract.Core.Error

open refract.core refract.json refract.machine refract.stream

namespace refract.codec

/-- The events of an upstream stream: those of its frames, and those that close
    it. The identifier names a Gemini response that has none. -/
def decode_all (serde : Serde) (uuid : String) (protocol : Protocol) (frames : List SseFrame) : List StreamEvent :=
  match protocol with
  | .chat => (chat.stream_decoder serde).outputs frames
  | .responses => (responses.stream_decoder serde).outputs frames
  | .messages => (messages.stream_decoder serde).outputs frames
  | .gemini => (gemini.stream_decoder serde uuid).outputs frames

variable {serde : Serde} (hserde : serde.Lawful) {v : Value} (hv : v.WellFormed)

include hserde hv

/-- A frame that holds a document is decoded as that document. -/
theorem chat.ChatStreamDecoder.decode_document (self : ChatStreamDecoder) (event : Option String) :
    self.decode serde ⟨event, serde.to_string v⟩ = self.decode_chunk v := by
  have hempty := hserde.to_string_ne_empty hv
  have hdone : serde.to_string v ≠ DONE_SENTINEL := hserde.to_string_ne_done hv
  simp only [decode, hserde.trim_to_string v hv, hempty, hdone, if_false, hserde.from_str_to_string v hv]

theorem messages.MessagesStreamDecoder.decode_document (self : MessagesStreamDecoder) (event : Option String) :
    self.decode serde ⟨event, serde.to_string v⟩ =
      self.decode_event ((event.or (v.get_str "type")).getD "") v := by
  simp only [decode, hserde.trim_to_string v hv, hserde.to_string_ne_empty hv, hserde.to_string_ne_done hv,
    if_false, hserde.from_str_to_string v hv, event_name]

theorem responses.ResponsesStreamDecoder.decode_document (self : ResponsesStreamDecoder) (event : Option String) :
    self.decode serde ⟨event, serde.to_string v⟩ =
      self.decode_event ((event.or (v.get_str "type")).getD "") v := by
  simp only [decode, hserde.trim_to_string v hv, hserde.to_string_ne_empty hv, hserde.to_string_ne_done hv,
    if_false, hserde.from_str_to_string v hv, event_name]

omit hv

/-- The decoder of a Chat stream, on documents instead of frames. -/
def chat.documents : Transducer ChatStreamDecoder Value StreamEvent where
  init := {}
  step := ChatStreamDecoder.decode_chunk
  finish := ChatStreamDecoder.finish

theorem decode_all_chat_documents {vs : List Value} (hvs : ∀ v ∈ vs, v.WellFormed) (uuid : String) :
    decode_all serde uuid .chat (vs.map fun v => .ofData (serde.to_string v)) = chat.documents.outputs vs := by
  have hstep : ∀ s, ∀ v ∈ vs, (chat.stream_decoder serde).step s (.ofData (serde.to_string v)) =
      chat.documents.step s v := by
    intro s v hv
    have hdocument : chat.documents.step = chat.ChatStreamDecoder.decode_chunk := rfl
    rw [chat.stream_decoder_step, hdocument, SseFrame.ofData, s.decode_document hserde (hvs v hv) none]
  rw [decode_all]
  apply Transducer.outputs_map (chat.stream_decoder_init serde) (chat.stream_decoder_finish serde)
  exact hstep

/-- The decoder of a Messages stream, on documents that name their events. -/
def messages.documents : Transducer MessagesStreamDecoder Value StreamEvent where
  init := {}
  step self v := self.decode_event ((v.get_str "type").getD "") v
  finish := MessagesStreamDecoder.finish

/-- Frames may repeat the name of the event that their documents give. -/
theorem decode_all_messages_documents {vs : List Value} {event : Value → Option String}
    (hvs : ∀ v ∈ vs, v.WellFormed ∧ (event v).or (v.get_str "type") = v.get_str "type") (uuid : String) :
    decode_all serde uuid .messages (vs.map fun v => ⟨event v, serde.to_string v⟩) = messages.documents.outputs vs := by
  have hstep : ∀ s, ∀ v ∈ vs, (messages.stream_decoder serde).step s ⟨event v, serde.to_string v⟩ =
      messages.documents.step s v := by
    intro s v hv
    obtain ⟨hwf, hevent⟩ := hvs v hv
    have hdocument : messages.documents.step s v = s.decode_event ((v.get_str "type").getD "") v := rfl
    rw [messages.stream_decoder_step, hdocument, s.decode_document hserde hwf, hevent]
  rw [decode_all]
  apply Transducer.outputs_map (messages.stream_decoder_init serde) (messages.stream_decoder_finish serde)
  exact hstep

end refract.codec
