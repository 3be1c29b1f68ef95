import Refract.Codec.Chat.Request
import Refract.Codec.Gemini.Request
import Refract.Codec.Messages.Request
import Refract.Codec.Reading
import Refract.Codec.Responses.Request
import Refract.Machine.Transaction

open refract.core refract.json refract.ir refract.machine

namespace refract.codec

/-- Reads a request of a client. -/
def decode_request (serde : Serde) : Protocol → Value → Except GatewayError UnifiedRequest
  | .chat => chat.decode_request serde
  | .responses => responses.decode_request serde
  | .messages => messages.decode_request serde
  | .gemini => gemini.decode_request serde

/-- Writes a request to an upstream. -/
def encode_request (serde : Serde) : Protocol → UnifiedRequest → Value
  | .chat => chat.encode_request serde
  | .responses => responses.encode_request serde
  | .messages => messages.encode_request
  | .gemini => gemini.encode_request serde

/-- Writes an answer to a client. -/
def encode_response (serde : Serde) : Protocol → UnifiedResponse → Value
  | .chat => chat.encode_response serde
  | .responses => responses.encode_response serde
  | .messages => messages.encode_response
  | .gemini => gemini.encode_response serde

/-- What a Chat request is read into. -/
structure chat.DecodesTo (serde : Serde) (obj : Map) (ir : UnifiedRequest) : Prop where
  conversation : ∃ raw_messages, (Map.get obj "messages").bind Value.as_array = some raw_messages ∧
    chat.decode_messages serde ((Map.get obj "dropped_thinking").bind Value.as_array) 0 raw_messages =
      .ok (ir.system, ir.messages)
  max_output_tokens : ir.max_output_tokens =
    (chat.as_u32 (Map.get obj "max_completion_tokens")).or (chat.as_u32 (Map.get obj "max_tokens"))
  reasoning : ir.reasoning = ((Value.object obj).get_str "reasoning_effort").map fun effort => { effort := some effort }
  extensions : ∃ tools, ir.extensions = chat.request_extensions obj tools

/-- What a Responses request is read into. -/
structure responses.DecodesTo (serde : Serde) (obj : Map) (ir : UnifiedRequest) : Prop where
  conversation : ∃ system, responses.decode_input serde (Map.get obj "input") = .ok (system, ir.messages)
  max_output_tokens : ir.max_output_tokens = (Map.get obj "max_output_tokens").bind responses.as_u32
  reasoning : ir.reasoning = (Map.get obj "reasoning").bind responses.decode_reasoning
  /-- Usage always comes with a stream. -/
  usage : ir.stream_include_usage = ((Map.get obj "stream").bind Value.as_bool).getD false
  extensions : ∃ builtins, ir.extensions = responses.request_extensions obj builtins

/-- What a Messages request is read into. -/
structure messages.DecodesTo (serde : Serde) (obj : Map) (ir : UnifiedRequest) : Prop where
  conversation : messages.decode_conversation serde (Map.get obj "messages") = .ok ir.messages
  max_output_tokens : ∃ max_tokens,
    messages.decode_max_tokens (Map.get obj "max_tokens") = .ok max_tokens ∧ ir.max_output_tokens = some max_tokens
  reasoning : ir.reasoning = (Map.get obj "thinking").bind messages.decode_thinking
  /-- Usage always comes with a stream. -/
  usage : ir.stream_include_usage = ((Map.get obj "stream").bind Value.as_bool).getD false
  extensions : ∃ functions server, ir.extensions = messages.request_extensions obj functions server

/-- What a Gemini request is read into. -/
structure gemini.DecodesTo (serde : Serde) (obj : Map) (ir : UnifiedRequest) : Prop where
  conversation : gemini.decode_conversation serde (Map.get obj "contents") = .ok ir.messages
  max_output_tokens : ir.max_output_tokens = (gemini.generation_config obj).bind fun gen_cfg =>
    gemini.as_u32 (gemini.field gen_cfg "maxOutputTokens" "max_output_tokens")
  reasoning : ir.reasoning = ((gemini.generation_config obj).bind gemini.thinking_config).bind gemini.decode_thinking
  /-- Usage always comes with the last frame. -/
  usage : ir.stream_include_usage = true
  extensions : ∃ tools, ir.extensions = gemini.request_extensions obj tools

variable {serde : Serde} {raw : Value} {ir : UnifiedRequest}

theorem chat.decode_request_decodesTo (h : chat.decode_request serde raw = .ok ir) :
    ∃ obj, raw = .object obj ∧ chat.DecodesTo serde obj ir := by
  unfold chat.decode_request at h
  split at h
  next obj =>
    dsimp only at h
    split at h
    · cases h
    · cases h
    next raw_messages _ hmessages =>
      obtain ⟨conversation, hconversation, rfl⟩ := map_eq_ok.mp h
      exact ⟨obj, rfl, ⟨raw_messages, hmessages, hconversation⟩, rfl, rfl, _, rfl⟩
  · cases h

theorem responses.decode_request_decodesTo (h : responses.decode_request serde raw = .ok ir) :
    ∃ obj, raw = .object obj ∧ responses.DecodesTo serde obj ir := by
  unfold responses.decode_request at h
  split at h
  next obj =>
    split at h
    · cases h
    · obtain ⟨conversation, hconversation, rfl⟩ := map_eq_ok.mp h
      exact ⟨obj, rfl, ⟨conversation.1, hconversation⟩, rfl, rfl, rfl, _, rfl⟩
  · cases h

theorem messages.decode_request_decodesTo (h : messages.decode_request serde raw = .ok ir) :
    ∃ obj, raw = .object obj ∧ messages.DecodesTo serde obj ir := by
  unfold messages.decode_request at h
  split at h
  next obj =>
    obtain ⟨model, -, h⟩ := bind_eq_ok.mp h
    obtain ⟨max_tokens, hmax, h⟩ := bind_eq_ok.mp h
    obtain ⟨system, -, h⟩ := bind_eq_ok.mp h
    obtain ⟨conversation, hconversation, h⟩ := bind_eq_ok.mp h
    obtain ⟨tools, -, h⟩ := bind_eq_ok.mp h
    obtain rfl := Except.ok.inj h
    exact ⟨obj, rfl, hconversation, ⟨max_tokens, hmax, rfl⟩, rfl, rfl, _, _, rfl⟩
  · cases h

theorem gemini.decode_request_decodesTo (h : gemini.decode_request serde raw = .ok ir) :
    ∃ obj, raw = .object obj ∧ gemini.DecodesTo serde obj ir := by
  unfold gemini.decode_request at h
  split at h
  next obj =>
    obtain ⟨conversation, hconversation, h⟩ := bind_eq_ok.mp h
    obtain ⟨tools, -, h⟩ := bind_eq_ok.mp h
    obtain rfl := Except.ok.inj h
    exact ⟨obj, rfl, hconversation, rfl, rfl, rfl, _, rfl⟩
  · cases h

end refract.codec
