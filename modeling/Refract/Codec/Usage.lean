import Refract.Codec.Counts
import Refract.Ir.Usage

open refract.core refract.ir refract.json refract.machine

namespace refract.codec

/-- The usage that an upstream reports. -/
def decode_usage (protocol : Protocol) (raw : Value) : Usage :=
  match protocol with
  | .chat => chat.parse_usage raw
  | .responses => responses.decode_usage raw
  | .messages => messages.decode_usage raw
  | .gemini => gemini.parse_usage raw

/-- The usage object that a client is sent. -/
def encode_usage (protocol : Protocol) (usage : Usage) : Value :=
  match protocol with
  | .chat => chat.usage_json usage
  | .responses => responses.encode_usage usage
  | .messages => messages.encode_usage usage
  | .gemini => gemini.encode_usage usage

/-- The prompt tokens of a usage object, read under the convention of its own
    protocol. -/
def prompt_tokens (protocol : Protocol) (raw : Value) : Nat :=
  match protocol with
  | .chat => (chat.count (some raw) "prompt_tokens").val
  | .responses => (responses.count (some raw) "input_tokens").val
  | .messages => (messages.count raw "input_tokens").val + (messages.count raw "cache_read_input_tokens").val +
      (messages.count raw "cache_creation_input_tokens").val
  | .gemini => (gemini.count (raw.as_object.getD []) "promptTokenCount" "prompt_token_count").val

/-- The completion tokens likewise. Gemini counts its thoughts apart. -/
def completion_tokens (protocol : Protocol) (raw : Value) : Nat :=
  match protocol with
  | .chat => (chat.count (some raw) "completion_tokens").val
  | .responses => (responses.count (some raw) "output_tokens").val
  | .messages => (messages.count raw "output_tokens").val
  | .gemini => (gemini.count (raw.as_object.getD []) "candidatesTokenCount" "candidates_token_count").val +
      (gemini.count (raw.as_object.getD []) "thoughtsTokenCount" "thoughts_token_count").val

section Meaning

variable (protocol : Protocol) (raw : Value) (usage : Usage)

/-- A decoded usage keeps the prompt total of its protocol. -/
theorem prompt_tokens_eq : prompt_tokens protocol raw = (decode_usage protocol raw).prompt_total protocol := by
  cases protocol with
  | chat => rfl
  | responses => rfl
  | messages => rfl
  | gemini => cases raw <;> rfl

theorem decode_usage_of_not_object {raw : Value} (hraw : ¬ ∃ obj, raw = .object obj) :
    decode_usage .gemini raw = {} := by
  cases raw with
  | object obj => exact absurd ⟨obj, rfl⟩ hraw
  | _ => rfl

theorem no_completion_tokens {raw : Value} (hraw : ¬ ∃ obj, raw = .object obj) :
    completion_tokens .gemini raw = 0 := by
  have hmembers : raw.as_object.getD [] = [] := by
    cases raw with
    | object obj => exact absurd ⟨obj, rfl⟩ hraw
    | _ => rfl
  have hcount : ∀ camel snake, gemini.count [] camel snake = 0 := fun _ _ => rfl
  rw [completion_tokens, hmembers, hcount, hcount, Fin.val_zero]

/-- It also keeps the completion total, which one word has to hold. -/
theorem completion_tokens_eq (hfits : completion_tokens protocol raw < 18446744073709551616) :
    completion_tokens protocol raw = (decode_usage protocol raw).output_tokens.val := by
  cases protocol with
  | chat => rfl
  | responses => rfl
  | messages => rfl
  | gemini =>
    by_cases hraw : ∃ obj, raw = .object obj
    · obtain ⟨obj, rfl⟩ := hraw
      exact (add_val_of_lt hfits).symm
    · rw [no_completion_tokens hraw, decode_usage_of_not_object hraw, Fin.val_zero]

/-- An encoder writes the counts as it has them, so its reader adds the cache
    counts again where the protocol counts them apart. -/
theorem prompt_tokens_encode : prompt_tokens protocol (encode_usage protocol usage) = usage.prompt_total protocol := by
  cases protocol with
  | chat => rw [prompt_tokens, encode_usage, chat.usage_json_input, usage.prompt_total_of_ne (by decide)]
  | responses => rw [prompt_tokens, encode_usage, responses.encode_usage_input, usage.prompt_total_of_ne (by decide)]
  | messages =>
    simp only [prompt_tokens, encode_usage, messages.encode_usage_input, messages.encode_usage_cached,
      messages.encode_usage_cache_write, Usage.prompt_total, if_true]
  | gemini =>
    have hinput := congrArg Fin.val (gemini.usage_members_input usage)
    rw [gemini.usage_members] at hinput
    rw [prompt_tokens, encode_usage, hinput, usage.prompt_total_of_ne (by decide)]

theorem completion_tokens_encode :
    completion_tokens protocol (encode_usage protocol usage) =
      if protocol = .gemini then max usage.output_tokens.val usage.reasoning_tokens.val else usage.output_tokens.val := by
  cases protocol with
  | chat => rw [completion_tokens, encode_usage, chat.usage_json_output, if_neg (by decide)]
  | responses => rw [completion_tokens, encode_usage, responses.encode_usage_output, if_neg (by decide)]
  | messages => rw [completion_tokens, encode_usage, messages.encode_usage_output, if_neg (by decide)]
  | gemini =>
    have hcandidates := congrArg Fin.val (gemini.usage_members_candidates usage)
    have hthoughts := congrArg Fin.val (gemini.usage_members_thoughts usage)
    rw [gemini.usage_members] at hcandidates hthoughts
    simp only [completion_tokens, encode_usage, hcandidates, hthoughts, saturating_sub_val, if_true]
    omega

end Meaning

/-- The counts go from one protocol to another as they are. The completion total
    stays what it was unless a Gemini client is told of more reasoning than
    output; the prompt total stays what it was where both protocols count cached
    tokens alike, or none were reported. -/
theorem transcoded_usage_meaning (upstream inbound : Protocol) (raw : Value)
    (hfits : completion_tokens upstream raw < 18446744073709551616) :
    (completion_tokens inbound (encode_usage inbound (decode_usage upstream raw)) = completion_tokens upstream raw ↔
      (inbound = .gemini → (decode_usage upstream raw).reasoning_tokens ≤ (decode_usage upstream raw).output_tokens)) ∧
    (prompt_tokens inbound (encode_usage inbound (decode_usage upstream raw)) = prompt_tokens upstream raw ↔
      (inbound = .messages ↔ upstream = .messages) ∨
        (decode_usage upstream raw).cached_input_tokens = 0 ∧ (decode_usage upstream raw).cache_write_tokens = 0) := by
  rw [completion_tokens_encode, completion_tokens_eq upstream raw hfits, prompt_tokens_encode, prompt_tokens_eq]
  generalize decode_usage upstream raw = usage
  constructor
  · by_cases hgemini : inbound = .gemini
    · simp only [hgemini, if_true, forall_const, Fin.le_def]
      omega
    · simp only [hgemini, if_false, false_implies]
  · have hzero : ∀ n : U64, n = 0 ↔ n.val = 0 := fun n => Fin.ext_iff
    rw [hzero, hzero]
    by_cases hinbound : inbound = .messages <;> by_cases hupstream : upstream = .messages
    · simp [Usage.prompt_total, hinbound, hupstream]
    · simp only [Usage.prompt_total, hinbound, hupstream, if_true, if_false, true_iff, false_or]
      omega
    · simp only [Usage.prompt_total, hinbound, hupstream, if_true, if_false, iff_true, false_or]
      omega
    · simp [Usage.prompt_total, hinbound, hupstream]

/-- A Messages usage with a cache read. -/
def cached_usage : Value := .object [("input_tokens", .nat 10), ("output_tokens", .nat 3), ("cache_read_input_tokens", .nat 5)]

theorem cached_usage_meaning :
    completion_tokens .chat (encode_usage .chat (decode_usage .messages cached_usage)) =
      completion_tokens .messages cached_usage :=
  (transcoded_usage_meaning .messages .chat cached_usage (by decide)).1.mpr (by simp)

/-- A Chat client is not told of the cached part of a Messages prompt. -/
theorem cached_usage_loses_prompt :
    prompt_tokens .chat (encode_usage .chat (decode_usage .messages cached_usage)) = 10 ∧
      prompt_tokens .messages cached_usage = 15 := by
  constructor
  · rw [prompt_tokens_encode]
    decide
  · decide

end refract.codec
