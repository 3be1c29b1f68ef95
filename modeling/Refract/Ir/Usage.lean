import Refract.Core.Error
import Refract.Json.Value
import Refract.Machine.Word

open refract.core refract.json refract.machine

namespace refract.ir

/-- Why a response ended. -/
inductive StopReason where
  | stop
  | maxTokens
  | stopSequence
  | toolUse
  | contentFilter
  | refusal
  | pauseTurn
  | other
  deriving DecidableEq, Repr

/-- Token counts of a response. -/
structure Usage where
  input_tokens : U64 := 0
  output_tokens : U64 := 0
  cached_input_tokens : U64 := 0
  cache_write_tokens : U64 := 0
  reasoning_tokens : U64 := 0
  deriving DecidableEq, Repr

namespace Usage

def total (usage : Usage) : U64 := usage.input_tokens + usage.output_tokens

/-- Neither input nor output was reported. -/
def is_empty (usage : Usage) : Bool := usage.input_tokens == 0 && usage.output_tokens == 0

/-- Merges two snapshots, keeping the larger value of each count. -/
def merge_max (usage other : Usage) : Usage where
  input_tokens := max usage.input_tokens other.input_tokens
  output_tokens := max usage.output_tokens other.output_tokens
  cached_input_tokens := max usage.cached_input_tokens other.cached_input_tokens
  cache_write_tokens := max usage.cache_write_tokens other.cache_write_tokens
  reasoning_tokens := max usage.reasoning_tokens other.reasoning_tokens

@[simp] theorem merge_max_default (usage : Usage) : usage.merge_max {} = usage := by
  simp [merge_max]

@[simp] theorem default_merge_max (usage : Usage) : merge_max {} usage = usage := by
  simp [merge_max]

@[simp] theorem merge_max_self (usage : Usage) : usage.merge_max usage = usage := by
  simp [merge_max]

end Usage

namespace Usage

/-- The usage in the convention of the bill, where the input counts cached
    tokens in. Only Messages reports them apart. -/
def billing_normalized (usage : Usage) (upstream : Protocol) : Usage :=
  if upstream = .messages then
    { usage with
      input_tokens :=
        saturating_add (saturating_add usage.input_tokens usage.cached_input_tokens) usage.cache_write_tokens }
  else usage

/-- The tokens of the prompt, by what the protocol of the upstream counts as
    its input. -/
def prompt_total (usage : Usage) (upstream : Protocol) : Nat :=
  if upstream = .messages then
    usage.input_tokens.val + usage.cached_input_tokens.val + usage.cache_write_tokens.val
  else usage.input_tokens.val

theorem prompt_total_of_ne (usage : Usage) {upstream : Protocol} (hupstream : upstream ≠ .messages) :
    usage.prompt_total upstream = usage.input_tokens.val := if_neg hupstream

section Normalized

variable (usage : Usage) (upstream : Protocol)

@[simp] theorem billing_normalized_output : (usage.billing_normalized upstream).output_tokens = usage.output_tokens := by
  unfold billing_normalized
  split <;> rfl

@[simp] theorem billing_normalized_cached :
    (usage.billing_normalized upstream).cached_input_tokens = usage.cached_input_tokens := by
  unfold billing_normalized
  split <;> rfl

@[simp] theorem billing_normalized_cache_write :
    (usage.billing_normalized upstream).cache_write_tokens = usage.cache_write_tokens := by
  unfold billing_normalized
  split <;> rfl

/-- The normalized input is the prompt total, as far as a word can hold it. -/
theorem billing_normalized_input :
    (usage.billing_normalized upstream).input_tokens.val =
      min (usage.prompt_total upstream) 18446744073709551615 := by
  unfold billing_normalized prompt_total
  split
  · simp only [saturating_add_val]
    omega
  · have := usage.input_tokens.isLt
    omega

end Normalized

end Usage

end refract.ir
