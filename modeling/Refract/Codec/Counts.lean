import Refract.Ir.Content
import Refract.Machine.Word

open refract.json refract.ir

namespace refract.codec.chat

def finish_reason_to_ir (raw : String) : StopReason :=
  match raw with
  | "stop" => .stop
  | "length" => .maxTokens
  | "tool_calls" | "function_call" => .toolUse
  | "content_filter" => .contentFilter
  | _ => .other

def stop_reason_to_finish : StopReason → String
  | .maxTokens => "length"
  | .toolUse => "tool_calls"
  | .contentFilter => "content_filter"
  | .stop | .stopSequence | .refusal | .pauseTurn | .other => "stop"

/-- A token count, zero where it is absent or no `u64`. -/
def count (raw : Option Value) (key : String) : U64 := ((raw.bind (·.get key)).bind Value.as_u64).getD 0

def parse_usage (raw : Value) : Usage where
  input_tokens := count (some raw) "prompt_tokens"
  output_tokens := count (some raw) "completion_tokens"
  cached_input_tokens := count (raw.get "prompt_tokens_details") "cached_tokens"
  cache_write_tokens := 0
  reasoning_tokens := count (raw.get "completion_tokens_details") "reasoning_tokens"

/-- The detail objects are only written when their count is positive. -/
def usage_json (usage : Usage) : Value :=
  .object <|
    [("prompt_tokens", .nat usage.input_tokens.val), ("completion_tokens", .nat usage.output_tokens.val),
      ("total_tokens", .nat usage.total.val)] ++
    (if 0 < usage.cached_input_tokens then
      [("prompt_tokens_details", .object [("cached_tokens", .nat usage.cached_input_tokens.val)])] else []) ++
    (if 0 < usage.reasoning_tokens then
      [("completion_tokens_details", .object [("reasoning_tokens", .nat usage.reasoning_tokens.val)])] else [])

theorem usage_json_wellFormed (usage : Usage) : (usage_json usage).WellFormed := by
  unfold usage_json
  split <;> split <;> simp

section Counts

variable (usage : Usage)

theorem usage_json_input : count (some (usage_json usage)) "prompt_tokens" = usage.input_tokens := by
  have hget : (usage_json usage).get "prompt_tokens" = some (.nat usage.input_tokens.val) := rfl
  rw [count, Option.bind_some, hget, Option.bind_some, Value.as_u64_nat, Option.getD_some]

theorem usage_json_output : count (some (usage_json usage)) "completion_tokens" = usage.output_tokens := by
  have hget : (usage_json usage).get "completion_tokens" = some (.nat usage.output_tokens.val) := rfl
  rw [count, Option.bind_some, hget, Option.bind_some, Value.as_u64_nat, Option.getD_some]

end Counts

end refract.codec.chat

open refract.json refract.ir

namespace refract.codec.messages

def decode_stop_reason (raw : String) : StopReason :=
  match raw with
  | "end_turn" => .stop
  | "max_tokens" => .maxTokens
  | "stop_sequence" => .stopSequence
  | "tool_use" => .toolUse
  | "refusal" => .refusal
  | "pause_turn" => .pauseTurn
  | _ => .other

def encode_stop_reason : StopReason → String
  | .stop => "end_turn"
  | .maxTokens => "max_tokens"
  | .stopSequence => "stop_sequence"
  | .toolUse => "tool_use"
  | .refusal => "refusal"
  | .pauseTurn => "pause_turn"
  | .contentFilter => "refusal"
  | .other => "end_turn"

/-- A token count, zero where it is absent or no `u64`. -/
def count (raw : Value) (key : String) : U64 := ((raw.get key).bind Value.as_u64).getD 0

def decode_usage (raw : Value) : Usage where
  input_tokens := count raw "input_tokens"
  output_tokens := count raw "output_tokens"
  cached_input_tokens := count raw "cache_read_input_tokens"
  cache_write_tokens := count raw "cache_creation_input_tokens"
  reasoning_tokens := 0

/-- The cache counts are only written when they are positive. -/
def encode_usage (usage : Usage) : Value :=
  .object <|
    [("input_tokens", .nat usage.input_tokens.val), ("output_tokens", .nat usage.output_tokens.val)] ++
    (if 0 < usage.cache_write_tokens then
      [("cache_creation_input_tokens", .nat usage.cache_write_tokens.val)] else []) ++
    (if 0 < usage.cached_input_tokens then
      [("cache_read_input_tokens", .nat usage.cached_input_tokens.val)] else [])

theorem encode_usage_wellFormed (usage : Usage) : (encode_usage usage).WellFormed := by
  unfold encode_usage
  split <;> split <;> simp

section Counts

variable (usage : Usage)

theorem encode_usage_input : count (encode_usage usage) "input_tokens" = usage.input_tokens := by
  have hget : (encode_usage usage).get "input_tokens" = some (.nat usage.input_tokens.val) := rfl
  rw [count, hget, Option.bind_some, Value.as_u64_nat, Option.getD_some]

theorem encode_usage_output : count (encode_usage usage) "output_tokens" = usage.output_tokens := by
  have hget : (encode_usage usage).get "output_tokens" = some (.nat usage.output_tokens.val) := rfl
  rw [count, hget, Option.bind_some, Value.as_u64_nat, Option.getD_some]

theorem encode_usage_cache_write :
    count (encode_usage usage) "cache_creation_input_tokens" = usage.cache_write_tokens := by
  have hget : (encode_usage usage).get "cache_creation_input_tokens" =
      if 0 < usage.cache_write_tokens then some (.nat usage.cache_write_tokens.val) else none := by
    unfold encode_usage
    split <;> split <;> simp [List.lookup_cons]
  rw [count, hget, optional_count]

theorem encode_usage_cached :
    count (encode_usage usage) "cache_read_input_tokens" = usage.cached_input_tokens := by
  have hget : (encode_usage usage).get "cache_read_input_tokens" =
      if 0 < usage.cached_input_tokens then some (.nat usage.cached_input_tokens.val) else none := by
    unfold encode_usage
    split <;> split <;> simp [List.lookup_cons]
  rw [count, hget, optional_count]

end Counts

/-- Writing a usage keeps every count but the reasoning tokens, for which the
    protocol has no field. -/
theorem decode_usage_encode_usage (usage : Usage) :
    decode_usage (encode_usage usage) = { usage with reasoning_tokens := 0 } := by
  rw [decode_usage, encode_usage_input, encode_usage_output, encode_usage_cache_write, encode_usage_cached]

end refract.codec.messages

open refract.json refract.ir

namespace refract.codec.responses

/-- A response's stop reason, from its status and what it contains. -/
def map_status (status : String) (incomplete_reason : Option String) (has_tool_call has_refusal : Bool) :
    StopReason :=
  match status with
  | "incomplete" =>
    match incomplete_reason with
    | some "max_output_tokens" | some "max_tokens" => .maxTokens
    | some "content_filter" => .contentFilter
    | _ => .other
  | "failed" | "cancelled" | "queued" | "in_progress" => .other
  | _ => if has_tool_call then .toolUse else if has_refusal then .refusal else .stop

/-- The status only says whether the generation ran to its end. -/
def status_str : StopReason → String
  | .maxTokens | .contentFilter => "incomplete"
  | _ => "completed"

def incomplete_details : StopReason → Option Value
  | .maxTokens => some (.object [("reason", .string "max_output_tokens")])
  | .contentFilter => some (.object [("reason", .string "content_filter")])
  | _ => none

/-- A token count, zero where it is absent or no `u64`. -/
def count (raw : Option Value) (key : String) : U64 := ((raw.bind (·.get key)).bind Value.as_u64).getD 0

def decode_usage (usage : Value) : Usage where
  input_tokens := count (some usage) "input_tokens"
  output_tokens := count (some usage) "output_tokens"
  cached_input_tokens := count (usage.get "input_tokens_details") "cached_tokens"
  cache_write_tokens := count (usage.get "input_tokens_details") "cache_write_tokens"
  reasoning_tokens := count (usage.get "output_tokens_details") "reasoning_tokens"

def encode_usage (usage : Usage) : Value :=
  .object
    [("input_tokens", .nat usage.input_tokens.val),
      ("input_tokens_details", .object
        [("cached_tokens", .nat usage.cached_input_tokens.val),
          ("cache_write_tokens", .nat usage.cache_write_tokens.val)]),
      ("output_tokens", .nat usage.output_tokens.val),
      ("output_tokens_details", .object [("reasoning_tokens", .nat usage.reasoning_tokens.val)]),
      ("total_tokens", .nat usage.total.val)]

theorem encode_usage_wellFormed (usage : Usage) : (encode_usage usage).WellFormed := by
  simp [encode_usage]

theorem count_nat {raw : Option Value} {key : String} {n : U64} (hraw : raw.bind (·.get key) = some (.nat n.val)) :
    count raw key = n := by
  rw [count, hraw, Option.bind_some, Value.as_u64_nat, Option.getD_some]

theorem encode_usage_input (usage : Usage) : count (some (encode_usage usage)) "input_tokens" = usage.input_tokens :=
  count_nat rfl

theorem encode_usage_output (usage : Usage) : count (some (encode_usage usage)) "output_tokens" = usage.output_tokens :=
  count_nat rfl

/-- Every count of a usage is written and read back. -/
theorem decode_usage_encode_usage (usage : Usage) : decode_usage (encode_usage usage) = usage := by
  obtain ⟨input, output, cached, written, reasoning⟩ := usage
  rw [decode_usage, count_nat (n := input) rfl, count_nat (n := output) rfl, count_nat (n := cached) rfl,
    count_nat (n := written) rfl, count_nat (n := reasoning) rfl]

end refract.codec.responses

open refract.json refract.ir refract.machine

namespace refract.codec.gemini

/-- A field by its camel-case name, or else by its snake-case one. -/
def field (obj : Map) (camel snake : String) : Option Value := (obj.get camel).or (obj.get snake)

/-- A string that is not empty. -/
def non_empty_str (value : Option Value) : Option String := (value.bind Value.as_str).filter (· ≠ "")

def stop_reason_from_gemini (raw : String) : StopReason :=
  match raw with
  | "STOP" => .stop
  | "MAX_TOKENS" => .maxTokens
  | "SAFETY" | "RECITATION" | "BLOCKLIST" | "PROHIBITED_CONTENT" | "SPII" => .contentFilter
  | "MALFORMED_FUNCTION_CALL" | "OTHER" => .other
  | _ => .other

def stop_reason_to_gemini : StopReason → String
  | .stop | .toolUse | .stopSequence => "STOP"
  | .maxTokens => "MAX_TOKENS"
  | .contentFilter => "SAFETY"
  | .refusal | .pauseTurn | .other => "OTHER"

/-- A token count, zero where it is absent or no `u64`. -/
def count (obj : Map) (camel snake : String) : U64 := ((field obj camel snake).bind Value.as_u64).getD 0

/-- Output counts include reasoning here; the wire format keeps them apart. -/
def parse_usage (raw : Value) : Usage :=
  match raw with
  | .object obj =>
    let reasoning := count obj "thoughtsTokenCount" "thoughts_token_count"
    { input_tokens := count obj "promptTokenCount" "prompt_token_count"
      output_tokens := count obj "candidatesTokenCount" "candidates_token_count" + reasoning
      cached_input_tokens := count obj "cachedContentTokenCount" "cached_content_token_count"
      cache_write_tokens := 0
      reasoning_tokens := reasoning }
  | _ => {}

def encode_usage (usage : Usage) : Value :=
  .object <|
    [("promptTokenCount", .nat usage.input_tokens.val),
      ("candidatesTokenCount", .nat (usage.output_tokens.val - usage.reasoning_tokens.val)),
      ("totalTokenCount", .nat (usage.input_tokens + usage.output_tokens).val)] ++
    (if 0 < usage.cached_input_tokens then
      [("cachedContentTokenCount", .nat usage.cached_input_tokens.val)] else []) ++
    (if 0 < usage.reasoning_tokens then [("thoughtsTokenCount", .nat usage.reasoning_tokens.val)] else [])

theorem encode_usage_wellFormed (usage : Usage) : (encode_usage usage).WellFormed := by
  unfold encode_usage
  split <;> split <;> simp

section Counts

variable (usage : Usage)

/-- The members of an encoded usage. -/
def usage_members : Map := (encode_usage usage).as_object.getD []

theorem usage_members_input :
    count (usage_members usage) "promptTokenCount" "prompt_token_count" = usage.input_tokens := by
  have hget : (usage_members usage).get "promptTokenCount" = some (.nat usage.input_tokens.val) := rfl
  rw [count, field, hget, Option.some_or, Option.bind_some, Value.as_u64_nat, Option.getD_some]

theorem usage_members_candidates :
    count (usage_members usage) "candidatesTokenCount" "candidates_token_count" =
      saturating_sub usage.output_tokens usage.reasoning_tokens := by
  have hget : (usage_members usage).get "candidatesTokenCount" =
      some (.nat (saturating_sub usage.output_tokens usage.reasoning_tokens).val) := rfl
  rw [count, field, hget, Option.some_or, Option.bind_some, Value.as_u64_nat, Option.getD_some]

theorem usage_members_thoughts :
    count (usage_members usage) "thoughtsTokenCount" "thoughts_token_count" = usage.reasoning_tokens := by
  have hget : (usage_members usage).get "thoughtsTokenCount" =
      if 0 < usage.reasoning_tokens then some (.nat usage.reasoning_tokens.val) else none := by
    unfold usage_members encode_usage
    split <;> split <;> simp [Map.get, List.lookup_cons]
  have hsnake : (usage_members usage).get "thoughts_token_count" = none := by
    unfold usage_members encode_usage
    split <;> split <;> simp [Map.get, List.lookup_cons]
  rw [count, field, hget, hsnake, Option.or_none, optional_count]

end Counts

end refract.codec.gemini
