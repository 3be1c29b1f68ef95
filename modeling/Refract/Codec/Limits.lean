import Refract.Codec.Thinking

open refract.core refract.json refract.ir refract.machine

namespace refract.codec

/-- The numbers of a request that limit what is answered. -/
inductive Limit where
  | max_tokens
  | budget
  | top_k
  | candidates
  deriving DecidableEq, Repr

/-- What a limit is decoded to. -/
def decoded (ir : UnifiedRequest) : Limit → Option Nat
  | .max_tokens => ir.max_output_tokens
  | .budget => ir.reasoning.bind (·.budget_tokens)
  | .top_k => ir.sampling.top_k
  | .candidates => ir.sampling.candidate_count

/-- A member of the generation configuration of a Gemini request. -/
def gemini.generation (raw : Value) (camel snake : String) : Option Value :=
  (raw.as_object.bind gemini.generation_config).bind (gemini.field · camel snake)

/-- What a client sends for a limit. A Chat request has two fields for the tokens of an
    answer, and a Messages request thinks where it says so. -/
def sent : Protocol → Value → Limit → Option Value
  | .chat, raw, .max_tokens => ((raw.get "max_completion_tokens").filter (·.as_u64.isSome)).or (raw.get "max_tokens")
  | .chat, raw, .candidates => raw.get "n"
  | .responses, raw, .max_tokens => raw.get "max_output_tokens"
  | .messages, raw, .max_tokens => raw.get "max_tokens"
  | .messages, raw, .budget =>
    ((raw.get "thinking").filter fun thinking => thinking.get_str "type" = some "enabled").bind (·.get "budget_tokens")
  | .messages, raw, .top_k => raw.get "top_k"
  | .gemini, raw, .max_tokens => gemini.generation raw "maxOutputTokens" "max_output_tokens"
  | .gemini, raw, .budget => ((gemini.thinking raw).bind Value.as_object).bind (gemini.field · "thinkingBudget" "thinking_budget")
  | .gemini, raw, .top_k => gemini.generation raw "topK" "top_k"
  | .gemini, raw, .candidates => gemini.generation raw "candidateCount" "candidate_count"
  | _, _, _ => none

/-- A limit is the number that was sent, or the largest there is where that is too
    large, or it is left out. -/
def Faithful (sent : Option Value) (decoded : Option Nat) : Prop :=
  decoded = none ∨ ∃ n : U64, sent.bind Value.as_u64 = some n ∧ decoded = some (min n.val U32_MAX)

/-- The limits of which only the low 32 bits are read. -/
def Narrowed : Protocol → Limit → Prop
  | .messages, _ => True
  | .gemini, limit => limit ≠ .budget
  | _, _ => False

/-- The low 32 bits of a number are the number, or the largest there is. -/
def Fits (n : U64) : Prop := n.val ≤ U32_MAX ∨ n.val % (U32_MAX + 1) = U32_MAX

section Readers

variable {value other : Option Value}

theorem chat.as_u32_faithful (value : Option Value) : Faithful value (chat.as_u32 value) := by
  unfold chat.as_u32
  cases hnumber : value.bind Value.as_u64 with
  | none => exact .inl rfl
  | some n => exact .inr ⟨n, hnumber, rfl⟩

theorem responses.as_u32_faithful (value : Option Value) : Faithful value (value.bind responses.as_u32) := by
  cases value with
  | none => exact .inl rfl
  | some v =>
    rw [Option.bind_some, responses.as_u32]
    cases hnumber : v.as_u64 with
    | none => exact .inl rfl
    | some n =>
      rw [Option.map_some, Option.filter_some]
      split
      next hlt =>
        refine .inr ⟨n, hnumber, congrArg some ?_⟩
        exact (Nat.min_eq_left (Nat.le_of_lt_succ (of_decide_eq_true hlt))).symm
      next => exact .inl rfl

/-- The low bits of a number are faithful to it where they say what it is. -/
theorem low_bits_faithful_iff :
    Faithful value ((value.bind Value.as_u64).map fun n => n.val % (U32_MAX + 1)) ↔ ∀ n, value.bind Value.as_u64 = some n → Fits n := by
  unfold Faithful
  cases value.bind Value.as_u64 with
  | none => simp
  | some number =>
    simp only [Option.map_some, Option.some.injEq, reduceCtorEq, false_or, exists_eq_left', forall_eq']
    unfold Fits U32_MAX
    omega

theorem messages.as_u32_faithful_iff : Faithful value (messages.as_u32 value) ↔ ∀ n, value.bind Value.as_u64 = some n → Fits n :=
  low_bits_faithful_iff

theorem gemini.as_u32_faithful_iff : Faithful value (gemini.as_u32 value) ↔ ∀ n, value.bind Value.as_u64 = some n → Fits n :=
  low_bits_faithful_iff

/-- The first of two limits that is a number is read. -/
theorem chat.as_u32_or_faithful (value other : Option Value) :
    Faithful ((value.filter (·.as_u64.isSome)).or other) ((chat.as_u32 value).or (chat.as_u32 other)) := by
  cases value with
  | none => exact chat.as_u32_faithful other
  | some v =>
    cases hnumber : v.as_u64 with
    | none =>
      have hunread : chat.as_u32 (some v) = none := by rw [chat.as_u32, Option.bind_some, hnumber, Option.map_none]
      rw [hunread, Option.filter_some, hnumber]
      exact chat.as_u32_faithful other
    | some n =>
      have hread : chat.as_u32 (some v) = some (min n.val U32_MAX) := by rw [chat.as_u32, Option.bind_some, hnumber, Option.map_some]
      rw [hread, Option.filter_some, hnumber]
      exact .inr ⟨n, hnumber, rfl⟩

/-- A signed number that is not negative is an unsigned one. -/
theorem as_u64_of_as_i64 {v : Value} {i : Int} (hnumber : v.as_i64 = some i) (hpos : 0 ≤ i) :
    ∃ n : U64, v.as_u64 = some n ∧ n.val = i.toNat := by
  unfold Value.as_i64 at hnumber
  split at hnumber
  next j =>
    split at hnumber
    next hrange =>
      obtain rfl := Option.some.inj hnumber
      have hunsigned : 0 ≤ j ∧ j < 18446744073709551616 := by omega
      exact ⟨⟨j.toNat, by omega⟩, dif_pos hunsigned, rfl⟩
    · cases hnumber
  · cases hnumber

/-- A thinking budget that is no 32-bit number is left out. -/
theorem gemini.budget_faithful (tc : Map) :
    Faithful (gemini.field tc "thinkingBudget" "thinking_budget") ((gemini.decode_thinking tc).bind (·.budget_tokens)) := by
  have hbudget : (gemini.decode_thinking tc).bind (·.budget_tokens) =
      ((gemini.thinking_budget tc).filter fun v : Int => 0 ≤ v ∧ v ≤ (U32_MAX : Int)).map Int.toNat := by
    unfold gemini.decode_thinking
    dsimp only
    split
    · rfl
    next hnone =>
      exact (Option.not_isSome_iff_eq_none.mp (not_or.mp hnone).1).symm
  rw [hbudget, gemini.thinking_budget]
  cases gemini.field tc "thinkingBudget" "thinking_budget" with
  | none => exact .inl rfl
  | some v =>
    rw [Option.bind_some]
    cases hnumber : v.as_i64 with
    | none => exact .inl rfl
    | some i =>
      rw [Option.filter_some]
      split
      next hrange =>
        obtain ⟨hpos, hle⟩ := of_decide_eq_true hrange
        obtain ⟨n, hn, hval⟩ := as_u64_of_as_i64 hnumber hpos
        refine .inr ⟨n, hn, congrArg some ?_⟩
        rw [hval]
        exact (Nat.min_eq_left (Int.toNat_le.mpr hle)).symm
      next => exact .inl rfl

end Readers

variable {serde : Serde} {raw : Value} {ir : UnifiedRequest}

/-- The counts of a Chat request. -/
theorem chat.decode_request_counts (h : chat.decode_request serde raw = .ok ir) :
    ir.sampling.top_k = none ∧ ir.sampling.candidate_count = chat.as_u32 (raw.get "n") := by
  unfold chat.decode_request at h
  split at h
  next obj =>
    dsimp only at h
    split at h
    · cases h
    · cases h
    · obtain ⟨conversation, -, rfl⟩ := map_eq_ok.mp h
      exact ⟨rfl, rfl⟩
  · cases h

theorem responses.decode_request_counts (h : responses.decode_request serde raw = .ok ir) :
    ir.sampling.top_k = none ∧ ir.sampling.candidate_count = none := by
  unfold responses.decode_request at h
  split at h
  next obj =>
    split at h
    · cases h
    · obtain ⟨conversation, -, rfl⟩ := map_eq_ok.mp h
      exact ⟨rfl, rfl⟩
  · cases h

theorem messages.decode_request_counts (h : messages.decode_request serde raw = .ok ir) :
    ir.sampling.top_k = messages.as_u32 (raw.get "top_k") ∧ ir.sampling.candidate_count = none := by
  unfold messages.decode_request at h
  split at h
  next obj =>
    obtain ⟨model, -, h⟩ := bind_eq_ok.mp h
    obtain ⟨max_tokens, -, h⟩ := bind_eq_ok.mp h
    obtain ⟨system, -, h⟩ := bind_eq_ok.mp h
    obtain ⟨conversation, -, h⟩ := bind_eq_ok.mp h
    obtain ⟨tools, -, h⟩ := bind_eq_ok.mp h
    obtain rfl := Except.ok.inj h
    exact ⟨rfl, rfl⟩
  · cases h

theorem gemini.decode_request_counts (h : gemini.decode_request serde raw = .ok ir) :
    ir.sampling.top_k = gemini.as_u32 (gemini.generation raw "topK" "top_k") ∧
      ir.sampling.candidate_count = gemini.as_u32 (gemini.generation raw "candidateCount" "candidate_count") := by
  unfold gemini.decode_request at h
  split at h
  next obj =>
    obtain ⟨conversation, -, h⟩ := bind_eq_ok.mp h
    obtain ⟨tools, -, h⟩ := bind_eq_ok.mp h
    obtain rfl := Except.ok.inj h
    unfold gemini.generation
    rw [Value.as_object_object, Option.bind_some]
    cases gemini.generation_config obj with
    | none => exact ⟨rfl, rfl⟩
    | some gen_cfg => exact ⟨rfl, rfl⟩
  · cases h

/-- What is read of the effort says nothing of a budget. -/
theorem responses.budget_eq_none (reasoning : Option Value) : (reasoning.bind responses.decode_reasoning).bind (·.budget_tokens) = none := by
  cases reasoning with
  | none => rfl
  | some reasoning =>
    rw [Option.bind_some]
    unfold responses.decode_reasoning
    dsimp only
    split <;> rfl

/-- The budget of a request that thinks. -/
theorem messages.budget_eq (thinking : Option Value) :
    (thinking.bind messages.decode_thinking).bind (·.budget_tokens) =
      messages.as_u32 ((thinking.filter fun thinking => thinking.get_str "type" = some "enabled").bind (·.get "budget_tokens")) := by
  cases thinking with
  | none => rfl
  | some thinking =>
    rw [Option.bind_some, Option.filter_some]
    unfold messages.decode_thinking
    split
    next henabled =>
      rw [henabled]
      rfl
    next hdisabled =>
      rw [hdisabled]
      rfl
    next hother _ =>
      rw [if_neg (by simpa using hother)]
      rfl

theorem gemini.max_tokens_eq (raw : Value) :
    ((raw.as_object.bind gemini.generation_config).bind fun gen_cfg =>
      gemini.as_u32 (gemini.field gen_cfg "maxOutputTokens" "max_output_tokens")) =
      gemini.as_u32 (gemini.generation raw "maxOutputTokens" "max_output_tokens") := by
  unfold gemini.generation
  cases raw.as_object.bind gemini.generation_config <;> rfl

/-- A limit is faithful to what a client sends, but where only its low 32 bits are read and
    say something else. -/
theorem limit_faithful_iff {source : Protocol} (h : decode_request serde source raw = .ok ir) (limit : Limit) :
    Faithful (sent source raw limit) (decoded ir limit) ↔
      (Narrowed source limit → ∀ n, (sent source raw limit).bind Value.as_u64 = some n → Fits n) := by
  obtain ⟨hreasoning, hmax⟩ := decode_request_asked h
  cases source with
  | chat =>
    obtain ⟨htop_k, hcandidates⟩ := chat.decode_request_counts h
    refine iff_of_true ?_ fun hnarrowed => hnarrowed.elim
    cases limit with
    | max_tokens =>
      rw [decoded, hmax]
      exact chat.as_u32_or_faithful _ _
    | budget =>
      refine .inl ?_
      rw [decoded, hreasoning, asked]
      cases raw.get_str "reasoning_effort" <;> rfl
    | top_k => exact .inl htop_k
    | candidates =>
      rw [decoded, hcandidates]
      exact chat.as_u32_faithful _
  | responses =>
    obtain ⟨htop_k, hcandidates⟩ := responses.decode_request_counts h
    refine iff_of_true ?_ fun hnarrowed => hnarrowed.elim
    cases limit with
    | max_tokens =>
      rw [decoded, hmax]
      exact responses.as_u32_faithful _
    | budget =>
      refine .inl ?_
      rw [decoded, hreasoning]
      exact responses.budget_eq_none _
    | top_k => exact .inl htop_k
    | candidates => exact .inl hcandidates
  | messages =>
    obtain ⟨htop_k, hcandidates⟩ := messages.decode_request_counts h
    refine Iff.trans ?_ (forall_prop_of_true trivial).symm
    cases limit with
    | max_tokens =>
      rw [decoded, hmax]
      exact messages.as_u32_faithful_iff
    | budget =>
      rw [decoded, hreasoning, asked, messages.budget_eq]
      exact messages.as_u32_faithful_iff
    | top_k =>
      rw [decoded, htop_k]
      exact messages.as_u32_faithful_iff
    | candidates =>
      refine iff_of_true (.inl hcandidates) ?_
      intro n hsent
      cases hsent
  | gemini =>
    obtain ⟨htop_k, hcandidates⟩ := gemini.decode_request_counts h
    cases limit with
    | budget =>
      refine iff_of_true ?_ fun hnarrowed => absurd rfl hnarrowed
      rw [decoded, hreasoning, asked, sent]
      cases (gemini.thinking raw).bind Value.as_object with
      | none => exact .inl rfl
      | some tc => exact gemini.budget_faithful tc
    | max_tokens =>
      have hnarrowed : Limit.max_tokens ≠ .budget := by decide
      refine Iff.trans ?_ (forall_prop_of_true hnarrowed).symm
      rw [decoded, hmax, codec.limit, gemini.max_tokens_eq]
      exact gemini.as_u32_faithful_iff
    | top_k =>
      have hnarrowed : Limit.top_k ≠ .budget := by decide
      refine Iff.trans ?_ (forall_prop_of_true hnarrowed).symm
      rw [decoded, htop_k]
      exact gemini.as_u32_faithful_iff
    | candidates =>
      have hnarrowed : Limit.candidates ≠ .budget := by decide
      refine Iff.trans ?_ (forall_prop_of_true hnarrowed).symm
      rw [decoded, hcandidates]
      exact gemini.as_u32_faithful_iff

/-- No limit of a request wraps if and only if the low bits of those that are narrowed say
    what was sent. -/
theorem limits_faithful_iff {source : Protocol} (h : decode_request serde source raw = .ok ir) :
    (∀ limit, Faithful (sent source raw limit) (decoded ir limit)) ↔
      ∀ limit, Narrowed source limit → ∀ n, (sent source raw limit).bind Value.as_u64 = some n → Fits n :=
  forall_congr' (limit_faithful_iff h)

/-- A Messages request that names its limits. -/
def limited_messages (max_tokens budget top_k : Nat) : Value :=
  .object [("model", .string "claude"), ("max_tokens", .nat max_tokens), ("messages", .array []),
    ("thinking", .object [("type", .string "enabled"), ("budget_tokens", .nat budget)]), ("top_k", .nat top_k)]

/-- A Gemini request that names its limits. -/
def limited_gemini (max_tokens candidates top_k : Nat) : Value :=
  .object [("contents", .array []), ("generationConfig", .object [("maxOutputTokens", .nat max_tokens),
    ("candidateCount", .nat candidates), ("topK", .nat top_k)])]

theorem limits_faithful_iff_of_messages :
    ∃ ir, decode_request ⟨fun _ => none, fun _ => ""⟩ .messages (limited_messages 4096 1024 40) = .ok ir ∧
      ((∀ limit, Faithful (sent .messages (limited_messages 4096 1024 40) limit) (decoded ir limit)) ↔
        ∀ limit, Narrowed .messages limit → ∀ n, (sent .messages (limited_messages 4096 1024 40) limit).bind Value.as_u64 = some n → Fits n) :=
  ⟨_, rfl, @limits_faithful_iff ⟨fun _ => none, fun _ => ""⟩ _ _ .messages rfl⟩

/-- A limit beyond 32 bits comes down to a few tokens. -/
theorem wrapped_limits :
    (∃ ir, decode_request ⟨fun _ => none, fun _ => ""⟩ .messages (limited_messages 4294967297 4294968320 4294967336) = .ok ir ∧
      decoded ir .max_tokens = some 1 ∧ decoded ir .budget = some 1024 ∧ decoded ir .top_k = some 40 ∧
      ¬ Faithful (sent .messages (limited_messages 4294967297 4294968320 4294967336) .max_tokens) (decoded ir .max_tokens)) ∧
    ∃ ir, decode_request ⟨fun _ => none, fun _ => ""⟩ .gemini (limited_gemini 4294967297 4294967298 4294967336) = .ok ir ∧
      decoded ir .max_tokens = some 1 ∧ decoded ir .candidates = some 2 ∧ decoded ir .top_k = some 40 ∧
      ¬ Faithful (sent .gemini (limited_gemini 4294967297 4294967298 4294967336) .max_tokens) (decoded ir .max_tokens) := by
  refine ⟨⟨_, rfl, rfl, rfl, rfl, ?_⟩, ⟨_, rfl, rfl, rfl, rfl, ?_⟩⟩
  · intro hfaithful
    have hfits := messages.as_u32_faithful_iff.mp hfaithful ⟨4294967297, by decide⟩ rfl
    exact absurd hfits (by unfold Fits; decide)
  · intro hfaithful
    have hfits := gemini.as_u32_faithful_iff.mp hfaithful ⟨4294967297, by decide⟩ rfl
    exact absurd hfits (by unfold Fits; decide)

end refract.codec
