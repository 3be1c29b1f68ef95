import Refract.Codec.Extensions

open refract.core refract.json refract.ir refract.machine

namespace refract.codec

section Written

/-- What is cut off the start of a key was there. -/
theorem eq_append_of_strip_start {key front field : String} (h : strip_start key front = some field) : key = front ++ field := by
  unfold strip_start at h
  split at h
  next hstart =>
    obtain rfl := Option.some.inj h
    obtain ⟨rest, hrest⟩ := List.isPrefixOf_iff_prefix.mp hstart
    apply String.toList_inj.mp
    rw [String.toList_append, String.toList_ofList, ← hrest, List.drop_left]
  · cases h

/-- A kept field that is written back is one that the decoder keeps. -/
theorem Kept.stored {source target : Protocol} {key field : String} {value : Value} (h : Kept source key value)
    (hstrip : strip_start key (ext_start target) = some field) : Stored target field := by
  obtain ⟨kept, hkey, hstored⟩ := h
  have hwritten := eq_append_of_strip_start hstrip
  have hsame : source = target := by
    refine @Carries.unique source target key ?_ ?_
    · exact hkey ▸ carries_own source kept
    · exact hwritten ▸ carries_own target field
  subst hsame
  have hfield : kept = field := by
    rw [hkey, ← String.toList_inj, String.toList_append, String.toList_append] at hwritten
    exact String.toList_inj.mp (List.append_cancel_left hwritten)
  exact hfield ▸ hstored

/-- A field is written, or all stays as it is. -/
theorem written_or_not {kept : Option String} {skips : String → Prop} [DecidablePred skips] (out : Map) (value : Value) :
    let written := match kept with
      | some field => if skips field then out else Map.insert out field value
      | none => out
    written = out ∨ ∃ field, kept = some field ∧ written = Map.insert out field value := by
  dsimp only
  split
  next field =>
    split
    · exact .inl rfl
    · exact .inr ⟨field, rfl, rfl⟩
  · exact .inl rfl

variable {source : Protocol} {ext : Extensions} (hext : ext.Every (Kept source)) {field : String} (body : Map)

include hext

/-- Writing back kept fields leaves the fields alone that no decoder keeps. -/
theorem lookup_foldl_kept {target : Protocol} (hfield : ¬Stored target field) {write : Map → String × Value → Map}
    (hwrite : ∀ out entry, write out entry = out ∨
      ∃ kept, strip_start entry.1 (ext_start target) = some kept ∧ write out entry = Map.insert out kept entry.2) :
    (ext.foldl write body).lookup field = body.lookup field := by
  induction ext generalizing body with
  | nil => rfl
  | cons entry ext ih =>
    obtain ⟨hentry, hrest⟩ := List.forall_mem_cons.mp hext
    rw [List.foldl_cons, ih hrest]
    obtain hsame | ⟨kept, hstrip, hinsert⟩ := hwrite body entry
    · rw [hsame]
    · rw [hinsert]
      exact Map.get_insert_of_ne _ _ _ fun heq => hfield (heq ▸ hentry.stored hstrip)

theorem chat.lookup_restore (hfield : ¬Stored .chat field) :
    (chat.restore_extensions ext body).lookup field = body.lookup field := by
  exact lookup_foldl_kept hext body hfield fun out entry => written_or_not out entry.2

theorem messages.lookup_restore (hfield : ¬Stored .messages field) (skip : List String) :
    (messages.restore_extensions ext body skip).lookup field = body.lookup field := by
  exact lookup_foldl_kept hext body hfield fun out entry => written_or_not out entry.2

theorem responses.lookup_write (hfield : ¬Stored .responses field) (skip : List String) :
    (responses.write_extensions ext body skip).lookup field = body.lookup field := by
  exact lookup_foldl_kept hext body hfield fun out entry => written_or_not out entry.2

end Written

section Requests

/-- The thinking configuration of a Gemini request. -/
def gemini.thinking (raw : Value) : Option Value :=
  (raw.as_object.bind gemini.generation_config).bind (gemini.field · "thinkingConfig" "thinking_config")

/-- The budget of a Gemini request. -/
def gemini.budget (raw : Value) : Option Int := ((gemini.thinking raw).bind Value.as_object).bind gemini.thinking_budget

/-- The level of a request to an OpenAI protocol. -/
def effort : Protocol → Value → Option String
  | .chat, raw => raw.get_str "reasoning_effort"
  | _, raw => (raw.get "reasoning").bind (·.get_str "effort")

/-- A request switches reasoning off in its protocol's terms. -/
def Disables : Protocol → Value → Prop
  | .messages, raw => (raw.get "thinking").bind (·.get_str "type") = some "disabled"
  | .gemini, raw => gemini.budget raw = some 0
  | protocol, raw => effort protocol raw = some "none"

/-- A request switches reasoning on. -/
def Enables : Protocol → Value → Prop
  | .messages, raw => (raw.get "thinking").bind (·.get_str "type") = some "enabled"
  | .gemini, raw => ∃ budget, gemini.budget raw = some budget ∧ budget ≠ 0
  | protocol, raw => ∃ level, effort protocol raw = some level ∧ level ≠ "none"

/-- A request says something about reasoning. -/
def Mentions : Protocol → Value → Prop
  | .chat, raw => (raw.get "reasoning_effort").isSome
  | .responses, raw => (raw.get "reasoning").isSome
  | .messages, raw => (raw.get "thinking").isSome
  | .gemini, raw => (gemini.thinking raw).isSome

/-- What a client switched off is off in the request to the upstream, and says so;
    what it left open is left open. -/
def StaysOff (source target : Protocol) (raw out : Value) : Prop :=
  (Disables source raw → ¬Enables target out ∧ Disables target out) ∧ (¬Mentions source raw → ¬Mentions target out)

end Requests

section Answers

variable {serde : Serde} {source : Protocol} {ir : UnifiedRequest} (hext : ir.extensions.Every (Kept source))

include hext

theorem chat.get_effort : (chat.encode_request serde ir).get "reasoning_effort" = chat.encode_effort ir := by
  rw [chat.encode_request, Value.get_object, chat.lookup_restore hext _ (by unfold Stored; decide)]
  simp [chat.request_fields, List.lookup_append, lookup_member, List.lookup_cons]

theorem responses.get_reasoning : (responses.encode_request serde ir).get "reasoning" =
    ir.reasoning.bind (responses.encode_reasoning · ir.max_output_tokens) := by
  rw [responses.encode_request, Value.get_object, responses.lookup_write hext _ (by unfold Stored; decide)]
  simp [responses.request_fields, List.lookup_append, lookup_member, List.lookup_cons]

theorem messages.get_thinking : (messages.encode_request ir).get "thinking" = messages.encode_reasoning ir := by
  rw [messages.encode_request, Value.get_object, messages.lookup_restore hext _ (by unfold Stored; decide)]
  simp [messages.request_fields, List.lookup_append, lookup_member, List.lookup_cons]

omit hext

/-- A configuration that says nothing about thinking. -/
def Unthinking (m : Map) : Prop := m.lookup "thinkingConfig" = none ∧ m.lookup "thinking_config" = none

theorem gemini.format_unthinking (ir : UnifiedRequest) : Unthinking (gemini.encode_response_format ir) := by
  unfold gemini.encode_response_format Unthinking
  split <;> simp [lookup_member, List.lookup_cons]

/-- Where what the representation does not name is written first, the thinking
    configuration is the one of the representation. -/
theorem gemini.thinking_encode (hextra : ∀ m, ir.extension (gemini.EXT ++ "generationConfig") = some (.object m) → Unthinking m) :
    gemini.thinking (gemini.encode_request serde ir) = gemini.encode_thinking_config ir := by
  obtain ⟨hcamel, hsnake⟩ := gemini.format_unthinking ir
  have hnested : Unthinking (((ir.extension (gemini.EXT ++ "generationConfig")).bind Value.as_object).getD []) := by
    cases hget : ir.extension (gemini.EXT ++ "generationConfig") with
    | none => exact ⟨rfl, rfl⟩
    | some value =>
      cases value with
      | object m => exact hextra m hget
      | _ => exact ⟨rfl, rfl⟩
  have hconfig : (gemini.encode_generation ir).lookup "thinkingConfig" = gemini.encode_thinking_config ir ∧
      (gemini.encode_generation ir).lookup "thinking_config" = none := by
    unfold gemini.encode_generation
    constructor
    · rw [List.foldl_append]
      cases gemini.encode_thinking_config ir with
      | some tc => exact Map.get_insert_self _ _ _
      | none =>
        rw [show member "thinkingConfig" none = [] from rfl, List.foldl_nil, lookup_foldl_insert, lookup_foldl_insert hnested.1]
        · rfl
        · simp [List.lookup_append, lookup_member, hcamel]
    · rw [lookup_foldl_insert, lookup_foldl_insert hnested.2]
      · rfl
      · simp [List.lookup_append, lookup_member, hsnake]
  have hgeneration : (gemini.encode_request serde ir).as_object.bind gemini.generation_config =
      if (gemini.encode_generation ir).isEmpty then none else some (gemini.encode_generation ir) := by
    unfold gemini.encode_request gemini.generation_config gemini.field
    rw [Value.as_object_object, Option.bind_some]
    by_cases hempty : gemini.encode_generation ir = [] <;>
      simp [Map.get, List.lookup_append, lookup_member, List.lookup_cons, hempty]
  rw [gemini.thinking, hgeneration]
  split
  next hempty =>
    rw [List.isEmpty_iff] at hempty
    rw [Option.bind_none, ← hconfig.1, hempty]
    rfl
  · rw [Option.bind_some, gemini.field, Map.get, Map.get, hconfig.1, hconfig.2, Option.or_none]

theorem gemini.lookup_budget (ir : UnifiedRequest) (r : ReasoningConfig) :
    gemini.thinking_budget (gemini.encode_thinking ir r) =
      if (ir.extension (gemini.EXT ++ "dynamicThinking")).bind Value.as_bool = some true then some (-1)
      else ((r.budget_or_from_effort ir.max_output_tokens).map Value.nat).bind Value.as_i64 := by
  unfold gemini.thinking_budget gemini.field gemini.encode_thinking Map.get
  split <;> simp [List.lookup_append, lookup_member]
  rfl

end Answers

section Asked

variable {serde : Serde} {raw : Value} {ir : UnifiedRequest}

/-- What a request asks for. -/
def asked : Protocol → Value → Option ReasoningConfig
  | .chat, raw => (raw.get_str "reasoning_effort").map fun effort => { effort := some effort }
  | .responses, raw => (raw.get "reasoning").bind responses.decode_reasoning
  | .messages, raw => (raw.get "thinking").bind messages.decode_thinking
  | .gemini, raw => ((gemini.thinking raw).bind Value.as_object).bind gemini.decode_thinking

/-- The limit a request names. -/
def limit : Protocol → Value → Option Nat
  | .chat, raw => (chat.as_u32 (raw.get "max_completion_tokens")).or (chat.as_u32 (raw.get "max_tokens"))
  | .responses, raw => (raw.get "max_output_tokens").bind responses.as_u32
  | .messages, raw => messages.as_u32 (raw.get "max_tokens")
  | .gemini, raw => (raw.as_object.bind gemini.generation_config).bind fun gen_cfg =>
    gemini.as_u32 (gemini.field gen_cfg "maxOutputTokens" "max_output_tokens")

theorem messages.decode_max_tokens_eq {value : Option Value} {n : Nat} (h : messages.decode_max_tokens value = .ok n) :
    messages.as_u32 value = some n := by
  unfold messages.decode_max_tokens at h
  split at h
  · split at h
    next hn =>
      obtain rfl := Except.ok.inj h
      exact hn
    · cases h
  · cases h
  · cases h

/-- A request is decoded into what it asks for, under the limit it names. -/
theorem decode_request_asked {source : Protocol} (h : decode_request serde source raw = .ok ir) :
    ir.reasoning = asked source raw ∧ ir.max_output_tokens = limit source raw := by
  cases source with
  | chat =>
    obtain ⟨obj, rfl, hread⟩ := chat.decode_request_decodesTo h
    exact ⟨hread.reasoning, hread.max_output_tokens⟩
  | responses =>
    obtain ⟨obj, rfl, hread⟩ := responses.decode_request_decodesTo h
    exact ⟨hread.reasoning, hread.max_output_tokens⟩
  | messages =>
    obtain ⟨obj, rfl, hread⟩ := messages.decode_request_decodesTo h
    obtain ⟨max_tokens, hmax, hlimit⟩ := hread.max_output_tokens
    exact ⟨hread.reasoning, hlimit.trans (messages.decode_max_tokens_eq hmax).symm⟩
  | gemini =>
    obtain ⟨obj, rfl, hread⟩ := gemini.decode_request_decodesTo h
    have hconfig : (gemini.generation_config obj).bind gemini.thinking_config =
        (gemini.thinking (.object obj)).bind Value.as_object := by
      rw [gemini.thinking, Value.as_object_object, Option.bind_some, Option.bind_assoc]
      rfl
    exact ⟨hread.reasoning.trans (congrArg (·.bind gemini.decode_thinking) hconfig), hread.max_output_tokens⟩

/-- What a request does not mention it does not ask for. -/
theorem asked_eq_none {source : Protocol} (h : ¬Mentions source raw) : asked source raw = none := by
  cases source with
  | chat =>
    have hnone : raw.get "reasoning_effort" = none := Option.not_isSome_iff_eq_none.mp h
    rw [asked, Value.get_str, hnone]
    rfl
  | responses => rw [asked, Option.not_isSome_iff_eq_none.mp h, Option.bind_none]
  | messages => rw [asked, Option.not_isSome_iff_eq_none.mp h, Option.bind_none]
  | gemini => rw [asked, Option.not_isSome_iff_eq_none.mp h, Option.bind_none, Option.bind_none]

end Asked

section Off

variable {serde : Serde} {source : Protocol} {raw : Value} {ir : UnifiedRequest} {r : ReasoningConfig}

/-- The two ways to ask for no reasoning: by the lowest level, or by no tokens. -/
inductive Off (r : ReasoningConfig) : Bool → Prop
  | level (heffort : r.effort = some "none") (hbudget : r.budget_tokens = none) : Off r true
  | budget (heffort : r.effort = none) (hbudget : r.budget_tokens = some 0) : Off r false

/-- Whether a request that switches reasoning off wants to see it. -/
def shown : Protocol → Value → Option Bool
  | .chat, _ => none
  | .responses, raw => ((raw.get "reasoning").bind (·.get_str "summary")).map (· ≠ "none")
  | .messages, _ => some false
  | .gemini, raw => ((gemini.thinking raw).bind Value.as_object).bind fun tc =>
    (gemini.field tc "includeThoughts" "include_thoughts").bind Value.as_bool

/-- A request that switches reasoning off asks for none: by a level, but for Gemini. -/
theorem asked_of_disables (h : Disables source raw) :
    ∃ r, asked source raw = some r ∧ Off r (source ≠ .gemini) ∧ r.include_thoughts = shown source raw := by
  cases source with
  | chat =>
    have heffort : raw.get_str "reasoning_effort" = some "none" := h
    exact ⟨{ effort := some "none" }, by rw [asked, heffort]; rfl, .level rfl rfl, rfl⟩
  | responses =>
    obtain ⟨reasoning, hget, heffort⟩ := Option.bind_eq_some_iff.mp (show (raw.get "reasoning").bind _ = _ from h)
    refine ⟨{ effort := some "none", include_thoughts := shown .responses raw }, ?_, .level rfl rfl, rfl⟩
    rw [asked, shown, hget, Option.bind_some, responses.decode_reasoning, if_neg (by simp [heffort]), heffort]
    rfl
  | messages =>
    obtain ⟨thinking, hget, hkind⟩ := Option.bind_eq_some_iff.mp (show (raw.get "thinking").bind _ = _ from h)
    refine ⟨{ effort := some "none", include_thoughts := some false }, ?_, .level rfl rfl, rfl⟩
    rw [asked, hget, Option.bind_some, messages.decode_thinking, hkind]
    rfl
  | gemini =>
    obtain ⟨tc, hget, hbudget⟩ := Option.bind_eq_some_iff.mp (show ((gemini.thinking raw).bind _).bind _ = _ from h)
    refine ⟨{ budget_tokens := some 0, include_thoughts := shown .gemini raw }, ?_, .budget rfl rfl, rfl⟩
    rw [asked, shown, hget, Option.bind_some, gemini.decode_thinking, hbudget]
    rfl

theorem Off.effort_or_from_budget {by_level : Bool} (h : Off r by_level) (max_output : Option Nat) :
    r.effort_or_from_budget max_output = some (if by_level then "minimal" else "low") := by
  cases h with
  | level heffort => rw [ReasoningConfig.effort_or_from_budget, heffort]; rfl
  | budget heffort hbudget =>
    rw [ReasoningConfig.effort_or_from_budget, heffort, hbudget]
    dsimp only [Option.map_some]
    rw [if_neg (by omega), if_neg (by omega)]
    rfl

theorem Off.budget_or_from_effort {by_level : Bool} (h : Off r by_level) (max_output : Option Nat) :
    r.budget_or_from_effort max_output = if by_level then none else some 0 := by
  cases h with
  | level heffort hbudget =>
    rw [ReasoningConfig.budget_or_from_effort, hbudget, heffort]
    dsimp only [Option.bind_some]
    split
    · rfl
    · rfl
  | budget heffort hbudget =>
    rw [ReasoningConfig.budget_or_from_effort, hbudget]
    rfl

theorem not_enables_of_disables {protocol : Protocol} (h : Disables protocol raw) : ¬Enables protocol raw := by
  cases protocol with
  | messages =>
    intro henabled
    have heq : some "enabled" = some "disabled" := henabled.symm.trans h
    exact absurd heq (by decide)
  | gemini =>
    rintro ⟨budget, hbudget, hne⟩
    exact hne (Option.some.inj (hbudget.symm.trans h))
  | chat =>
    rintro ⟨level, hlevel, hne⟩
    exact hne (Option.some.inj (hlevel.symm.trans h))
  | responses =>
    rintro ⟨level, hlevel, hne⟩
    exact hne (Option.some.inj (hlevel.symm.trans h))

variable {by_level : Bool} (hext : ir.extensions.Every (Kept source)) (hr : ir.reasoning = some r) (hoff : Off r by_level)

include hr hoff

section Encoders

include hext

theorem chat.disables_iff : Disables .chat (chat.encode_request serde ir) ↔ by_level = true := by
  have heffort : effort .chat (chat.encode_request serde ir) =
      r.effort.or (r.effort_or_from_budget ir.max_output_tokens) := by
    rw [effort, Value.get_str, chat.get_effort hext, chat.encode_effort, hr, Option.bind_some]
    cases r.effort.or (r.effort_or_from_budget ir.max_output_tokens) <;> rfl
  rw [Disables, heffort, hoff.effort_or_from_budget]
  · cases hoff with
    | level heffort => simp [heffort]
    | budget heffort => simp [heffort]
  · intro heq
    cases heq
  · intro heq
    cases heq

theorem responses.not_disables : ¬Disables .responses (responses.encode_request serde ir) := by
  have heffort : effort .responses (responses.encode_request serde ir) = r.effort_or_from_budget ir.max_output_tokens := by
    rw [effort, responses.get_reasoning hext, hr, Option.bind_some, responses.encode_reasoning, hoff.effort_or_from_budget,
      if_neg (by simp [member])]
    · rfl
    · intro heq
      cases heq
  rw [Disables, heffort, hoff.effort_or_from_budget]
  · cases hoff <;> decide
  · intro heq
    cases heq
  · intro heq
    cases heq

theorem messages.disables_iff : Disables .messages (messages.encode_request ir) ↔
    r.include_thoughts = some false ∨ messages.max_tokens ir ≤ 1024 ∨ (by_level = true ∧ r.include_thoughts = none) := by
  have hthinking : (messages.encode_request ir).get "thinking" =
      some (messages.encode_thinking r (some (messages.max_tokens ir))) := by
    rw [messages.get_thinking hext, messages.encode_reasoning, hr, Option.map_some]
  have hdisabled : messages.disabled.get_str "type" = some "disabled" := rfl
  have henabled : ∀ n, (messages.enabled n).get_str "type" = some "enabled" := fun _ => rfl
  have hne : some "enabled" ≠ some "disabled" := by decide
  rw [Disables, hthinking, Option.bind_some, messages.encode_thinking, hoff.budget_or_from_effort, Option.map_some]
  rcases hshown : r.include_thoughts with - | (- | -)
  · cases by_level with
    | true => simp [hdisabled]
    | false =>
      dsimp only [Bool.false_eq_true, if_false, Option.some_or]
      by_cases hlimit : messages.max_tokens ir ≤ 1024
      · simp [hlimit, hdisabled, show messages.max_tokens ir - 1 < 1024 by omega]
      · simp [hlimit, henabled, show ¬messages.max_tokens ir - 1 < 1024 by omega]
  · simp [hdisabled]
  · by_cases hlimit : messages.max_tokens ir ≤ 1024
    · cases by_level <;> simp [hlimit, hdisabled, show messages.max_tokens ir - 1 < 1024 by omega]
    · cases by_level <;> simp [hlimit, henabled, show ¬messages.max_tokens ir - 1 < 1024 by omega]

end Encoders

theorem gemini.disables_iff
    (hextra : ∀ m, ir.extension (gemini.EXT ++ "generationConfig") = some (.object m) → Unthinking m) :
    Disables .gemini (gemini.encode_request serde ir) ↔
      by_level = false ∧ (ir.extension (gemini.EXT ++ "dynamicThinking")).bind Value.as_bool ≠ some true := by
  have hbudget : gemini.budget (gemini.encode_request serde ir) = gemini.thinking_budget (gemini.encode_thinking ir r) := by
    rw [gemini.budget, gemini.thinking_encode hextra, gemini.encode_thinking_config, hr, Option.bind_some]
    split
    next hempty =>
      rw [List.isEmpty_iff.mp hempty]
      rfl
    · rfl
  rw [Disables, hbudget, gemini.lookup_budget, hoff.budget_or_from_effort]
  cases by_level <;> by_cases hdynamic : (ir.extension (gemini.EXT ++ "dynamicThinking")).bind Value.as_bool = some true
  · simp [hdynamic]
  · simp [hdynamic]
    rfl
  · simp [hdynamic]
  · simp [hdynamic]

end Off

section Kept

variable {serde : Serde} {source : Protocol} {raw : Value} {ir : UnifiedRequest}

/-- The known fields of a generation configuration are not among the others. -/
theorem gemini.other_unthinking (gen_cfg : Map) : Unthinking (gemini.other_generation gen_cfg) := by
  have hknown : ∀ key ∈ gemini.KNOWN_GENERATION_FIELDS, (gemini.other_generation gen_cfg).lookup key = none := by
    intro key hkey
    rw [List.lookup_eq_none_iff]
    intro entry hentry
    refine bne_iff_ne.mpr fun heq => ?_
    have hother := (List.mem_filter.mp hentry).2
    rw [Bool.not_eq_true', ← heq, List.contains_iff_mem.mpr hkey] at hother
    cases hother
  exact ⟨hknown _ (by decide), hknown _ (by decide)⟩

/-- What is kept of a generation configuration says nothing about thinking. -/
theorem decode_request_unthinking (h : decode_request serde source raw = .ok ir) :
    ∀ m, ir.extension (gemini.EXT ++ "generationConfig") = some (.object m) → Unthinking m := by
  intro m hget
  have hsource : source = .gemini :=
    Carries.unique ((decode_request_kept h).get hget).carried (carries_own .gemini "generationConfig")
  subst hsource
  have hevery : ir.extensions.Every fun key value =>
      key = gemini.EXT ++ "generationConfig" → ∀ m, value = .object m → Unthinking m := by
    obtain ⟨obj, -, hread⟩ := gemini.decode_request_decodesTo h
    obtain ⟨tools, htools⟩ := hread.extensions
    rw [htools, gemini.request_extensions]
    refine Extensions.Every.foldl (fun _ entry hext => hext.keep_unless fun hkey heq => absurd ?_ hkey) ?_
    · have hfield : entry.1 = "generationConfig" := by
        rw [← String.toList_inj, String.toList_append, String.toList_append] at heq
        exact String.toList_inj.mp (List.append_cancel_left heq)
      rw [hfield]
      decide
    refine Extensions.Every.keep ?_ fun _ _ heq => absurd heq (by decide)
    refine Extensions.Every.keep ?_ fun _ _ heq => absurd heq (by decide)
    refine Extensions.Every.keep ?_ fun value hvalue _ m hm => ?_
    · refine Extensions.Every.keep ?_ fun _ _ heq => absurd heq (by decide)
      refine Extensions.Every.keep ?_ fun _ _ heq => absurd heq (by decide)
      refine Extensions.Every.keep ?_ fun _ _ heq => absurd heq (by decide)
      exact Extensions.Every.nil.keep fun _ _ heq => absurd heq (by decide)
    · subst hm
      cases hgen : gemini.generation_config obj with
      | none => simp [hgen] at hvalue
      | some gen_cfg =>
        simp only [hgen, Option.map_some, Option.getD_some, Option.ite_none_left_eq_some, Option.some.injEq,
          Value.object.injEq] at hvalue
        exact hvalue.2 ▸ gemini.other_unthinking gen_cfg
  exact hevery.get hget rfl m rfl

/-- A request of a fixed budget leaves nothing to the model, unless a field of
    that name says so. -/
theorem gemini.dynamic_of_budget (hraw : raw.WellFormed) (h : gemini.decode_request serde raw = .ok ir)
    (hbudget : gemini.budget raw = some 0) :
    ir.extension (gemini.EXT ++ "dynamicThinking") = raw.get "dynamicThinking" := by
  obtain ⟨obj, rfl, hread⟩ := gemini.decode_request_decodesTo h
  obtain ⟨tools, htools⟩ := hread.extensions
  have hfixed : (((gemini.generation_config obj).bind gemini.thinking_config).map gemini.is_dynamic).getD false = false := by
    obtain ⟨tc, htc, hzero⟩ := Option.bind_eq_some_iff.mp hbudget
    have hconfig : (gemini.generation_config obj).bind gemini.thinking_config = some tc := by
      rw [gemini.thinking, Value.as_object_object, Option.bind_some, Option.bind_assoc] at htc
      exact htc
    rw [hconfig, Option.map_some, Option.getD_some, gemini.is_dynamic, hzero]
    rfl
  have hkeys := ((Value.wellFormed_object obj).mp hraw).1
  rw [UnifiedRequest.extension, htools, gemini.request_extensions, Extensions.get_foldl_unknown (by decide) hkeys, hfixed,
    if_neg (show ¬false = true by decide), Value.get_object]
  refine (congrArg _ (Extensions.get_eq_none ?_)).trans Option.or_none
  refine Extensions.Every.keep ?_ fun _ _ heq => absurd heq (by decide)
  refine Extensions.Every.keep ?_ fun _ _ heq => absurd heq (by decide)
  refine Extensions.Every.keep ?_ fun _ _ heq => absurd heq (by decide)
  refine Extensions.Every.keep (Extensions.Every.keep ?_ fun _ _ heq => absurd heq (by decide)) fun _ hnone => by cases hnone
  refine Extensions.Every.keep ?_ fun _ _ heq => absurd heq (by decide)
  exact Extensions.Every.nil.keep fun _ _ heq => absurd heq (by decide)

end Kept

section Pairs

variable {serde : Serde} {source target : Protocol} {raw : Value} {ir : UnifiedRequest}

/-- The ways to switch reasoning off that the encoder of the target writes as off:
    levels for Chat, and no tokens for Gemini. The Messages encoder also goes by
    whether thoughts are to be seen, and by a limit that leaves no room for any. -/
def WrittenOff : Protocol → Protocol → Value → Prop
  | source, .chat, _ => source ≠ .gemini
  | _, .responses, _ => False
  | source, .messages, raw =>
    shown source raw = some false ∨ (limit source raw).getD messages.DEFAULT_MAX_TOKENS ≤ 1024 ∨
      (source ≠ .gemini ∧ shown source raw = none)
  | source, .gemini, raw => source = .gemini ∧ (raw.get "dynamicThinking").bind Value.as_bool ≠ some true

/-- What is not asked for is not mentioned. -/
theorem not_mentions_of_none (h : decode_request serde source raw = .ok ir) (hr : ir.reasoning = none) :
    ¬Mentions target (encode_request serde target ir) := by
  have hext := decode_request_kept h
  cases target with
  | chat =>
    have hnone : (chat.encode_request serde ir).get "reasoning_effort" = none := by
      rw [chat.get_effort hext, chat.encode_effort, hr, Option.bind_none]
    simp [Mentions, encode_request, hnone]
  | responses =>
    have hnone : (responses.encode_request serde ir).get "reasoning" = none := by
      rw [responses.get_reasoning hext, hr, Option.bind_none]
    simp [Mentions, encode_request, hnone]
  | messages =>
    have hnone : (messages.encode_request ir).get "thinking" = none := by
      rw [messages.get_thinking hext, messages.encode_reasoning, hr, Option.map_none]
    simp [Mentions, encode_request, hnone]
  | gemini =>
    have hnone : gemini.thinking (gemini.encode_request serde ir) = none := by
      rw [gemini.thinking_encode (decode_request_unthinking h), gemini.encode_thinking_config, hr, Option.bind_none]
    simp [Mentions, encode_request, hnone]

/-- A request that switches reasoning off is written as one that does, in the ways
    its target writes as off alone. -/
theorem disables_encode_iff (hraw : raw.WellFormed) (h : decode_request serde source raw = .ok ir)
    (hoff : Disables source raw) : Disables target (encode_request serde target ir) ↔ WrittenOff source target raw := by
  obtain ⟨hasked, hlimit⟩ := decode_request_asked h
  obtain ⟨r, hr, hr_off, hshown⟩ := asked_of_disables hoff
  rw [hr] at hasked
  have hext := decode_request_kept h
  cases target with
  | chat =>
    have hiff : Disables .chat (chat.encode_request serde ir) ↔ _ := chat.disables_iff hext hasked hr_off
    exact hiff.trans (by simp [WrittenOff])
  | responses =>
    exact iff_of_false (responses.not_disables hext hasked hr_off) id
  | messages =>
    refine (messages.disables_iff hext hasked hr_off).trans ?_
    rw [hshown, messages.max_tokens, hlimit]
    simp [WrittenOff]
  | gemini =>
    have hiff : Disables .gemini (gemini.encode_request serde ir) ↔ _ :=
      gemini.disables_iff hasked hr_off (decode_request_unthinking h)
    refine hiff.trans ?_
    refine and_congr_right_iff.mpr ?_ |>.trans (and_congr_left' ?_)
    · intro hgemini
      have hsource : source = .gemini := by simpa using hgemini
      subst hsource
      rw [gemini.dynamic_of_budget hraw h hoff]
    · simp

/-- What a client switched off stays off, and what it left open stays open, but
    for the ways to switch it off that the target's encoder does not write as off. -/
theorem stays_off_iff (hraw : raw.WellFormed) (h : decode_request serde source raw = .ok ir) :
    StaysOff source target raw (encode_request serde target ir) ↔ (Disables source raw → WrittenOff source target raw) := by
  have hopen : ¬Mentions source raw → ¬Mentions target (encode_request serde target ir) := fun hnot =>
    not_mentions_of_none h ((decode_request_asked h).1.trans (asked_eq_none hnot))
  constructor
  · rintro ⟨hstays, -⟩ hoff
    exact (disables_encode_iff hraw h hoff).mp (hstays hoff).2
  · intro hwritten
    refine ⟨fun hoff => ?_, hopen⟩
    have hdisables := (disables_encode_iff hraw h hoff).mpr (hwritten hoff)
    exact ⟨not_enables_of_disables hdisables, hdisables⟩

end Pairs

section Runs

/-- A request to Chat without reasoning. -/
def no_effort : Value :=
  .object [("model", .string "m"), ("messages", .array []), ("reasoning_effort", .string "none")]

theorem no_effort_stays_off_for_messages :
    ∃ ir, decode_request Serde.compact .chat no_effort = .ok ir ∧
      StaysOff .chat .messages no_effort (encode_request Serde.compact .messages ir) :=
  ⟨_, rfl, (stays_off_iff (show no_effort.WellFormed by simp [no_effort])
    (show decode_request Serde.compact .chat no_effort = .ok _ from rfl)).mpr fun _ => .inr (.inr ⟨by decide, rfl⟩)⟩

/-- A request to Gemini without tokens to think with. -/
def no_budget : Value :=
  .object [("contents", .array []),
    ("generationConfig", .object [("thinkingConfig", .object [("thinkingBudget", .nat 0)])])]

/-- For Messages it thinks with the least budget. -/
theorem no_budget_is_enabled :
    ¬∀ (source target : Protocol) (raw : Value) (ir : UnifiedRequest), raw.WellFormed →
      decode_request Serde.compact source raw = .ok ir →
      StaysOff source target raw (encode_request Serde.compact target ir) := by
  intro hall
  obtain ⟨hstays, -⟩ := hall .gemini .messages no_budget _ (by simp [no_budget]) rfl
  exact (hstays rfl).1 rfl

end Runs

end refract.codec
