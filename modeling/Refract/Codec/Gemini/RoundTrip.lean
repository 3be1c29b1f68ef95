import Refract.Codec.Gemini.Regular

open refract.core refract.json refract.ir refract.machine

namespace refract.codec.gemini

section Extensions

variable {ext : Extensions} {key other : String} {value : Value} {obj : Map} {tools : List Value}

theorem get_insert : (ext.insert key value).get other = if other = key then some value else ext.get other := by
  unfold Extensions.get
  induction ext with
  | nil => exact lookup_cons_ite
  | cons entry ext ih =>
    obtain ⟨k, v⟩ := entry
    unfold Extensions.insert
    split
    next hsame =>
      subst hsame
      rw [lookup_cons_ite, lookup_cons_ite]
      split <;> rfl
    next hdiffers =>
      split
      · exact lookup_cons_ite
      · rw [lookup_cons_ite, lookup_cons_ite, ih]
        by_cases hother : other = k
        · subst hother
          rw [if_pos rfl, if_neg hdiffers, if_pos rfl]
        · rw [if_neg hother, if_neg hother]

@[simp] theorem get_nil : Extensions.get [] key = none := rfl

theorem get_keep (kept : Option Value) :
    (keep key kept ext).get other = if other = key then kept.or (ext.get other) else ext.get other := by
  cases kept with
  | none => simp [keep]
  | some value => simp [keep, get_insert]

/-- No member has the name of one of the entries that are kept for the encoder. -/
def Free (obj : Map) : Prop :=
  ∀ name ∈ ["builtinTools", "allowedFunctionNames", "responseMimeType", "dynamicThinking"], Map.get obj name = none

/-- The members that are not known are kept beside the other entries. -/
theorem get_others {name : String} (hname : name ∈ KNOWN_REQUEST_FIELDS ∨ Map.get obj name = none) :
    (obj.foldl (fun ext (key, value) =>
      if KNOWN_REQUEST_FIELDS.contains key then ext else ext.insert (EXT ++ key) value) ext).get (EXT ++ name) = ext.get (EXT ++ name) := by
  induction obj generalizing ext with
  | nil => rfl
  | cons entry obj ih =>
    obtain ⟨k, v⟩ := entry
    have hrest : name ∈ KNOWN_REQUEST_FIELDS ∨ Map.get obj name = none := by
      refine hname.imp_right fun hnone => ?_
      rw [Map.get, List.lookup_cons] at hnone
      split at hnone
      · cases hnone
      · exact hnone
    rw [List.foldl_cons, ih hrest]
    dsimp only
    split
    · rfl
    next hunknown =>
      rw [get_insert, if_neg]
      intro hsame
      have hkey : name = k := by
        rw [← String.toList_inj, String.toList_append, String.toList_append] at hsame
        exact String.toList_inj.mp (List.append_cancel_left hsame)
      subst hkey
      rcases hname with hknown | hnone
      · exact hunknown (List.contains_iff_mem.mpr hknown)
      · rw [Map.get, List.lookup_cons_self] at hnone
        cases hnone

variable (hfree : Free obj)

include hfree

theorem kept_builtins :
    (request_extensions obj tools).get (EXT ++ "builtinTools") =
      if (builtin_tools tools).isEmpty then none else some (.array (builtin_tools tools)) := by
  rw [request_extensions, get_others (.inr (hfree _ (by decide)))]
  simp [get_keep, EXT]

theorem kept_allowed_names : (request_extensions obj tools).get (EXT ++ "allowedFunctionNames") = kept_names obj := by
  rw [request_extensions, get_others (.inr (hfree _ (by decide)))]
  simp [get_keep, EXT]

theorem kept_mime_type :
    (request_extensions obj tools).get (EXT ++ "responseMimeType") = ((generation_config obj).bind other_mime_type).map .string := by
  rw [request_extensions, get_others (.inr (hfree _ (by decide)))]
  simp [get_keep, EXT]

theorem kept_dynamic :
    (request_extensions obj tools).get (EXT ++ "dynamicThinking") =
      if (((generation_config obj).bind thinking_config).map is_dynamic).getD false then some (.bool true) else none := by
  rw [request_extensions, get_others (.inr (hfree _ (by decide)))]
  simp [get_keep, EXT]

omit hfree

theorem kept_generation :
    (request_extensions obj tools).get (EXT ++ "generationConfig") =
      if (((generation_config obj).map other_generation).getD []).isEmpty then none
      else some (.object (((generation_config obj).map other_generation).getD [])) := by
  rw [request_extensions, get_others (.inl (by decide))]
  simp [get_keep, EXT]

theorem kept_safety : (request_extensions obj tools).get (EXT ++ "safetySettings") = field obj "safetySettings" "safety_settings" := by
  rw [request_extensions, get_others (.inl (by decide))]
  simp [get_keep, EXT]

theorem kept_cached : (request_extensions obj tools).get (EXT ++ "cachedContent") = field obj "cachedContent" "cached_content" := by
  rw [request_extensions, get_others (.inl (by decide))]
  simp [get_keep, EXT]

end Extensions

section Tools

def FUNCTION_NAMES : List (String × String) := [("name", "name"), ("description", "description"), ("parameters", "parameters")]

/-- The declaration of a function with its parameters. -/
inductive PlainFunction : Value → Prop
  | mk {obj : Map} {name : String} {parameters : Value} (hname : Map.get obj "name" = some (.string name))
      (hdescription : Map.get obj "description" = none ∨
        ∃ description, Map.get obj "description" = some (.string description) ∧ description ≠ "")
      (hparameters : Map.get obj "parameters" = some parameters) (honly : Only ["name", "description", "parameters"] obj) :
      PlainFunction (.object obj)

/-- All functions in one tool, and after it the tools of other kinds. -/
def gathered (tools : List Value) : List Value :=
  (if (tools.flatMap declarations).isEmpty then []
    else [.object [("functionDeclarations", .array ((tools.flatMap declarations).map (camel_object FUNCTION_NAMES)))]]) ++
    builtin_tools tools

theorem decode_encode_declaration {decl : Value} (hplain : PlainFunction decl) :
    ∃ tool, decode_declaration decl = .ok [tool] ∧ encode_tool tool = camel_object FUNCTION_NAMES decl := by
  cases hplain with
  | @mk obj name parameters hname hdescription hparameters honly =>
    have hstr : (Value.object obj).get_str "name" = some name := by
      rw [Value.get_str, Value.get, hname]
      rfl
    have hdescribed : (non_empty_str (Map.get obj "description")).map .string = Map.get obj "description" := by
      rcases hdescription with hnone | ⟨description, hsome, hvisible⟩
      · rw [hnone]
        rfl
      · rw [hsome, non_empty_str_some hvisible]
        rfl
    refine ⟨⟨name, non_empty_str (Map.get obj "description"), parameters, none⟩, ?_, ?_⟩
    · rw [decode_declaration, hstr]
      dsimp only [Value.get]
      rw [hparameters]
      rfl
    · rw [encode_tool, hdescribed]
      simp [camel_object, FUNCTION_NAMES, respell, field_self, hname, hparameters, member]

theorem decode_encode_declarations {decls : List Value} (hplain : ∀ decl ∈ decls, PlainFunction decl) :
    ∃ tools, decode_declarations decls = .ok tools ∧ tools.map encode_tool = decls.map (camel_object FUNCTION_NAMES) := by
  induction decls with
  | nil => exact ⟨[], rfl, rfl⟩
  | cons decl decls ih =>
    obtain ⟨hdecl, hplain⟩ := List.forall_mem_cons.mp hplain
    obtain ⟨tool, hread, hwritten⟩ := decode_encode_declaration hdecl
    obtain ⟨rest, hrest, htools⟩ := ih hplain
    refine ⟨tool :: rest, ?_, ?_⟩
    · rw [decode_declarations, hread, Except.bind, hrest]
      rfl
    · rw [List.map_cons, List.map_cons, hwritten, htools]

theorem encode_gathered {ir : UnifiedRequest} {tools : List Value}
    (hfunctions : ir.tools.map encode_tool = (tools.flatMap declarations).map (camel_object FUNCTION_NAMES))
    (hbuiltins : ir.extension (EXT ++ "builtinTools") =
      if (builtin_tools tools).isEmpty then none else some (.array (builtin_tools tools))) :
    encode_tools ir = gathered tools := by
  have hlength := congrArg List.length hfunctions
  rw [List.length_map, List.length_map] at hlength
  have hempty : ir.tools.isEmpty = (tools.flatMap declarations).isEmpty := by
    rw [Bool.eq_iff_iff, List.isEmpty_iff, List.isEmpty_iff, ← List.length_eq_zero_iff, ← List.length_eq_zero_iff, hlength]
  rw [encode_tools, gathered, hfunctions, hempty, hbuiltins]
  congr 1
  by_cases hnone : (builtin_tools tools).isEmpty
  · rw [if_pos hnone]
    exact (List.isEmpty_iff.mp hnone).symm
  · rw [if_neg hnone]

end Tools

section Choice

def CHOICE_NAMES : List (String × String) := [("mode", "mode"), ("allowedFunctionNames", "allowed_function_names")]

/-- How calls are configured: by one of the modes, and by names where one has to be called. -/
inductive PlainChoice (fc : Map) : Prop
  | mode (mode : String) (hmode : Map.get fc "mode" = some (.string mode)) (hknown : mode = "AUTO" ∨ mode = "ANY" ∨ mode = "NONE")
      (honly : Only ["mode"] fc)
  | names (names : Value) (hmode : Map.get fc "mode" = some (.string "ANY")) (hnames : allowed_names fc = some names)
      (honly : Only ["mode", "allowedFunctionNames", "allowed_function_names"] fc)

inductive PlainToolConfig : Value → Prop
  | mk {obj fc : Map} (hfc : field obj "functionCallingConfig" "function_calling_config" = some (.object fc)) (hplain : PlainChoice fc)
      (honly : Only ["functionCallingConfig", "function_calling_config"] obj) : PlainToolConfig (.object obj)

def camel_tool_config (cfg : Value) : Value :=
  match cfg with
  | .object obj =>
    .object (member "functionCallingConfig"
      ((field obj "functionCallingConfig" "function_calling_config").map (camel_object CHOICE_NAMES)))
  | other => other

/-- What is called is written as it was read. The names of which one has to be called are kept
    beside the representation, but for a single one. -/
theorem encode_choice {ir : UnifiedRequest} {fc : Map} (hplain : PlainChoice fc) (hchoice : ir.tool_choice = decode_tool_choice fc)
    (hkept : ir.extension (EXT ++ "allowedFunctionNames") = if decode_tool_choice fc = .required then allowed_names fc else none) :
    encode_tool_choice ir = some (camel_object CHOICE_NAMES (.object fc)) := by
  cases hplain with
  | mode mode hmode hknown honly =>
    have hnames : allowed_names fc = none := honly.field_eq_none (by decide) (by decide)
    have hrespelled : camel_object CHOICE_NAMES (.object fc) = .object [("mode", .string mode)] := by
      have hnone : field fc "allowedFunctionNames" "allowed_function_names" = none := hnames
      simp [camel_object, CHOICE_NAMES, respell, field_self, hmode, hnone, member]
    rw [hrespelled]
    rcases hknown with rfl | rfl | rfl
    · have hread : decode_tool_choice fc = .auto := by
        rw [decode_tool_choice, hmode]
        rfl
      rw [encode_tool_choice, hchoice, hread]
    · have hread : decode_tool_choice fc = .required := by
        rw [decode_tool_choice, hmode, hnames]
        rfl
      rw [encode_tool_choice, hchoice, hkept, hread, if_pos rfl, hnames]
      rfl
    · have hread : decode_tool_choice fc = .none := by
        rw [decode_tool_choice, hmode]
        rfl
      rw [encode_tool_choice, hchoice, hread]
  | names names hmode hnames honly =>
    have hrespelled : camel_object CHOICE_NAMES (.object fc) = .object [("mode", .string "ANY"), ("allowedFunctionNames", names)] := by
      have hsome : field fc "allowedFunctionNames" "allowed_function_names" = some names := hnames
      simp [camel_object, CHOICE_NAMES, respell, field_self, hmode, hsome, member]
    have hread : (∃ name, names = .array [.string name] ∧ decode_tool_choice fc = .tool name) ∨ decode_tool_choice fc = .required := by
      rw [decode_tool_choice, hmode, hnames]
      cases names with
      | array items =>
        cases items with
        | nil => exact .inr rfl
        | cons first rest =>
          cases rest with
          | nil =>
            cases first with
            | string name => exact .inl ⟨name, rfl, rfl⟩
            | _ => exact .inr rfl
          | cons => cases first <;> exact .inr rfl
      | _ => exact .inr rfl
    rw [hrespelled]
    rcases hread with ⟨name, rfl, hread⟩ | hread
    · rw [encode_tool_choice, hchoice, hread]
    · rw [encode_tool_choice, hchoice, hkept, hread, if_pos rfl, hnames]
      rfl

end Choice

section Generation

def THINKING_NAMES : List (String × String) := [("thinkingBudget", "thinking_budget"), ("includeThoughts", "include_thoughts")]

def MIME_NAMES : List (String × String) := [("responseMimeType", "response_mime_type"), ("responseSchema", "response_schema")]

/-- What is thought with. That the model decides on the budget is read together with whether its
    thoughts are shown. -/
inductive PlainThinking (tc : Map) : Prop
  | budget (budget : Nat) (hbudget : field tc "thinkingBudget" "thinking_budget" = some (.nat budget)) (hle : budget ≤ U32_MAX)
      (hshown : field tc "includeThoughts" "include_thoughts" = none ∨
        ∃ shown, field tc "includeThoughts" "include_thoughts" = some (.bool shown))
  | dynamic (shown : Bool) (hbudget : field tc "thinkingBudget" "thinking_budget" = some (.number (.int (-1))))
      (hshown : field tc "includeThoughts" "include_thoughts" = some (.bool shown))
  | shown (shown : Bool) (hbudget : field tc "thinkingBudget" "thinking_budget" = none)
      (hshown : field tc "includeThoughts" "include_thoughts" = some (.bool shown))

/-- A configuration whose known entries have the values that they are there for. -/
structure PlainGeneration (gen : Map) : Prop where
  numbers : ∀ name ∈ [("temperature", "temperature"), ("topP", "top_p")], ∀ value, field gen name.1 name.2 = some value →
    ∃ number, as_f64 value = some number
  counts : ∀ name ∈ [("topK", "top_k"), ("candidateCount", "candidate_count"), ("maxOutputTokens", "max_output_tokens")],
    ∀ value, field gen name.1 name.2 = some value → ∃ n ≤ U32_MAX, value = .nat n
  seed : ∀ value, Map.get gen "seed" = some value → ∃ i, value.as_i64 = some i
  stop : ∀ value, field gen "stopSequences" "stop_sequences" = some value →
    ∃ texts : List String, texts ≠ [] ∧ value = .array (texts.map .string)
  mime : ∀ value, field gen "responseMimeType" "response_mime_type" = some value → ∃ mime, value = .string mime
  schema : ∀ value, field gen "responseSchema" "response_schema" = some value → mime_type gen = some "application/json"
  thinking : ∀ value, field gen "thinkingConfig" "thinking_config" = some value →
    ∃ tc, value = .object tc ∧ PlainThinking tc ∧
      Only ["thinkingBudget", "thinking_budget", "includeThoughts", "include_thoughts"] tc

theorem PlainGeneration.nil : PlainGeneration [] := by
  have hnone : ∀ camel snake, field [] camel snake = none := fun _ _ => rfl
  constructor <;> simp [hnone, Map.get]

/-- A configuration that is written again: numbers as they are read, and everything else as it
    was. -/
structure GenerationSpelled (gen out : Map) : Prop where
  numbers : ∀ name ∈ [("temperature", "temperature"), ("topP", "top_p")],
    (Map.get out name.1).bind as_f64 = (field gen name.1 name.2).bind as_f64
  values : ∀ name ∈ [("topK", "top_k"), ("candidateCount", "candidate_count"), ("maxOutputTokens", "max_output_tokens"), ("seed", "seed"),
    ("stopSequences", "stop_sequences")] ++ MIME_NAMES, Map.get out name.1 = field gen name.1 name.2
  thinking : Map.get out "thinkingConfig" = (field gen "thinkingConfig" "thinking_config").map (camel_object THINKING_NAMES)
  others : ∀ key ∉ KNOWN_GENERATION_FIELDS, Map.get out key = Map.get gen key

/-- A request that is read from a configuration. -/
structure ReadsGeneration (gen : Map) (ir : UnifiedRequest) : Prop where
  sampling : ir.sampling = decode_sampling gen
  max_output_tokens : ir.max_output_tokens = as_u32 (field gen "maxOutputTokens" "max_output_tokens")
  reasoning : ir.reasoning = (thinking_config gen).bind decode_thinking
  response_format : ir.response_format = decode_response_format gen
  mime : ir.extension (EXT ++ "responseMimeType") = (other_mime_type gen).map .string
  dynamic : ir.extension (EXT ++ "dynamicThinking") = if ((thinking_config gen).map is_dynamic).getD false then some (.bool true) else none
  others : ((ir.extension (EXT ++ "generationConfig")).bind Value.as_object).getD [] = other_generation gen

variable {gen : Map} {ir : UnifiedRequest}

theorem as_u32_nat {value : Option Value} (hplain : ∀ v, value = some v → ∃ n ≤ U32_MAX, v = .nat n) : (as_u32 value).map Value.nat = value := by
  cases value with
  | none => rfl
  | some v =>
    obtain ⟨n, hle, rfl⟩ := hplain v rfl
    have hlt : n < 18446744073709551616 := by
      unfold U32_MAX at hle
      omega
    rw [as_u32, Option.bind_some, Value.as_u64_nat_of_lt hlt, Option.map_some, Option.map_some, Nat.mod_eq_of_lt (Nat.lt_succ_of_le hle)]

theorem seed_spelled {value : Option Value} (hplain : ∀ v, value = some v → ∃ i, v.as_i64 = some i) :
    ((value.bind Value.as_i64).map fun seed => Value.number (.int seed)) = value := by
  cases value with
  | none => rfl
  | some v =>
    obtain ⟨i, hi⟩ := hplain v rfl
    rw [Option.bind_some, hi]
    unfold Value.as_i64 at hi
    split at hi
    · split at hi
      · rw [Option.some.inj hi]
        rfl
      · cases hi
    · cases hi

theorem stop_spelled {value : Option Value} (hplain : ∀ v, value = some v → ∃ texts : List String, texts ≠ [] ∧ v = .array (texts.map .string)) :
    (if (((value.bind Value.as_array).getD []).filterMap Value.as_str).isEmpty then none
      else some (Value.array ((((value.bind Value.as_array).getD []).filterMap Value.as_str).map .string))) = value := by
  cases value with
  | none => rfl
  | some v =>
    obtain ⟨texts, hsome, rfl⟩ := hplain v rfl
    have hread : (texts.map Value.string).filterMap Value.as_str = texts := by
      rw [List.filterMap_map]
      exact List.filterMap_some
    rw [Option.bind_some, Value.as_array_array, Option.getD_some, hread, if_neg (by simpa using hsome)]

theorem mime_spelled (hplain : PlainGeneration gen) (hreads : ReadsGeneration gen ir) : encode_response_format ir = respell MIME_NAMES gen := by
  have hmime : field gen "responseMimeType" "response_mime_type" = (mime_type gen).map .string := by
    rw [mime_type]
    cases hvalue : field gen "responseMimeType" "response_mime_type" with
    | none => rfl
    | some value =>
      obtain ⟨mime, rfl⟩ := hplain.mime value hvalue
      rfl
  have hschema : mime_type gen ≠ some "application/json" → field gen "responseSchema" "response_schema" = none := by
    intro hother
    by_contra hsome
    obtain ⟨value, hvalue⟩ := Option.ne_none_iff_exists'.mp hsome
    exact hother (hplain.schema value hvalue)
  have hformat := hreads.response_format
  have hkept := hreads.mime
  rw [respell, MIME_NAMES, List.flatMap_cons, List.flatMap_cons, List.flatMap_nil, hmime]
  unfold decode_response_format at hformat
  unfold other_mime_type at hkept
  unfold encode_response_format
  cases hread : mime_type gen with
  | none =>
    rw [hread] at hformat hkept
    rw [hformat, hkept, hschema (by simp [hread])]
    rfl
  | some mime =>
    by_cases hjson : mime = "application/json"
    · subst hjson
      rw [hread] at hformat
      cases hvalue : field gen "responseSchema" "response_schema" with
      | none =>
        rw [hvalue] at hformat
        rw [hformat]
        rfl
      | some schema =>
        rw [hvalue] at hformat
        rw [hformat]
        rfl
    · have hnone := hschema (by rw [hread]; simpa using hjson)
      by_cases htext : mime = "text/plain"
      · subst htext
        rw [hread] at hformat
        rw [hformat, hnone]
        rfl
      · have hother : ir.response_format = none := by
          rw [hformat, hread]
          split
          next heq => exact absurd (Option.some.inj heq) hjson
          next heq => exact absurd (Option.some.inj heq) htext
          · rfl
        rw [hread, Option.filter_some, if_pos (by simp [hjson, htext])] at hkept
        rw [hother, hkept, hnone]
        rfl

/-- What is read of a way to think, and whether the model decides on the budget. -/
theorem decode_plain_thinking {tc : Map} (hplain : PlainThinking tc) :
    ∃ budget : Option Nat,
      decode_thinking tc = some
        { budget_tokens := budget, include_thoughts := (field tc "includeThoughts" "include_thoughts").bind Value.as_bool } ∧
      ((field tc "includeThoughts" "include_thoughts").bind Value.as_bool).map .bool = field tc "includeThoughts" "include_thoughts" ∧
      (if is_dynamic tc then some (.number (.int (-1))) else budget.map Value.nat) = field tc "thinkingBudget" "thinking_budget" ∧
      (field tc "thinkingBudget" "thinking_budget" ≠ none ∨ field tc "includeThoughts" "include_thoughts" ≠ none) := by
  unfold is_dynamic decode_thinking thinking_budget
  cases hplain with
  | budget budget hbudget hle hshown =>
    have hread : (Value.nat budget).as_i64 = some (budget : Int) := by
      unfold U32_MAX at hle
      rw [Value.nat, Value.as_i64, if_pos (by omega)]
    refine ⟨some budget, ?_, ?_, ?_, .inl (by rw [hbudget]; exact Option.some_ne_none _)⟩
    · rw [hbudget, Option.bind_some, hread]
      simp [Option.filter_some, hle]
    · rcases hshown with hnone | ⟨shown, hsome⟩
      · rw [hnone]
        rfl
      · rw [hsome]
        rfl
    · rw [hbudget, Option.bind_some, hread, if_neg (by simp)]
      rfl
  | dynamic shown hbudget hshown =>
    refine ⟨none, ?_, ?_, ?_, .inl (by rw [hbudget]; exact Option.some_ne_none _)⟩
    · rw [hbudget, hshown]
      rfl
    · rw [hshown]
      rfl
    · rw [hbudget]
      rfl
  | shown shown hbudget hshown =>
    refine ⟨none, ?_, ?_, ?_, .inr (by rw [hshown]; exact Option.some_ne_none _)⟩
    · rw [hbudget, hshown]
      rfl
    · rw [hshown]
      rfl
    · rw [hbudget]
      rfl

theorem thinking_spelled (hplain : PlainGeneration gen) (hreads : ReadsGeneration gen ir) :
    encode_thinking_config ir = (field gen "thinkingConfig" "thinking_config").map (camel_object THINKING_NAMES) := by
  have hreasoning := hreads.reasoning
  have hdynamic := hreads.dynamic
  unfold thinking_config at hreasoning hdynamic
  unfold encode_thinking_config
  cases hvalue : field gen "thinkingConfig" "thinking_config" with
  | none =>
    rw [hvalue] at hreasoning
    rw [hreasoning]
    rfl
  | some value =>
    obtain ⟨tc, rfl, hthinking, -⟩ := hplain.thinking value hvalue
    obtain ⟨budget, hread, hshown, hbudget, hsome⟩ := decode_plain_thinking hthinking
    rw [hvalue] at hreasoning hdynamic
    have hreasoning : ir.reasoning = decode_thinking tc := hreasoning
    have hdynamic : ir.extension (EXT ++ "dynamicThinking") = if is_dynamic tc then some (.bool true) else none := hdynamic
    rw [hread] at hreasoning
    have hwritten : encode_thinking ir
        { budget_tokens := budget, include_thoughts := (field tc "includeThoughts" "include_thoughts").bind Value.as_bool } =
        respell THINKING_NAMES tc := by
      have hdecided : (ir.extension (EXT ++ "dynamicThinking")).bind Value.as_bool = some true ↔ is_dynamic tc = true := by
        rw [hdynamic]
        by_cases hdecides : is_dynamic tc = true
        · rw [if_pos hdecides]
          exact iff_of_true rfl hdecides
        · rw [if_neg hdecides]
          exact iff_of_false nofun hdecides
      have hexplicit : ReasoningConfig.budget_or_from_effort
          { budget_tokens := budget, include_thoughts := (field tc "includeThoughts" "include_thoughts").bind Value.as_bool }
          ir.max_output_tokens = budget := by
        cases budget <;> rfl
      rw [encode_thinking, hshown, hexplicit, if_congr hdecided rfl rfl, hbudget, respell, THINKING_NAMES]
      simp
    have hnonempty : (respell THINKING_NAMES tc).isEmpty = false := by
      rw [respell, THINKING_NAMES]
      rcases hsome with hsome | hsome
      · obtain ⟨v, hv⟩ := Option.ne_none_iff_exists'.mp hsome
        simp [hv, member]
      · obtain ⟨v, hv⟩ := Option.ne_none_iff_exists'.mp hsome
        simp [hv, member]
    rw [hreasoning, Option.bind_some, hwritten, hnonempty]
    rfl

/-- The known entries of a configuration, as they are written. -/
def written_members (gen : Map) : Map :=
  member "temperature" (((Map.get gen "temperature").bind as_f64).map F64.to_json) ++
    member "topP" (((field gen "topP" "top_p").bind as_f64).map F64.to_json) ++
    member "topK" (field gen "topK" "top_k") ++
    member "seed" (Map.get gen "seed") ++
    member "candidateCount" (field gen "candidateCount" "candidate_count") ++
    member "stopSequences" (field gen "stopSequences" "stop_sequences") ++
    member "maxOutputTokens" (field gen "maxOutputTokens" "max_output_tokens") ++
    respell MIME_NAMES gen ++
    member "thinkingConfig" ((field gen "thinkingConfig" "thinking_config").map (camel_object THINKING_NAMES))

theorem encode_generation_eq (hplain : PlainGeneration gen) (hreads : ReadsGeneration gen ir) :
    encode_generation ir = (written_members gen).foldl (fun out (key, value) => Map.insert out key value)
      ((other_generation gen).foldl (fun out (key, value) => Map.insert out key value) []) := by
  have htop_k := as_u32_nat (hplain.counts ("topK", "top_k") (by decide))
  have hcandidates := as_u32_nat (hplain.counts ("candidateCount", "candidate_count") (by decide))
  have hmax := as_u32_nat (hplain.counts ("maxOutputTokens", "max_output_tokens") (by decide))
  have hseed := seed_spelled hplain.seed
  have hstop := stop_spelled hplain.stop
  unfold encode_generation written_members
  dsimp only
  rw [hreads.sampling, hreads.max_output_tokens, hreads.others, mime_spelled hplain hreads, thinking_spelled hplain hreads]
  unfold decode_sampling
  dsimp only
  rw [htop_k, hcandidates, hmax, hseed, hstop]

theorem written_members_keys (gen : Map) : ((written_members gen).map Prod.fst).Nodup := by
  have hsub : ((written_members gen).map Prod.fst).Sublist
      (["temperature"] ++ ["topP"] ++ ["topK"] ++ ["seed"] ++ ["candidateCount"] ++ ["stopSequences"] ++ ["maxOutputTokens"] ++
        (["responseMimeType"] ++ ["responseSchema"]) ++ ["thinkingConfig"]) := by
    simp only [written_members, respell, MIME_NAMES, List.flatMap_cons, List.flatMap_nil, List.append_nil, List.map_append]
    exact ((((((((keys_member _ _).append (keys_member _ _)).append (keys_member _ _)).append (keys_member _ _)).append
      (keys_member _ _)).append (keys_member _ _)).append (keys_member _ _)).append
        ((keys_member _ _).append (keys_member _ _))).append (keys_member _ _)
  exact hsub.nodup (by decide)

theorem lookup_other_generation (key : String) :
    (other_generation gen).lookup key = if KNOWN_GENERATION_FIELDS.contains key then none else Map.get gen key := by
  unfold other_generation Map.get
  induction gen with
  | nil => simp
  | cons entry gen ih =>
    obtain ⟨k, v⟩ := entry
    by_cases hknown : KNOWN_GENERATION_FIELDS.contains k = true
    · rw [List.filter_cons_of_neg (by simpa using hknown), ih]
      by_cases hkey : key = k
      · rw [hkey, if_pos hknown, if_pos hknown]
      · rw [lookup_cons_ite, if_neg hkey]
    · rw [List.filter_cons_of_pos (by simpa using hknown), lookup_cons_ite, lookup_cons_ite, ih]
      by_cases hkey : key = k
      · rw [if_pos hkey, if_pos hkey, hkey, if_neg hknown]
      · rw [if_neg hkey, if_neg hkey]

theorem generation_spelled (hkeys : (gen.map Prod.fst).Nodup) (hplain : PlainGeneration gen) (hreads : ReadsGeneration gen ir) :
    GenerationSpelled gen (encode_generation ir) := by
  have hother : ((other_generation gen).map Prod.fst).Nodup := hkeys.sublist (List.filter_sublist.map _)
  have hlookup : ∀ key, Map.get (encode_generation ir) key =
      ((written_members gen).lookup key).or (if KNOWN_GENERATION_FIELDS.contains key then none else Map.get gen key) := by
    intro key
    rw [encode_generation_eq hplain hreads, Map.get, lookup_foldl_insert_of_nodup (written_members_keys gen),
      lookup_foldl_insert_of_nodup hother, lookup_other_generation, List.lookup_nil, Option.or_none]
  have hread : ∀ value : Option Value, ((value.bind as_f64).map F64.to_json).bind as_f64 = value.bind as_f64 := by
    intro value
    cases value.bind as_f64 <;> rfl
  have htemperature : Map.get (encode_generation ir) "temperature" = ((Map.get gen "temperature").bind as_f64).map F64.to_json := by
    rw [hlookup, if_pos (by decide), Option.or_none]
    simp [written_members, respell, MIME_NAMES, List.lookup_append, lookup_member]
  have htop_p : Map.get (encode_generation ir) "topP" = ((field gen "topP" "top_p").bind as_f64).map F64.to_json := by
    rw [hlookup, if_pos (by decide), Option.or_none]
    simp [written_members, respell, MIME_NAMES, List.lookup_append, lookup_member]
  refine ⟨?_, ?_, ?_, fun key hkey => ?_⟩
  · simp only [List.forall_mem_cons]
    refine ⟨?_, ?_, List.forall_mem_nil _⟩
    · rw [htemperature, hread, field_self]
    · rw [htop_p, hread]
  · intro name hname
    have hknown : KNOWN_GENERATION_FIELDS.contains name.1 = true := by
      revert name
      decide
    rw [hlookup, if_pos hknown, Option.or_none]
    revert name
    simp only [List.forall_mem_cons, MIME_NAMES, List.cons_append, List.nil_append]
    simp [written_members, respell, MIME_NAMES, List.lookup_append, lookup_member, field_self]
  · rw [hlookup, if_pos (by decide), Option.or_none]
    simp [written_members, respell, MIME_NAMES, List.lookup_append, lookup_member]
  · have hnone : (written_members gen).lookup key = none := by
      simp only [KNOWN_GENERATION_FIELDS, List.mem_cons, not_or] at hkey
      simp [written_members, respell, MIME_NAMES, List.lookup_append, lookup_member, hkey]
    rw [hlookup, hnone, if_neg (by simpa using hkey)]
    rfl

end Generation

section Requests

/-- The instructions, and the parts that are written for them. -/
inductive SystemSpelled : Value → List Value → Prop
  | text (text : String) : SystemSpelled (.string text) [.object [("text", .string text)]]
  | parts {obj : Map} {parts outs : List Value} (hparts : Map.get obj "parts" = some (.array parts)) (hsome : parts ≠ [])
      (hall : List.Forall₂ PartSpelled parts outs) (honly : Only ["role", "parts"] obj) : SystemSpelled (.object obj) outs

/-- A tool is an object, and the functions that it has are declared. -/
inductive PlainTool : Value → Prop
  | mk {obj : Map} (hfunctions : ∀ value, field obj "functionDeclarations" "function_declarations" = some value →
      ∃ decls, value = .array decls ∧ ∀ decl ∈ decls, PlainFunction decl) : PlainTool (.object obj)

/-- A request whose parts and entries are of the kinds that the protocol knows, with what is
    written for its turns and its instructions. -/
structure RequestSpelled (obj : Map) (turns : List (String × List Value)) (system : Option (List Value)) : Prop where
  contents : ∃ contents, Map.get obj "contents" = some (.array contents) ∧ List.Forall₂ TurnSpelled contents turns
  alternate : turns.IsChain fun a b => a.1 ≠ b.1
  system : Option.Rel SystemSpelled (field obj "systemInstruction" "system_instruction") system
  tools : ∀ value, Map.get obj "tools" = some value → ∃ tools, value = .array tools ∧ ∀ tool ∈ tools, PlainTool tool
  tool_config : ∀ value, field obj "toolConfig" "tool_config" = some value → PlainToolConfig value
  generation : ∀ value, field obj "generationConfig" "generation_config" = some value → ∃ gen, value = .object gen ∧ PlainGeneration gen
  free : Free obj

def raw_tools (obj : Map) : List Value := ((Map.get obj "tools").bind Value.as_array).getD []

/-- A request that is written again. -/
structure WrittenAgain (obj out : Map) (turns : List (String × List Value)) (system : Option (List Value)) : Prop where
  contents : Map.get out "contents" = some (.array (turns.map turn_json))
  system : Map.get out "systemInstruction" = system.map fun parts => .object [("parts", .array parts)]
  tools : raw_tools out = gathered (raw_tools obj)
  tool_config : Map.get out "toolConfig" = (field obj "toolConfig" "tool_config").map camel_tool_config
  generation : GenerationSpelled ((generation_config obj).getD []) ((generation_config out).getD [])
  safety : Map.get out "safetySettings" = field obj "safetySettings" "safety_settings"
  cached : Map.get out "cachedContent" = field obj "cachedContent" "cached_content"
  /-- The model stands in the path. -/
  model : Map.get out "model" = none

variable {serde : Serde} {obj : Map} {turns : List (String × List Value)} {system : Option (List Value)}

theorem decode_encode_system (hserde : serde.Lawful) {sys : Option Value} (hspelled : Option.Rel SystemSpelled sys system)
    (hsys : ∀ value, sys = some value → value.WellFormed) (names : List (String × String)) :
    (decode_system serde sys).filterMap (encode_part serde names) = system.getD [] := by
  cases hspelled with
  | none => rfl
  | @some sys outs h =>
    cases h with
    | text => rfl
    | @parts obj parts outs hparts _ hall _ =>
      have hwell : ∀ part ∈ parts, part.WellFormed := (Value.wellFormed_array _).mp (Value.wellFormed_of_get (hsys _ rfl) hparts)
      have hwritten := @decode_encode_parts serde 0 names hserde _ _ hall hwell
      rw [decode_system, hparts]
      exact hwritten

theorem SystemSpelled.said {value : Value} {outs : List Value} (hspelled : SystemSpelled value outs) : outs.isEmpty = false := by
  cases hspelled with
  | text => rfl
  | parts _ hsome hall _ =>
    cases hall with
    | nil => exact absurd rfl hsome
    | cons => rfl

theorem plain_declarations {tools : List Value} (hplain : ∀ tool ∈ tools, PlainTool tool) :
    ∀ decl ∈ tools.flatMap declarations, PlainFunction decl := by
  intro decl hdecl
  obtain ⟨tool, htool, hdecl⟩ := List.mem_flatMap.mp hdecl
  cases hplain tool htool with
  | @mk obj hfunctions =>
    unfold declarations at hdecl
    dsimp only [Value.as_object, Option.bind_some] at hdecl
    cases hvalue : field obj "functionDeclarations" "function_declarations" with
    | none =>
      rw [hvalue] at hdecl
      cases hdecl
    | some value =>
      obtain ⟨decls, rfl, hdecls⟩ := hfunctions value hvalue
      rw [hvalue] at hdecl
      exact hdecls decl hdecl

/-- What the representation has of a configuration, and what is kept beside it. -/
theorem reads_generation (hfree : Free obj) {ir : UnifiedRequest} (hsampling : ir.sampling = ((generation_config obj).map decode_sampling).getD {})
    (hmax : ir.max_output_tokens = (generation_config obj).bind fun gen_cfg => as_u32 (field gen_cfg "maxOutputTokens" "max_output_tokens"))
    (hreasoning : ir.reasoning = ((generation_config obj).bind thinking_config).bind decode_thinking)
    (hformat : ir.response_format = (generation_config obj).bind decode_response_format)
    (hextensions : ir.extensions = request_extensions obj (raw_tools obj)) : ReadsGeneration ((generation_config obj).getD []) ir := by
  have hmime := @kept_mime_type _ (raw_tools obj) hfree
  have hdynamic := @kept_dynamic _ (raw_tools obj) hfree
  have hothers := @kept_generation obj (raw_tools obj)
  rw [← hextensions] at hmime hdynamic hothers
  cases hgen : generation_config obj with
  | none =>
    rw [hgen] at hsampling hmax hreasoning hformat hmime hdynamic hothers
    exact ⟨hsampling, hmax, hreasoning, hformat, hmime, hdynamic, by rw [UnifiedRequest.extension, hothers]; rfl⟩
  | some gen =>
    rw [hgen] at hsampling hmax hreasoning hformat hmime hdynamic hothers
    refine ⟨hsampling, hmax, hreasoning, hformat, hmime, hdynamic, ?_⟩
    rw [UnifiedRequest.extension, hothers]
    dsimp only [Option.map_some, Option.getD_some]
    split
    next hnone => exact (List.isEmpty_iff.mp hnone).symm
    · rfl

/-- The members of a request that is written. -/
theorem encode_request_members (ir : UnifiedRequest) : ∃ out, encode_request serde ir = .object out ∧
    Map.get out "contents" = some (.array (encode_contents serde ir.messages)) ∧
    Map.get out "systemInstruction" =
      (if (encode_system serde ir).isEmpty then none else some (.object [("parts", .array (encode_system serde ir))])) ∧
    Map.get out "tools" = (if (encode_tools ir).isEmpty then none else some (.array (encode_tools ir))) ∧
    Map.get out "toolConfig" = (encode_tool_choice ir).map (fun fc => .object [("functionCallingConfig", fc)]) ∧
    Map.get out "generationConfig" = (if (encode_generation ir).isEmpty then none else some (.object (encode_generation ir))) ∧
    Map.get out "safetySettings" = ir.extension (EXT ++ "safetySettings") ∧
    Map.get out "cachedContent" = ir.extension (EXT ++ "cachedContent") ∧
    ∀ key ∈ ["generation_config", "model"], Map.get out key = none := by
  refine ⟨_, rfl, ?_, ?_, ?_, ?_, ?_, ?_, ?_, ?_⟩
  · rfl
  all_goals simp [Map.get, List.lookup_append, lookup_member, lookup_cons_ite]

/-- A request is written again as it was read, in the spelling of the protocol. -/
theorem request_round_trips (hserde : serde.Lawful) (hobj : (Value.object obj).WellFormed) (hspelled : RequestSpelled obj turns system) :
    ∃ ir out, decode_request serde (.object obj) = .ok ir ∧ encode_request serde ir = .object out ∧ WrittenAgain obj out turns system := by
  obtain ⟨contents, hcontents, hturns⟩ := hspelled.contents
  have hentries : ∀ entry ∈ contents, entry.WellFormed := (Value.wellFormed_array _).mp (Value.wellFormed_of_get hobj hcontents)
  obtain ⟨messages, hmessages, hspeakers, hwritten⟩ := decode_encode_contents hserde hturns hentries hspelled.alternate
  have hdeclared : ∀ decl ∈ (raw_tools obj).flatMap declarations, PlainFunction decl := by
    unfold raw_tools
    cases hvalue : Map.get obj "tools" with
    | none => exact fun decl hdecl => absurd hdecl List.not_mem_nil
    | some value =>
      obtain ⟨tools, rfl, hplain⟩ := hspelled.tools value hvalue
      exact plain_declarations hplain
  obtain ⟨tools, htools, hfunctions⟩ := decode_encode_declarations hdeclared
  let ir : UnifiedRequest :=
    { model := (non_empty_str (Map.get obj "model")).getD ""
      system := decode_system serde (field obj "systemInstruction" "system_instruction")
      messages := messages
      tools := tools
      tool_choice := ((calling_config obj).map decode_tool_choice).getD .unspecified
      sampling := ((generation_config obj).map decode_sampling).getD {}
      max_output_tokens := (generation_config obj).bind fun gen_cfg => as_u32 (field gen_cfg "maxOutputTokens" "max_output_tokens")
      stream_include_usage := true
      reasoning := ((generation_config obj).bind thinking_config).bind decode_thinking
      response_format := (generation_config obj).bind decode_response_format
      extensions := request_extensions obj (raw_tools obj) }
  have hread : decode_request serde (.object obj) = .ok ir := by
    refine bind_eq_ok.mpr ⟨messages, ?_, bind_eq_ok.mpr ⟨tools, htools, rfl⟩⟩
    rw [hcontents]
    exact hmessages
  have hgenerates : ReadsGeneration ((generation_config obj).getD []) ir := reads_generation hspelled.free rfl rfl rfl rfl rfl
  have hsystem : (if (encode_system serde ir).isEmpty then none else some (Value.object [("parts", .array (encode_system serde ir))])) =
      system.map fun parts => .object [("parts", .array parts)] := by
    have hnone : messages.filter (·.role = .system) = [] :=
      List.filter_eq_nil_iff.mpr fun message hmessage => by simpa using hspeakers message hmessage
    have hparts : encode_system serde ir = system.getD [] := by
      have hwell : ∀ value, field obj "systemInstruction" "system_instruction" = some value → value.WellFormed := fun _ =>
        wellFormed_field hobj
      have hown := decode_encode_system hserde hspelled.system hwell (tool_names messages)
      have hall : encode_system serde ir = (decode_system serde (field obj "systemInstruction" "system_instruction") ++
          (messages.filter (·.role = .system)).flatMap (·.content)).filterMap (encode_part serde (tool_names messages)) := rfl
      rw [hall, hnone, List.flatMap_nil, List.append_nil, hown]
    rw [hparts]
    cases system with
    | none => rfl
    | some outs =>
      have hspelled_parts := hspelled.system
      cases hvalue : field obj "systemInstruction" "system_instruction" with
      | none =>
        rw [hvalue] at hspelled_parts
        cases hspelled_parts
      | some value =>
        rw [hvalue] at hspelled_parts
        cases hspelled_parts with
        | some h =>
          rw [Option.getD_some, h.said]
          rfl
  have htool_list : encode_tools ir = gathered (raw_tools obj) := encode_gathered hfunctions (kept_builtins hspelled.free)
  have hconfig : (encode_tool_choice ir).map (fun fc => Value.object [("functionCallingConfig", fc)]) =
      (field obj "toolConfig" "tool_config").map camel_tool_config := by
    cases hvalue : field obj "toolConfig" "tool_config" with
    | none =>
      have hcalling : calling_config obj = none := by
        rw [calling_config, hvalue]
        rfl
      have hchoice : ir.tool_choice = .unspecified := by
        change ((calling_config obj).map decode_tool_choice).getD .unspecified = .unspecified
        rw [hcalling]
        rfl
      rw [encode_tool_choice, hchoice]
      rfl
    | some value =>
      cases hspelled.tool_config value hvalue with
      | @mk cfg fc hfc hplain _ =>
        have hcalling : calling_config obj = some fc := by
          rw [calling_config, hvalue]
          dsimp only [Option.bind_some, Value.as_object]
          rw [hfc]
          rfl
        have hchoice : ir.tool_choice = decode_tool_choice fc := by
          change ((calling_config obj).map decode_tool_choice).getD .unspecified = _
          rw [hcalling]
          rfl
        have hkept : ir.extension (EXT ++ "allowedFunctionNames") =
            if decode_tool_choice fc = .required then allowed_names fc else none := by
          change (request_extensions obj (raw_tools obj)).get _ = _
          rw [kept_allowed_names hspelled.free, kept_names, hcalling]
          rfl
        rw [encode_choice hplain hchoice hkept, Option.map_some, Option.map_some, camel_tool_config, hfc]
        rfl
  have hgenerated : GenerationSpelled ((generation_config obj).getD []) (encode_generation ir) := by
    cases hvalue : field obj "generationConfig" "generation_config" with
    | none =>
      have hconfigured : generation_config obj = none := by
        rw [generation_config, hvalue]
        rfl
      rw [hconfigured] at hgenerates ⊢
      exact generation_spelled List.nodup_nil PlainGeneration.nil hgenerates
    | some value =>
      obtain ⟨gen, rfl, hplain⟩ := hspelled.generation value hvalue
      have hconfigured : generation_config obj = some gen := by
        rw [generation_config, hvalue]
        rfl
      rw [hconfigured] at hgenerates ⊢
      exact generation_spelled ((Value.wellFormed_object gen).mp (wellFormed_field hobj hvalue)).1 hplain hgenerates
  obtain ⟨out, hout, hout_contents, hout_system, hout_tools, hout_config, hout_generation, hout_safety, hout_cached, hout_none⟩ :=
    @encode_request_members serde ir
  refine ⟨ir, out, hread, hout, ?_⟩
  constructor
  · rw [hout_contents]
    exact congrArg (fun contents => some (Value.array contents)) hwritten
  · rw [hout_system, hsystem]
  · rw [← htool_list, raw_tools, hout_tools]
    split
    next hnone => exact (List.isEmpty_iff.mp hnone).symm
    · rfl
  · rw [hout_config, hconfig]
  · have hgeneration : (generation_config out).getD [] = encode_generation ir := by
      rw [generation_config, field, hout_generation, hout_none _ (by decide), Option.or_none]
      split
      next hnone => exact (List.isEmpty_iff.mp hnone).symm
      · rfl
    rw [hgeneration]
    exact hgenerated
  · rw [hout_safety, ← @kept_safety obj (raw_tools obj)]
    rfl
  · rw [hout_cached, ← @kept_cached obj (raw_tools obj)]
    rfl
  · exact hout_none _ (by decide)

def greeting : Value := .object [("role", .string "user"), ("parts", .array [.object [("text", .string "Hello")]])]

theorem greeting_spelled : TurnSpelled greeting ("user", [.object [("text", .string "Hello")]]) := by
  have hknown : KnownPart [("text", .string "Hello")] := .text "Hello" rfl (by simp [Only])
  exact .mk rfl (.inl rfl) rfl (by simp) (.cons (.known hknown) .nil) (by simp [Only])

/-- Instructions in the other spelling, and a limit. -/
def short_request : Map :=
  [("contents", .array [greeting]), ("system_instruction", .object [("parts", .array [.object [("text", .string "Be brief")]])]),
    ("generation_config", .object [("max_output_tokens", .nat 8)])]

theorem request_round_trips_of_short : ∃ ir out, decode_request Serde.compact (.object short_request) = .ok ir ∧
    encode_request Serde.compact ir = .object out ∧
    WrittenAgain short_request out [("user", [.object [("text", .string "Hello")]])] (some [.object [("text", .string "Be brief")]]) := by
  have hwell : (Value.object short_request).WellFormed := by simp [short_request, greeting]
  have hknown : KnownPart [("text", .string "Be brief")] := .text "Be brief" rfl (by simp [Only])
  have hsystem : SystemSpelled (.object [("parts", .array [.object [("text", .string "Be brief")]])])
      [.object [("text", .string "Be brief")]] := .parts rfl (by simp) (.cons (.known hknown) .nil) (by simp [Only])
  have hlimit : PlainGeneration [("max_output_tokens", .nat 8)] := by
    constructor
    case counts =>
      simp [field, Map.get, lookup_cons_ite, U32_MAX]
      exact ⟨8, by decide, rfl⟩
    all_goals simp [field, Map.get, lookup_cons_ite]
  refine request_round_trips Serde.compact_lawful hwell ⟨⟨_, rfl, .cons greeting_spelled .nil⟩, .singleton _, .some hsystem, ?_, ?_, ?_, ?_⟩
  · simp [short_request, Map.get, lookup_cons_ite]
  · simp [short_request, field, Map.get, lookup_cons_ite]
  · intro value hvalue
    obtain rfl : .object [("max_output_tokens", .nat 8)] = value := Option.some.inj hvalue
    exact ⟨_, rfl, hlimit⟩
  · simp [Free, short_request, Map.get, lookup_cons_ite]

/-- Names of functions beside a mode that lets the model choose. -/
def named_choice : Map :=
  [("contents", .array [greeting]),
    ("toolConfig", .object [("functionCallingConfig", .object [("mode", .string "AUTO"), ("allowedFunctionNames", .array [.string "f"])])])]

theorem named_choice_loses_names : ∃ ir out, decode_request Serde.compact (.object named_choice) = .ok ir ∧
    encode_request Serde.compact ir = .object out ∧ ((calling_config named_choice).bind allowed_names).isSome = true ∧
    (calling_config out).bind allowed_names = none :=
  ⟨_, _, rfl, rfl, rfl, rfl⟩

end Requests

end refract.codec.gemini
