import Refract.Machine.Transaction
import Refract.Machine.Vec
import Refract.Router.Capacity

open refract.json refract.machine refract.stream refract.upstream

namespace refract.router

def MAX_AFFINITY_TTL_SECS : Nat := 604800

def MAX_VALUE_REGEX_LEN : Nat := 512

inductive AffinityError where
  | empty_rule_name
  | duplicate_rule_name (name : String)
  | no_sources (rule : String)
  | invalid_regex (rule value reason : String)
  | value_regex_too_long (rule : String)
  | invalid_header_name (rule : String)
  | invalid_body_path (rule path : String)
  | ttl_out_of_range (rule : String)
  | default_ttl_out_of_range
  | max_entries_zero
  deriving DecidableEq, Repr

def AffinityError.to_string : AffinityError → String
  | .empty_rule_name => "affinity rule name must not be empty"
  | .duplicate_rule_name name => "duplicate affinity rule name `" ++ name ++ "`"
  | .no_sources rule => "affinity rule `" ++ rule ++ "` must declare at least one key source"
  | .invalid_regex rule value reason => "affinity rule `" ++ rule ++ "`: invalid regex `" ++ value ++ "`: " ++ reason
  | .value_regex_too_long rule =>
    "affinity rule `" ++ rule ++ "`: value_regex exceeds " ++ toString MAX_VALUE_REGEX_LEN ++ " characters"
  | .invalid_header_name rule =>
    "affinity rule `" ++ rule ++ "`: header source name is empty or contains invalid characters"
  | .invalid_body_path rule path =>
    "affinity rule `" ++ rule ++ "`: body source path `" ++ path ++
      "` is not a valid JSON pointer (must be empty or start with `/`)"
  | .ttl_out_of_range rule =>
    "affinity rule `" ++ rule ++ "`: ttl_secs must be between 1 and " ++ toString MAX_AFFINITY_TTL_SECS
  | .default_ttl_out_of_range => "default_ttl_secs must be between 1 and " ++ toString MAX_AFFINITY_TTL_SECS
  | .max_entries_zero => "max_entries must be at least 1"

section Validation

/-- Follows the parentheses from a place on, with so many open. -/
def check_parens : Bytes → Nat → Int → Except String Unit
  | [], _, depth => if depth ≠ 0 then .error ("`(` unclosed, depth " ++ toString depth ++ " at end") else .ok ()
  | byte :: bytes, index, depth =>
    if byte = 40 then check_parens bytes (index + 1) (depth + 1)
    else if byte = 41 then
      if depth - 1 < 0 then .error ("unmatched `)` at byte " ++ toString index) else check_parens bytes (index + 1) (depth - 1)
    else check_parens bytes (index + 1) depth

/-- A rough check, which only counts parentheses. -/
def regex_syntax_lite (pattern : String) : Except String Unit := check_parens (as_bytes pattern) 0 0

/-- An expression that is left out is not checked. -/
def check_regex (rule value field : String) : Except AffinityError Unit :=
  if value = "" then .ok () else (regex_syntax_lite value).mapError (.invalid_regex rule (field ++ ": " ++ value))

def ttl_in_range (secs : Nat) : Bool := 1 ≤ secs && secs ≤ MAX_AFFINITY_TTL_SECS

def validate_source (rule : String) : AffinityKeySource → Except AffinityError Unit
  | .api_key_id => .ok ()
  | .header name =>
    let header := trim name
    if header ≠ "" ∧ (header.toList.all fun c => '!' ≤ c && c ≤ '~' && c ≠ ':') = true then .ok ()
    else .error (.invalid_header_name rule)
  | .body path => if path ≠ "" ∧ path.startsWith "/" = false then .error (.invalid_body_path rule path) else .ok ()

def validate_sources (rule : String) : List AffinityKeySource → Except AffinityError Unit
  | [] => .ok ()
  | source :: sources => do
    validate_source rule source
    validate_sources rule sources

/-- The check of a rule, after those whose names were seen. -/
def AffinityRule.validate (self : AffinityRule) (seen : List String) : Except AffinityError Unit := do
  let name := trim self.name
  if name = "" then throw .empty_rule_name
  if seen.contains name then throw (.duplicate_rule_name name)
  if self.sources.isEmpty then throw (.no_sources name)
  check_regex name self.model_regex "model_regex"
  check_regex name self.path_regex "path_regex"
  if MAX_VALUE_REGEX_LEN < self.value_regex.length then throw (.value_regex_too_long name)
  check_regex name self.value_regex "value_regex"
  validate_sources name self.sources
  if self.ttl_secs.any (!ttl_in_range ·) then throw (.ttl_out_of_range name)

def validate_rules (seen : List String) : List AffinityRule → Except AffinityError Unit
  | [] => .ok ()
  | rule :: rules => do
    rule.validate seen
    validate_rules (trim rule.name :: seen) rules

def AffinitySettings.validate (self : AffinitySettings) : Except AffinityError Unit := do
  if self.max_entries = 0 then throw .max_entries_zero
  if !ttl_in_range self.default_ttl_secs then throw .default_ttl_out_of_range
  validate_rules [] self.rules

end Validation

/-- No parenthesis closes more than was opened, and all that was opened is closed. -/
def Balanced (bytes : Bytes) : Prop :=
  (∀ before, before <+: bytes → before.count 41 ≤ before.count 40) ∧ bytes.count 41 = bytes.count 40

/-- What the check finds about one rule. -/
structure AffinityRule.Valid (rule : AffinityRule) : Prop where
  name : trim rule.name ≠ ""
  sources : rule.sources ≠ []
  balanced : ∀ pattern ∈ [rule.model_regex, rule.path_regex, rule.value_regex], Balanced (as_bytes pattern)
  value_regex : rule.value_regex.length ≤ MAX_VALUE_REGEX_LEN
  each : ∀ source ∈ rule.sources, validate_source (trim rule.name) source = .ok ()
  ttl_secs : ∀ secs, rule.ttl_secs = some secs → ttl_in_range secs = true

/-- What the check finds, without its order. -/
structure AffinitySettings.Valid (settings : AffinitySettings) : Prop where
  max_entries : settings.max_entries ≠ 0
  default_ttl_secs : ttl_in_range settings.default_ttl_secs = true
  each : ∀ rule ∈ settings.rules, rule.Valid
  distinct : settings.rules.Pairwise (trim ·.name ≠ trim ·.name)

section Valid

variable {rule : AffinityRule} {settings : AffinitySettings} {bytes : Bytes}

theorem forall_prefix_cons {byte : UInt8} {P : Bytes → Prop} :
    (∀ before, before <+: byte :: bytes → P before) ↔ P [] ∧ ∀ before, before <+: bytes → P (byte :: before) := by
  constructor
  · exact fun hall => ⟨hall [] List.nil_prefix, fun before hbefore => hall _ (List.cons_prefix_cons.mpr ⟨rfl, hbefore⟩)⟩
  · rintro ⟨hnil, hcons⟩ before hbefore
    cases before with
    | nil => exact hnil
    | cons first before =>
      obtain ⟨rfl, hrest⟩ := List.cons_prefix_cons.mp hbefore
      exact hcons before hrest

/-- So many parentheses are open before some bytes. -/
theorem check_parens_ok {index depth : Nat} :
    check_parens bytes index depth = .ok () ↔
      (∀ before, before <+: bytes → before.count 41 ≤ depth + before.count 40) ∧ bytes.count 41 = depth + bytes.count 40 := by
  induction bytes generalizing index depth with
  | nil =>
    rw [check_parens]
    by_cases hdepth : depth = 0
    · simp [hdepth]
    · simp [hdepth, eq_comm]
  | cons byte bytes ih =>
    rw [check_parens, forall_prefix_cons]
    by_cases hopen : byte = 40
    · have hnext : ((depth : Int) + 1) = ((depth + 1 : Nat) : Int) := rfl
      subst hopen
      rw [if_pos rfl, hnext, ih]
      simp [Nat.add_assoc, Nat.add_comm]
    · rw [if_neg hopen]
      by_cases hclose : byte = 41
      · subst hclose
        rw [if_pos rfl]
        cases depth with
        | zero =>
          rw [if_pos (by decide)]
          refine iff_of_false nofun ?_
          rintro ⟨⟨-, hall⟩, -⟩
          simpa using hall [] List.nil_prefix
        | succ depth =>
          have hnext : (((depth + 1 : Nat) : Int) - 1) = (depth : Int) := by omega
          have hopens : ∀ bytes : Bytes, (41 :: bytes).count 40 = bytes.count 40 := fun _ => by simp
          rw [hnext, if_neg (by omega), ih]
          simp only [List.count_cons_self, hopens, List.count_nil]
          constructor
          · rintro ⟨hall, hequal⟩
            refine ⟨⟨by omega, fun before hbefore => ?_⟩, by omega⟩
            have hbound := hall before hbefore
            omega
          · rintro ⟨⟨-, hall⟩, hequal⟩
            refine ⟨fun before hbefore => ?_, by omega⟩
            have hbound := hall before hbefore
            omega
      · rw [if_neg hclose, ih]
        simp [hopen, hclose]

theorem regex_syntax_lite_ok {pattern : String} : regex_syntax_lite pattern = .ok () ↔ Balanced (as_bytes pattern) := by
  unfold regex_syntax_lite Balanced
  rw [show (0 : Int) = ((0 : Nat) : Int) from rfl, check_parens_ok]
  simp only [Nat.zero_add]

theorem check_regex_ok {name value field : String} : check_regex name value field = .ok () ↔ Balanced (as_bytes value) := by
  unfold check_regex
  by_cases hempty : value = ""
  · rw [if_pos hempty, hempty]
    refine iff_of_true rfl ⟨fun before hbefore => ?_, rfl⟩
    rw [List.prefix_nil.mp hbefore]
    exact le_rfl
  · rw [if_neg hempty, mapError_eq_ok, regex_syntax_lite_ok]

theorem validate_sources_ok {name : String} {sources : List AffinityKeySource} :
    validate_sources name sources = .ok () ↔ ∀ source ∈ sources, validate_source name source = .ok () := by
  induction sources with
  | nil => simp [validate_sources]
  | cons source sources ih =>
    unfold validate_sources
    simp only [bind_eq_ok, exists_ok_unit, ih, List.forall_mem_cons]

theorem AffinityRule.validate_ok {seen : List String} : rule.validate seen = .ok () ↔ rule.Valid ∧ trim rule.name ∉ seen := by
  unfold validate
  dsimp only
  simp only [throw_if_eq_ok, bind_eq_ok, exists_ok_unit, check_regex_ok, validate_sources_ok]
  constructor
  · rintro ⟨hname, hseen, hsources, hmodel, hpath, hlength, hvalue, heach, httl⟩
    refine ⟨⟨hname, by simpa using hsources, by simp [hmodel, hpath, hvalue], not_lt.mp hlength, heach, ?_⟩, by simpa using hseen⟩
    intro secs hsecs
    by_contra hout
    rw [hsecs, Option.any_some, if_pos (by simpa using hout)] at httl
    cases httl
  · rintro ⟨hvalid, hseen⟩
    have hbalanced := hvalid.balanced
    simp only [List.forall_mem_cons] at hbalanced
    refine ⟨hvalid.name, by simpa using hseen, by simpa using hvalid.sources, hbalanced.1, hbalanced.2.1,
      not_lt.mpr hvalid.value_regex, hbalanced.2.2.1, hvalid.each, if_neg ?_⟩
    intro hout
    cases hsecs : rule.ttl_secs with
    | none =>
      rw [hsecs] at hout
      cases hout
    | some secs =>
      rw [hsecs, Option.any_some, hvalid.ttl_secs secs hsecs] at hout
      cases hout

theorem validate_rules_ok {seen : List String} {rules : List AffinityRule} :
    validate_rules seen rules = .ok () ↔
      (∀ rule ∈ rules, rule.Valid ∧ trim rule.name ∉ seen) ∧ rules.Pairwise (trim ·.name ≠ trim ·.name) := by
  induction rules generalizing seen with
  | nil => simp [validate_rules]
  | cons rule rules ih =>
    unfold validate_rules
    have hseen : ∀ other : AffinityRule, trim other.name ∉ trim rule.name :: seen ↔ trim other.name ≠ trim rule.name ∧ trim other.name ∉ seen :=
      fun other => by rw [List.mem_cons, not_or]
    simp only [bind_eq_ok, exists_ok_unit, AffinityRule.validate_ok, ih, hseen]
    rw [List.forall_mem_cons, List.pairwise_cons]
    constructor
    · rintro ⟨hrule, hrules, hdistinct⟩
      exact ⟨⟨hrule, fun other hother => ⟨(hrules other hother).1, (hrules other hother).2.2⟩⟩,
        fun other hother => Ne.symm (hrules other hother).2.1, hdistinct⟩
    · rintro ⟨⟨hrule, hrules⟩, hfirst, hdistinct⟩
      exact ⟨hrule, fun other hother => ⟨(hrules other hother).1, Ne.symm (hfirst other hother), (hrules other hother).2⟩, hdistinct⟩

/-- The check accepts the valid settings, and no others. -/
theorem AffinitySettings.validate_ok_iff : settings.validate = .ok () ↔ settings.Valid := by
  unfold validate
  simp only [throw_if_eq_ok, validate_rules_ok]
  constructor
  · rintro ⟨hmax, httl, heach, hdistinct⟩
    exact ⟨hmax, by simpa using httl, fun rule hrule => (heach rule hrule).1, hdistinct⟩
  · intro hvalid
    exact ⟨hvalid.max_entries, by simpa using hvalid.default_ttl_secs,
      fun rule hrule => ⟨hvalid.each rule hrule, List.not_mem_nil⟩, hvalid.distinct⟩

end Valid

section Live

variable (regex : String → Option (String → Bool)) (serde : Serde)

/-- An expression lets a text pass. One that is left out lets every text pass. -/
def Accepts (pattern text : String) : Prop := pattern = "" ∨ ∃ matches_text, regex pattern = some matches_text ∧ matches_text text = true

/-- The expressions of a rule compile, as far as there are any. -/
def AffinityRule.Compiles (rule : AffinityRule) : Prop :=
  ∀ pattern ∈ [rule.model_regex, rule.path_regex, rule.value_regex], pattern = "" ∨ (regex pattern).isSome = true

/-- The value that one source has in a request. -/
def source_value (ctx : AffinityContext) : AffinityKeySource → Option String
  | .api_key_id => ctx.api_key_id.map toString
  | .header name => ((ctx.headers.lookup name.toLower).bind to_str).filter (· ≠ "")
  | .body path => ctx.body.bind fun body => json_pointer_scalar serde body path

/-- A rule matches a request by a value: that of the first source that has one. -/
structure AffinityRule.Matches (rule : AffinityRule) (ctx : AffinityContext) (value : String) : Prop where
  model : Accepts regex rule.model_regex ctx.model
  path : Accepts regex rule.path_regex ctx.path
  first : ∃ before source after, rule.sources = before ++ source :: after ∧
    (∀ earlier ∈ before, source_value serde ctx earlier = none) ∧ source_value serde ctx source = some value
  value : Accepts regex rule.value_regex value

/-- A rule compiles and matches, and no rule before it does both. -/
def AffinitySettings.MatchedBy (settings : AffinitySettings) (ctx : AffinityContext) (rule : AffinityRule) (value : String) : Prop :=
  ∃ before after, settings.rules = before ++ rule :: after ∧
    (∀ earlier ∈ before, earlier.Compiles regex → ∀ other, ¬earlier.Matches regex serde ctx other) ∧
    rule.Compiles regex ∧ rule.Matches regex serde ctx value

variable {regex serde} {rule : AffinityRule} {ctx : AffinityContext} {value : String} {default_ttl_secs : Nat}

theorem extract_value_eq_some {sources : List AffinityKeySource} :
    extract_value serde sources ctx = some value ↔ ∃ before source after, sources = before ++ source :: after ∧
      (∀ earlier ∈ before, source_value serde ctx earlier = none) ∧ source_value serde ctx source = some value := by
  have hextract : extract_value serde sources ctx = sources.findSome? (source_value serde ctx) := by
    unfold extract_value
    congr 1
  rw [hextract, List.findSome?_eq_some_iff]
  simp only [and_comm]

theorem compile_isSome {pattern : String} : (compile regex pattern).isSome = true ↔ pattern = "" ∨ (regex pattern).isSome = true := by
  unfold compile
  by_cases hempty : pattern = ""
  · simp [hempty]
  · simp [hempty]

/-- A compiled expression bars the texts that it does not match. -/
theorem compile_accepts {pattern text : String} {compiled : Option (String → Bool)} (hcompile : compile regex pattern = some compiled) :
    compiled.any (!· text) = false ↔ Accepts regex pattern text := by
  unfold compile at hcompile
  by_cases hempty : pattern = ""
  · rw [if_pos hempty] at hcompile
    obtain rfl := Option.some.inj hcompile
    exact iff_of_true rfl (.inl hempty)
  · rw [if_neg hempty] at hcompile
    obtain ⟨matches_text, hregex, rfl⟩ := Option.map_eq_some_iff.mp hcompile
    simp [Accepts, hempty, hregex]

theorem compile_rule_isSome : (compile_rule regex rule default_ttl_secs).isSome = true ↔ rule.Compiles regex := by
  simp only [AffinityRule.Compiles, List.forall_mem_cons, ← compile_isSome]
  unfold compile_rule
  cases compile regex rule.model_regex <;> cases compile regex rule.path_regex <;> cases compile regex rule.value_regex <;> simp

/-- What a compiled rule finds in a request. -/
theorem matched_eq_some {compiled : CompiledRule} (hcompile : compile_rule regex rule default_ttl_secs = some compiled)
    {decision : AffinityDecision} :
    compiled.matched serde ctx = some decision ↔
      ∃ value, rule.Matches regex serde ctx value ∧ decision =
        { rule_name := rule.name
          cache_key := build_cache_key rule.name rule.include_model ctx.model value
          binding := none
          skip_retry_on_failure := rule.skip_retry_on_failure
          ttl_secs := rule.effective_ttl_secs default_ttl_secs } := by
  unfold compile_rule at hcompile
  simp only [Option.bind_eq_bind, Option.bind_eq_some_iff, Option.pure_def, Option.some.injEq] at hcompile
  obtain ⟨model_re, hmodel, path_re, hpath, value_re, hvalue, rfl⟩ := hcompile
  have hbars : (model_re.any (!· ctx.model) || path_re.any (!· ctx.path)) = false ↔
      Accepts regex rule.model_regex ctx.model ∧ Accepts regex rule.path_regex ctx.path := by
    rw [Bool.or_eq_false_iff, compile_accepts hmodel, compile_accepts hpath]
  unfold CompiledRule.matched
  simp only
  cases hbarred : model_re.any (!· ctx.model) || path_re.any (!· ctx.path) with
  | true =>
    rw [if_pos rfl]
    refine iff_of_false nofun ?_
    rintro ⟨value, hmatches, -⟩
    rw [hbars.mpr ⟨hmatches.model, hmatches.path⟩] at hbarred
    cases hbarred
  | false =>
    obtain ⟨hmodel_ok, hpath_ok⟩ := hbars.mp hbarred
    rw [if_neg Bool.false_ne_true]
    cases hextract : extract_value serde rule.sources ctx with
    | none =>
      refine iff_of_false nofun ?_
      rintro ⟨value, hmatches, -⟩
      rw [extract_value_eq_some.mpr hmatches.first] at hextract
      cases hextract
    | some value =>
      have hvalue_unique : ∀ other, rule.Matches regex serde ctx other → other = value := by
        intro other hother
        have hfirst := extract_value_eq_some.mpr hother.first
        rw [hextract] at hfirst
        exact (Option.some.inj hfirst).symm
      simp only
      cases hvalue_barred : value_re.any (!· value) with
      | true =>
        rw [if_pos rfl]
        refine iff_of_false nofun ?_
        rintro ⟨other, hmatches, -⟩
        obtain rfl := hvalue_unique other hmatches
        rw [(compile_accepts hvalue).mpr hmatches.value] at hvalue_barred
        cases hvalue_barred
      | false =>
        rw [if_neg Bool.false_ne_true, Option.some.injEq]
        constructor
        · rintro rfl
          exact ⟨value, ⟨hmodel_ok, hpath_ok, extract_value_eq_some.mp hextract, (compile_accepts hvalue).mp hvalue_barred⟩, rfl⟩
        · rintro ⟨other, hmatches, rfl⟩
          rw [hvalue_unique other hmatches]

/-- What a rule finds that is looked for in the settings. -/
def AffinityRule.found (rule : AffinityRule) (settings : AffinitySettings) (ctx : AffinityContext) (value : String) : AffinityDecision where
  rule_name := rule.name
  cache_key := build_cache_key rule.name rule.include_model ctx.model value
  binding := none
  skip_retry_on_failure := rule.skip_retry_on_failure
  ttl_secs := rule.effective_ttl_secs settings.default_ttl_secs

/-- The first rule of an engine that matches is the first one of the settings
    that compiles and matches. -/
theorem findSome_load {settings : AffinitySettings} {engine : AffinityEngine} {decision : AffinityDecision} :
    (engine.load regex settings).rules.findSome? (·.matched serde ctx) = some decision ↔
      ∃ rule value, settings.MatchedBy regex serde ctx rule value ∧ decision = rule.found settings ctx value := by
  have hrules : (engine.load regex settings).rules.findSome? (·.matched serde ctx) =
      settings.rules.findSome? fun rule => (compile_rule regex rule settings.default_ttl_secs).bind (·.matched serde ctx) := by
    rw [AffinityEngine.load]
    exact findSome_filterMap _ _ settings.rules
  have hone : ∀ (rule : AffinityRule) decision, (compile_rule regex rule settings.default_ttl_secs).bind (·.matched serde ctx) = some decision ↔
      rule.Compiles regex ∧ ∃ value, rule.Matches regex serde ctx value ∧ decision = rule.found settings ctx value := by
    intro rule decision
    have hcompiles : (compile_rule regex rule settings.default_ttl_secs).isSome = true ↔ rule.Compiles regex := compile_rule_isSome
    rw [← hcompiles]
    cases hcompile : compile_rule regex rule settings.default_ttl_secs with
    | none => simp
    | some compiled =>
      rw [Option.bind_some, matched_eq_some hcompile]
      exact (and_iff_right rfl).symm
  have hnone : ∀ rule : AffinityRule, (compile_rule regex rule settings.default_ttl_secs).bind (·.matched serde ctx) = none ↔
      (rule.Compiles regex → ∀ value, ¬rule.Matches regex serde ctx value) := by
    intro rule
    rw [Option.eq_none_iff_forall_ne_some]
    constructor
    · exact fun hall hcompiles value hmatches => hall _ ((hone rule _).mpr ⟨hcompiles, value, hmatches, rfl⟩)
    · intro hall decision hdecision
      obtain ⟨hcompiles, value, hmatches, -⟩ := (hone rule decision).mp hdecision
      exact hall hcompiles value hmatches
  rw [hrules, List.findSome?_eq_some_iff]
  constructor
  · rintro ⟨before, rule, after, hsplit, hfound, hbefore⟩
    obtain ⟨hcompiles, value, hmatches, rfl⟩ := (hone rule decision).mp hfound
    exact ⟨rule, value, ⟨before, after, hsplit, fun earlier hearlier => (hnone earlier).mp (hbefore earlier hearlier), hcompiles,
      hmatches⟩, rfl⟩
  · rintro ⟨rule, value, ⟨before, after, hsplit, hbefore, hcompiles, hmatches⟩, rfl⟩
    exact ⟨before, rule, after, hsplit, (hone rule _).mpr ⟨hcompiles, value, hmatches, rfl⟩,
      fun earlier hearlier => (hnone earlier).mpr (hbefore earlier hearlier)⟩

/-- What is found of a request, apart from the channel that it is bound to. -/
theorem resolve_unbound {engine : AffinityEngine} {now : Instant} :
    (engine.resolve serde ctx now).1.map ({ · with binding := none }) =
      if engine.enabled then engine.rules.findSome? (·.matched serde ctx) else none := by
  have hunbound : ∀ m, engine.rules.findSome? (·.matched serde ctx) = some m → { m with binding := none } = m := by
    intro m hm
    obtain ⟨before, rule, after, -, hmatched, -⟩ := List.findSome?_eq_some_iff.mp hm
    unfold CompiledRule.matched at hmatched
    split at hmatched
    · cases hmatched
    · split at hmatched
      · cases hmatched
      · split at hmatched
        · cases hmatched
        · obtain rfl := Option.some.inj hmatched
          rfl
  unfold AffinityEngine.resolve
  cases engine.enabled with
  | false => rfl
  | true =>
    simp only [Bool.not_true, Bool.false_eq_true, if_false, if_true]
    cases hfound : engine.rules.findSome? (·.matched serde ctx) with
    | none => rfl
    | some m =>
      have hm := hunbound m hfound
      simp only
      cases engine.entries.get m.cache_key with
      | none => exact congrArg some hm
      | some entry =>
        by_cases hlive : now < entry.expires_at
        · simp only [if_pos hlive]
          exact congrArg some hm
        · simp only [if_neg hlive]
          exact congrArg some hm

end Live

/-- What settings are accepted, which of their rules an engine keeps, and what
    it finds of a request then. -/
theorem affinity_rules_live (regex : String → Option (String → Bool)) (serde : Serde) (settings : AffinitySettings) (engine : AffinityEngine) :
    (settings.validate = .ok () ↔ settings.Valid) ∧
      ((engine.load regex settings).rules.length = settings.rules.length ↔ ∀ rule ∈ settings.rules, rule.Compiles regex) ∧
      ∀ ctx now decision, ((engine.load regex settings).resolve serde ctx now).1.map ({ · with binding := none }) = some decision ↔
        settings.enabled = true ∧
          ∃ rule value, settings.MatchedBy regex serde ctx rule value ∧ decision = rule.found settings ctx value := by
  refine ⟨settings.validate_ok_iff, ?_, fun ctx now decision => ?_⟩
  · rw [AffinityEngine.load, length_filterMap_eq]
    simp only [compile_rule_isSome]
  · rw [resolve_unbound]
    by_cases henabled : settings.enabled = true
    · rw [if_pos (show (engine.load regex settings).enabled = true from henabled), findSome_load]
      exact (and_iff_right henabled).symm
    · rw [if_neg (show ¬(engine.load regex settings).enabled = true from henabled)]
      exact iff_of_false nofun fun h => henabled h.1

section Rough

/-- A compiler that knows three expressions: two that compile and one that does not. -/
def sample_regex (pattern : String) : Option (String → Bool) :=
  if pattern = "[" then none
  else if pattern = "\\(" then some (·.toList.contains '(')
  else if pattern = "^gpt" then some (·.startsWith "gpt")
  else none

def sample_rule (model_regex : String) : AffinityRule := { name := "r", model_regex, sources := [.api_key_id] }

/-- Settings with an open bracket are accepted, and their rule is left out.
    Settings with an escaped parenthesis are refused, and their rule compiles. -/
theorem rough_check_disagrees :
    ({ rules := [sample_rule "["] } : AffinitySettings).validate = .ok () ∧
      (AffinityEngine.load sample_regex { enabled := false, rules := [] } { rules := [sample_rule "["] }).rules = [] ∧
      ({ rules := [sample_rule "\\("] } : AffinitySettings).validate =
        .error (.invalid_regex "r" "model_regex: \\(" "`(` unclosed, depth 1 at end") ∧
      (AffinityEngine.load sample_regex { enabled := false, rules := [] } { rules := [sample_rule "\\("] }).rules.length = 1 := by
  refine ⟨by decide +kernel, ?_, by decide +kernel, ?_⟩
  · simp [AffinityEngine.load, compile_rule, compile, sample_rule, sample_regex]
  · simp [AffinityEngine.load, compile_rule, compile, sample_rule, sample_regex]

end Rough

end refract.router
