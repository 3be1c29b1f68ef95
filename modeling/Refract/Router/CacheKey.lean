import Mathlib.Data.List.Pairwise
import Refract.Router.Rules

open refract.json refract.machine refract.stream refract.upstream

namespace refract.router

section Keys

/-- What a key has of the model. -/
def keyed_model (include_model : Bool) (model : String) : String := if include_model then model else ""

theorem toList_build_cache_key (name : String) (include_model : Bool) (model value : String) :
    (build_cache_key name include_model model value).toList =
      name.toList ++ '\x00' :: ((keyed_model include_model model).toList ++ '\x00' :: value.toList) := by
  cases include_model with
  | true => simp [build_cache_key, keyed_model, String.toList_append]
  | false => simp [build_cache_key, keyed_model, String.toList_append]

/-- A key whose name and model have no separator is read back. -/
theorem build_cache_key_inj {name₁ name₂ model₁ model₂ value₁ value₂ : String} {include₁ include₂ : Bool}
    (hname₁ : '\x00' ∉ name₁.toList) (hname₂ : '\x00' ∉ name₂.toList)
    (hmodel₁ : '\x00' ∉ (keyed_model include₁ model₁).toList) (hmodel₂ : '\x00' ∉ (keyed_model include₂ model₂).toList)
    (hkeys : build_cache_key name₁ include₁ model₁ value₁ = build_cache_key name₂ include₂ model₂ value₂) :
    name₁ = name₂ ∧ keyed_model include₁ model₁ = keyed_model include₂ model₂ ∧ value₁ = value₂ := by
  have hlists := congrArg String.toList hkeys
  rw [toList_build_cache_key, toList_build_cache_key] at hlists
  obtain ⟨hname, hrest⟩ := append_separator_inj hname₁ hname₂ hlists
  obtain ⟨hmodel, hvalue⟩ := append_separator_inj hmodel₁ hmodel₂ hrest
  exact ⟨String.toList_inj.mp hname, String.toList_inj.mp hmodel, String.toList_inj.mp hvalue⟩

end Keys

section Collisions

variable {regex : String → Option (String → Bool)} {serde : Serde} {settings : AffinitySettings} {rule₁ rule₂ : AffinityRule}
  {ctx₁ ctx₂ : AffinityContext} {value₁ value₂ : String}

theorem AffinitySettings.MatchedBy.mem {ctx : AffinityContext} {rule : AffinityRule} {value : String}
    (hmatched : settings.MatchedBy regex serde ctx rule value) : rule ∈ settings.rules := by
  obtain ⟨before, after, hsplit, -⟩ := hmatched
  rw [hsplit]
  exact List.mem_append_right _ (.head _)

/-- The rules of accepted settings have different names. -/
theorem AffinitySettings.Valid.rule_of_name (hvalid : settings.Valid) (hrule₁ : rule₁ ∈ settings.rules) (hrule₂ : rule₂ ∈ settings.rules)
    (hname : rule₁.name = rule₂.name) : rule₁ = rule₂ := by
  have hsymm : Std.Symm fun a b : AffinityRule => trim a.name ≠ trim b.name := ⟨fun _ _ hdiffer => Ne.symm hdiffer⟩
  by_contra hne
  exact hvalid.distinct.forall hrule₁ hrule₂ hne (congrArg trim hname)

/-- A key says by which rule, for which model and by which value a request was
    matched, where the names of rules and models have no separator in them. -/
theorem cache_keys_differ (hvalid : settings.validate = .ok ())
    (hmatched₁ : settings.MatchedBy regex serde ctx₁ rule₁ value₁) (hmatched₂ : settings.MatchedBy regex serde ctx₂ rule₂ value₂)
    (hname₁ : '\x00' ∉ rule₁.name.toList) (hname₂ : '\x00' ∉ rule₂.name.toList)
    (hmodel₁ : rule₁.include_model = true → '\x00' ∉ ctx₁.model.toList)
    (hmodel₂ : rule₂.include_model = true → '\x00' ∉ ctx₂.model.toList) :
    (rule₁.found settings ctx₁ value₁).cache_key = (rule₂.found settings ctx₂ value₂).cache_key ↔
      rule₁ = rule₂ ∧ (rule₁.include_model = true → ctx₁.model = ctx₂.model) ∧ value₁ = value₂ := by
  have hkeyed : ∀ (rule : AffinityRule) (model : String), (rule.include_model = true → '\x00' ∉ model.toList) →
      '\x00' ∉ (keyed_model rule.include_model model).toList := by
    intro rule model hmodel
    cases hinclude : rule.include_model with
    | true => simpa [keyed_model] using hmodel hinclude
    | false => simp [keyed_model]
  constructor
  · intro hkeys
    obtain ⟨hname, hmodel, hvalue⟩ := build_cache_key_inj hname₁ hname₂ (hkeyed rule₁ _ hmodel₁) (hkeyed rule₂ _ hmodel₂) hkeys
    obtain rfl := (settings.validate_ok_iff.mp hvalid).rule_of_name hmatched₁.mem hmatched₂.mem hname
    refine ⟨rfl, fun hinclude => ?_, hvalue⟩
    simpa [keyed_model, hinclude] using hmodel
  · rintro ⟨rfl, hmodel, rfl⟩
    simp only [AffinityRule.found]
    cases hinclude : rule₁.include_model with
    | true => rw [hmodel hinclude]
    | false => rfl

end Collisions

section Samples

/-- One rule that knows a caller by its key, or else by a header. -/
def caller_rule : AffinityRule := { name := "caller", sources := [.api_key_id, .header "x-session"] }

def caller_settings : AffinitySettings := { enabled := true, rules := [caller_rule] }

def by_key (id : Nat) : AffinityContext := { model := "gpt-4o", path := "/v1/chat/completions", api_key_id := some id, headers := [], body := none }

def by_header (value : Bytes) : AffinityContext :=
  { model := "gpt-4o", path := "/v1/chat/completions", api_key_id := none, headers := [("x-session", value)], body := none }

/-- A caller whose key has the number 42, and one without a key who sends that
    number in a header. -/
theorem sources_collide :
    caller_settings.validate = .ok () ∧
      ((AffinityEngine.load sample_regex { enabled := false, rules := [] } caller_settings).resolve Serde.compact (by_key 42) 0).1.map
          (·.cache_key) = some "caller\x00gpt-4o\x0042" ∧
      ((AffinityEngine.load sample_regex { enabled := false, rules := [] } caller_settings).resolve Serde.compact
          (by_header [52, 50]) 0).1.map (·.cache_key) = some "caller\x00gpt-4o\x0042" := by
  refine ⟨by decide +kernel, by decide +kernel, by decide +kernel⟩

theorem by_key_matched (id : Nat) : caller_settings.MatchedBy sample_regex Serde.compact (by_key id) caller_rule (toString id) := by
  refine ⟨[], [], rfl, nofun, ?_, .inl rfl, .inl rfl, ⟨[], .api_key_id, [.header "x-session"], rfl, nofun, rfl⟩, .inl rfl⟩
  simp [AffinityRule.Compiles, caller_rule]

/-- Callers with the keys 1 and 2 are told apart. -/
theorem callers_told_apart :
    (caller_rule.found caller_settings (by_key 1) "1").cache_key = (caller_rule.found caller_settings (by_key 2) "2").cache_key ↔
      caller_rule = caller_rule ∧ (caller_rule.include_model = true → (by_key 1).model = (by_key 2).model) ∧ "1" = "2" :=
  cache_keys_differ (by decide +kernel) (by_key_matched 1) (by_key_matched 2) (by decide) (by decide) (fun _ => by decide) fun _ => by decide

end Samples

end refract.router
