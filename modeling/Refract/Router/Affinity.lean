import Mathlib.Data.String.Basic
import Refract.Json.Parse
import Refract.Machine.OrderedMap
import Refract.Upstream.Client

open refract.core refract.json refract.machine refract.upstream

namespace refract.router

/-- A point in time, in nanoseconds. -/
abbrev Instant := Nat

/-- Where the value that identifies a caller is taken from. -/
inductive AffinityKeySource where
  | api_key_id
  | header (name : String)
  | body (path : String)
  deriving DecidableEq, Repr

/-- A rule whose expressions are compiled. One that is left out matches
    everything. -/
structure CompiledRule where
  name : String
  model_re : Option (String → Bool) := none
  path_re : Option (String → Bool) := none
  sources : List AffinityKeySource
  value_re : Option (String → Bool) := none
  ttl_secs : Nat
  include_model : Bool := true
  skip_retry_on_failure : Bool := false

/-- What of a request decides about affinity. -/
structure AffinityContext where
  model : String
  path : String
  api_key_id : Option Nat
  headers : HeaderMap
  body : Option Value

section Extraction

variable (serde : Serde)

/-- The position that a segment of a pointer stands for. -/
def parse_index (s : String) : Option Nat :=
  let cs := s.toList
  if cs = [] ∨ (cs.head? = some '0' ∧ cs.length ≠ 1) ∨ !cs.all isDigit ∨ 18446744073709551615 < ofDigits cs then none
  else some (ofDigits cs)

/-- The part of a document at a path. -/
def pointer (value : Value) (path : String) : Option Value :=
  if path = "" then some value
  else if !path.startsWith "/" then none
  else
    ((path.splitOn "/").drop 1).foldlM (fun target token =>
      let token := (token.replace "~1" "/").replace "~0" "~"
      match target with
      | .object map => Map.get map token
      | .array items => (parse_index token).bind (items[·]?)
      | _ => none) value

/-- The scalar at a path, as text. -/
def json_pointer_scalar (body : Value) (path : String) : Option String :=
  if path = "" then none
  else
    match pointer body path with
    | some (.string s) => if s = "" then none else some s
    | some (.number n) => some (serde.to_string (.number n))
    | some (.bool b) => some (if b then "true" else "false")
    | _ => none

/-- The value of the first source that has one. -/
def extract_value (sources : List AffinityKeySource) (ctx : AffinityContext) : Option String :=
  sources.findSome? fun source =>
    match source with
    | .api_key_id => ctx.api_key_id.map toString
    | .header name => ((ctx.headers.lookup name.toLower).bind to_str).filter (· ≠ "")
    | .body path => ctx.body.bind fun body => json_pointer_scalar serde body path

end Extraction

def build_cache_key (rule_name : String) (include_model : Bool) (model value : String) : String :=
  if include_model then rule_name ++ "\x00" ++ model ++ "\x00" ++ value else rule_name ++ "\x00\x00" ++ value

/-- A rule that matched a request, with the binding that was found. -/
structure AffinityDecision where
  rule_name : String
  cache_key : String
  binding : Option Int
  skip_retry_on_failure : Bool
  ttl_secs : Nat
  deriving DecidableEq, Repr

/-- What a rule makes of a request, before any binding is looked up. -/
def CompiledRule.matched (self : CompiledRule) (serde : Serde) (ctx : AffinityContext) : Option AffinityDecision :=
  if self.model_re.any (!· ctx.model) || self.path_re.any (!· ctx.path) then none
  else
    match extract_value serde self.sources ctx with
    | none => none
    | some value =>
      if self.value_re.any (!· value) then none
      else
        some {
          rule_name := self.name
          cache_key := build_cache_key self.name self.include_model ctx.model value
          binding := none
          skip_retry_on_failure := self.skip_retry_on_failure
          ttl_secs := self.ttl_secs }

structure Entry where
  channel_id : Int
  expires_at : Instant
  last_used : Instant
  deriving DecidableEq, Repr

/-- The channels that callers are bound to. -/
structure AffinityEngine where
  enabled : Bool
  switch_on_success : Bool := true
  keep_on_channel_disabled : Bool := false
  rules : List CompiledRule
  max_entries : Nat := 100000
  entries : SortedMap String Entry := {}

namespace AffinityEngine

variable (self : AffinityEngine)

/-- The channel that a key is bound to. -/
def bound (cache_key : String) : Option Int := (self.entries.get cache_key).map (·.channel_id)

def is_active : Bool := self.enabled && !self.rules.isEmpty

def needs_body : Bool :=
  self.enabled && self.rules.any fun rule => rule.sources.any fun source => match source with
    | .body _ => true
    | _ => false

/-- Looks the binding of a request up. A binding that is used lives on, and one
    that has expired is removed. -/
def resolve (serde : Serde) (ctx : AffinityContext) (now : Instant) : Option AffinityDecision × AffinityEngine :=
  if !self.enabled then (none, self)
  else
    match self.rules.findSome? (·.matched serde ctx) with
    | none => (none, self)
    | some m =>
      match self.entries.get m.cache_key with
      | none => (some m, self)
      | some entry =>
        if now < entry.expires_at then
          let renewed := { entry with expires_at := now + Duration.from_secs m.ttl_secs, last_used := now }
          (some { m with binding := some entry.channel_id },
            { self with entries := self.entries.insert m.cache_key renewed })
        else (some m, { self with entries := self.entries.remove m.cache_key })

def forget (cache_key : String) : AffinityEngine := { self with entries := self.entries.remove cache_key }

/-- The entry that was not used for longest. -/
def oldest (entries : SortedMap String Entry) : Option (String × Entry) :=
  entries.entries.foldl (fun found entry =>
    match found with
    | none => some entry
    | some best => if entry.2.last_used < best.2.last_used then some entry else some best) none

/-- Makes room for an entry. -/
def evict_expired_or_oldest (now : Instant) : AffinityEngine :=
  let live := { self with entries := self.entries.retain fun entry => now < entry.2.expires_at }
  if self.max_entries ≤ live.entries.len then
    match oldest live.entries with
    | some entry => live.forget entry.1
    | none => live
  else live

/-- Binds the key of a request to the channel that served it. A binding to
    another channel is replaced only where that is asked for. -/
def record (decision : AffinityDecision) (winner : Int) (now : Instant) : AffinityEngine :=
  if (self.bound decision.cache_key).any (· ≠ winner) && !self.switch_on_success then self
  else
    let roomy := if self.max_entries ≤ self.entries.len then self.evict_expired_or_oldest now else self
    let entry : Entry := { channel_id := winner, expires_at := now + Duration.from_secs decision.ttl_secs, last_used := now }
    { roomy with entries := roomy.entries.insert decision.cache_key entry }

def forget_if_bound_to (cache_key : String) (channel_id : Int) : AffinityEngine :=
  if self.bound cache_key = some channel_id then self.forget cache_key else self

/-- Removes all bindings. -/
def clear : AffinityEngine := { self with entries := {} }

/-- Removes all bindings to a channel. -/
def forget_channel (channel_id : Int) : AffinityEngine :=
  { self with entries := self.entries.retain fun entry => entry.2.channel_id ≠ channel_id }

variable {self}

/-- Nothing is bound in the new engine that was not bound so before. -/
def Fades (before after : AffinityEngine) : Prop := ∀ key, after.bound key = none ∨ after.bound key = before.bound key

theorem Fades.refl (engine : AffinityEngine) : engine.Fades engine := fun _ => .inr rfl

theorem Fades.trans {a b c : AffinityEngine} (hab : a.Fades b) (hbc : b.Fades c) : a.Fades c := by
  intro key
  rcases hbc key with hnone | heq
  · exact .inl hnone
  · exact heq ▸ hab key

@[simp] theorem bound_forget (key other : String) :
    (self.forget key).bound other = if other = key then none else self.bound other := by
  rw [bound, forget, SortedMap.get_remove]
  split <;> rfl

theorem forget_fades (key : String) : self.Fades (self.forget key) := by
  intro other
  rw [bound_forget]
  split
  · exact .inl rfl
  · exact .inr rfl

/-- A binding to another channel stays. -/
theorem forget_if_bound_to_fades (key : String) (channel_id : Int) : self.Fades (self.forget_if_bound_to key channel_id) := by
  unfold forget_if_bound_to
  split
  · exact forget_fades key
  · exact .refl self

theorem retain_fades (keep : String × Entry → Bool) : self.Fades { self with entries := self.entries.retain keep } := by
  intro key
  simp only [bound, SortedMap.get_retain]
  cases self.entries.get key with
  | none => exact .inl rfl
  | some entry =>
    cases hkeep : keep (key, entry) <;> simp [Option.filter, hkeep]

theorem evict_fades (now : Instant) : self.Fades (self.evict_expired_or_oldest now) := by
  have hlive := @retain_fades self fun entry => now < entry.2.expires_at
  unfold evict_expired_or_oldest
  extract_lets live
  split
  · split
    next entry _ => exact hlive.trans (forget_fades entry.1)
    next => exact hlive
  · exact hlive

theorem clear_fades : self.Fades self.clear := fun _ => .inl rfl

/-- The key of a decision is bound as the decision says, and nothing is bound
    anew. -/
theorem resolve_fades (serde : Serde) (ctx : AffinityContext) (now : Instant) :
    self.Fades (self.resolve serde ctx now).2 ∧ ∀ decision, (self.resolve serde ctx now).1 = some decision →
      (self.resolve serde ctx now).2.bound decision.cache_key = decision.binding := by
  unfold resolve
  split
  · exact ⟨.refl self, nofun⟩
  · cases hmatched : self.rules.findSome? (·.matched serde ctx) with
    | none => exact ⟨.refl self, nofun⟩
    | some m =>
      have hunbound : m.binding = none := by
        obtain ⟨rule, -, hrule⟩ := List.exists_of_findSome?_eq_some hmatched
        unfold CompiledRule.matched at hrule
        split at hrule
        · cases hrule
        · split at hrule
          · cases hrule
          · split at hrule
            · cases hrule
            · exact Option.some.inj hrule ▸ rfl
      dsimp only
      cases hentry : self.entries.get m.cache_key with
      | none =>
        refine ⟨.refl self, ?_⟩
        intro decision hdecision
        obtain rfl := Option.some.inj hdecision
        simp [bound, hentry, hunbound]
      | some entry =>
        dsimp only
        split
        · constructor
          · intro key
            right
            simp only [bound, SortedMap.get_insert]
            split
            next hkey => simp [hkey, hentry]
            next => rfl
          · intro decision hdecision
            obtain rfl := Option.some.inj hdecision
            simp [bound]
        · refine ⟨forget_fades m.cache_key, ?_⟩
          intro decision hdecision
          obtain rfl := Option.some.inj hdecision
          simp [bound, hunbound]

/-- A success binds its key to the channel that served it, or leaves it bound to
    another one. -/
theorem record_bound (decision : AffinityDecision) (winner : Int) (now : Instant) (key : String) :
    (self.record decision winner now).bound key = none ∨ (self.record decision winner now).bound key = self.bound key ∨
      (key = decision.cache_key ∧ (self.record decision winner now).bound key = some winner) := by
  unfold record
  split
  · exact .inr (.inl rfl)
  · have hroomy : self.Fades (if self.max_entries ≤ self.entries.len then self.evict_expired_or_oldest now else self) := by
      split
      · exact evict_fades now
      · exact .refl self
    revert hroomy
    generalize (if self.max_entries ≤ self.entries.len then self.evict_expired_or_oldest now else self) = roomy
    intro hroomy
    simp only [bound, SortedMap.get_insert]
    by_cases hkey : key = decision.cache_key
    · exact .inr (.inr ⟨hkey, by simp [hkey]⟩)
    · rw [if_neg hkey]
      rcases hroomy key with hnone | heq
      · exact .inl hnone
      · exact .inr (.inl heq)

/-- No key is bound to a channel. -/
def Unused (engine : AffinityEngine) (channel_id : Int) : Prop := ∀ key, engine.bound key ≠ some channel_id

theorem Fades.unused {before after : AffinityEngine} (hfades : before.Fades after) {channel_id : Int}
    (hunused : before.Unused channel_id) : after.Unused channel_id := by
  intro key hbound
  rcases hfades key with hnone | hsame
  · cases hnone.symm.trans hbound
  · exact hunused key (hsame ▸ hbound)

theorem forget_channel_unused (channel_id : Int) : (self.forget_channel channel_id).Unused channel_id := by
  intro key hbound
  rw [bound, forget_channel, SortedMap.get_retain] at hbound
  obtain ⟨entry, hentry, hid⟩ := Option.map_eq_some_iff.mp hbound
  simpa [hid] using (Option.filter_eq_some_iff.mp hentry).2

/-- A success uses no channel but the one that served, and not even that one where
    another binding is kept to. -/
theorem Unused.record {channel_id : Int} (hunused : self.Unused channel_id) (decision : AffinityDecision) {winner : Int}
    (now : Instant)
    (hwinner : ((self.bound decision.cache_key).any (· ≠ winner) && !self.switch_on_success) = false → channel_id ≠ winner) :
    (self.record decision winner now).Unused channel_id := by
  intro key hbound
  by_cases hkept : ((self.bound decision.cache_key).any (· ≠ winner) && !self.switch_on_success) = true
  · rw [AffinityEngine.record, if_pos hkept] at hbound
    exact hunused key hbound
  · rcases self.record_bound decision winner now key with hnone | hsame | ⟨-, hwon⟩
    · cases hnone.symm.trans hbound
    · exact hunused key (hsame ▸ hbound)
    · exact hwinner (Bool.eq_false_iff.mpr hkept) (Option.some.inj (hbound.symm.trans hwon))

end AffinityEngine

end refract.router
