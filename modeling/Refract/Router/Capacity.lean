import Refract.Machine.Interleaving
import Refract.Router.Affinity

open refract.core refract.json refract.machine refract.upstream

namespace refract.router

/-- A rule as it is written down. An expression that is empty filters nothing. -/
structure AffinityRule where
  name : String
  model_regex : String := ""
  path_regex : String := ""
  sources : List AffinityKeySource
  value_regex : String := ""
  ttl_secs : Option Nat := none
  include_model : Bool := true
  skip_retry_on_failure : Bool := false

structure AffinitySettings where
  enabled : Bool := false
  switch_on_success : Bool := true
  keep_on_channel_disabled : Bool := false
  max_entries : Nat := 100000
  default_ttl_secs : Nat := 1800
  rules : List AffinityRule := []

def AffinityRule.effective_ttl_secs (self : AffinityRule) (default_secs : Nat) : Nat := max (self.ttl_secs.getD default_secs) 1

section Loading

variable (regex : String → Option (String → Bool))

/-- An expression that is there is compiled. -/
def compile (text : String) : Option (Option (String → Bool)) := if text = "" then some none else (regex text).map some

def compile_rule (rule : AffinityRule) (default_ttl_secs : Nat) : Option CompiledRule := do
  let model_re ← compile regex rule.model_regex
  let path_re ← compile regex rule.path_regex
  let value_re ← compile regex rule.value_regex
  return {
    name := rule.name
    model_re
    path_re
    sources := rule.sources
    value_re
    ttl_secs := rule.effective_ttl_secs default_ttl_secs
    include_model := rule.include_model
    skip_retry_on_failure := rule.skip_retry_on_failure }

/-- Takes new settings over. A rule that does not compile is left out, and the
    bindings stay. -/
def AffinityEngine.load (self : AffinityEngine) (settings : AffinitySettings) : AffinityEngine := {
  self with
    enabled := settings.enabled
    switch_on_success := settings.switch_on_success
    keep_on_channel_disabled := settings.keep_on_channel_disabled
    max_entries := settings.max_entries
    rules := settings.rules.filterMap fun rule => compile_rule regex rule settings.default_ttl_secs }

end Loading

/-- What is done with an engine. -/
inductive AffinityCall where
  | record (decision : AffinityDecision) (winner : Int)
  | resolve (ctx : AffinityContext)
  | forget (cache_key : String)
  | forget_if_bound_to (cache_key : String) (channel_id : Int)
  | forget_channel (channel_id : Int)
  | clear
  | load (settings : AffinitySettings)

namespace AffinityEngine

variable (self : AffinityEngine)

/-- The bindings that have not expired. -/
def live (now : Instant) : SortedMap String Entry := self.entries.retain fun entry => now < entry.2.expires_at

def serve (serde : Serde) (regex : String → Option (String → Bool)) (now : Instant) (call : AffinityCall) : AffinityEngine :=
  match call with
  | .record decision winner => self.record decision winner now
  | .resolve ctx => (self.resolve serde ctx now).2
  | .forget cache_key => self.forget cache_key
  | .forget_if_bound_to cache_key channel_id => self.forget_if_bound_to cache_key channel_id
  | .forget_channel channel_id => self.forget_channel channel_id
  | .clear => self.clear
  | .load settings => self.load regex settings

/-- The engine in which room was made for a key, where there was none. -/
def roomy (now : Instant) : AffinityEngine := if self.max_entries ≤ self.entries.len then self.evict_expired_or_oldest now else self

variable {self} {now later : Instant} {key other : String} {entry : Entry}

@[simp] theorem get_live : (self.live now).get key = (self.entries.get key).filter fun entry => now < entry.expires_at :=
  SortedMap.get_retain self.entries key _

theorem get_live_eq_some : (self.live now).get key = some entry ↔ self.entries.get key = some entry ∧ now < entry.expires_at := by
  rw [get_live, Option.filter_eq_some_iff, decide_eq_true_eq]

/-- Nothing comes to life with time. -/
theorem len_live_le (hle : now ≤ later) : (self.live later).len ≤ (self.live now).len := by
  refine (List.monotone_filter_right self.entries.entries ?_).length_le
  intro entry hlater
  exact decide_eq_true (hle.trans_lt (of_decide_eq_true hlater))

section Oldest

/-- An entry that was not used for longer than any other. -/
def IsOldest (best : String × Entry) (entries : List (String × Entry)) : Prop :=
  best ∈ entries ∧ ∀ entry ∈ entries, best.2.last_used ≤ entry.2.last_used

/-- A search that keeps the older one of two finds the oldest. -/
theorem isOldest_foldl {step : Option (String × Entry) → String × Entry → Option (String × Entry)}
    (hstep : ∀ best entry, step (some best) entry = if entry.2.last_used < best.2.last_used then some entry else some best)
    {best : String × Entry} {seen : List (String × Entry)} (hbest : IsOldest best seen) (rest : List (String × Entry)) :
    ∃ found, rest.foldl step (some best) = some found ∧ IsOldest found (seen ++ rest) := by
  induction rest generalizing best seen with
  | nil => exact ⟨best, rfl, by rwa [List.append_nil]⟩
  | cons entry rest ih =>
    rw [List.foldl_cons, hstep, List.append_cons]
    split
    next holder =>
      refine ih ⟨List.mem_append_right _ (.head _), ?_⟩
      intro other hother
      rcases List.mem_append.mp hother with hseen | hlast
      · exact holder.le.trans (hbest.2 other hseen)
      · rw [List.mem_singleton.mp hlast]
    next hyounger =>
      refine ih ⟨List.mem_append_left _ hbest.1, ?_⟩
      intro other hother
      rcases List.mem_append.mp hother with hseen | hlast
      · exact hbest.2 other hseen
      · rw [List.mem_singleton.mp hlast]
        exact not_lt.mp hyounger

theorem oldest_spec {entries : SortedMap String Entry} (hsome : 0 < entries.len) :
    ∃ best, oldest entries = some best ∧ IsOldest best entries.entries := by
  unfold oldest
  cases hentries : entries.entries with
  | nil =>
    rw [SortedMap.len, hentries] at hsome
    exact absurd hsome (Nat.lt_irrefl 0)
  | cons first rest =>
    have hfirst : IsOldest first [first] := by
      refine ⟨.head _, ?_⟩
      intro entry hentry
      rw [List.mem_singleton.mp hentry]
    refine isOldest_foldl ?_ hfirst rest
    intro best entry
    rfl

/-- Where there is no room left, what has not expired is kept but for the oldest. -/
theorem evict_spec (hfull : self.max_entries ≤ self.entries.len) (hpos : 0 < self.max_entries) :
    ((self.live now).len < self.max_entries ∧ self.roomy now = { self with entries := self.live now }) ∨
      ∃ best, self.max_entries ≤ (self.live now).len ∧ IsOldest best (self.live now).entries ∧
        self.roomy now = { self with entries := (self.live now).remove best.1 } := by
  unfold roomy evict_expired_or_oldest
  rw [if_pos hfull]
  by_cases hlive : self.max_entries ≤ (self.live now).len
  · obtain ⟨best, hfound, holdest⟩ := oldest_spec (hpos.trans_le hlive)
    refine .inr ⟨best, hlive, holdest, ?_⟩
    refine (if_pos hlive).trans ?_
    rw [show oldest (self.entries.retain fun entry => now < entry.2.expires_at) = some best from hfound]
    rfl
  · exact .inl ⟨not_le.mp hlive, if_neg hlive⟩

end Oldest

variable {decision : AffinityDecision} {winner : Int}

/-- A binding to another channel is kept to. -/
def Kept (self : AffinityEngine) (decision : AffinityDecision) (winner : Int) : Prop :=
  ((self.bound decision.cache_key).any (· ≠ winner) && !self.switch_on_success) = true

theorem record_of_kept (hkept : self.Kept decision winner) : self.record decision winner now = self := if_pos hkept

theorem record_of_not_kept (hnot : ¬ self.Kept decision winner) :
    self.record decision winner now = { self.roomy now with
      entries := (self.roomy now).entries.insert decision.cache_key
        { channel_id := winner, expires_at := now + Duration.from_secs decision.ttl_secs, last_used := now } } := if_neg hnot

@[simp] theorem max_entries_roomy : (self.roomy now).max_entries = self.max_entries := by
  unfold roomy evict_expired_or_oldest
  extract_lets live
  split
  · split
    · split <;> rfl
    · rfl
  · rfl

/-- There is room for one entry more where the live ones fit. -/
theorem len_roomy_lt (hpos : 0 < self.max_entries) (hlive : (self.live now).len ≤ self.max_entries) :
    (self.roomy now).entries.len < self.max_entries := by
  by_cases hfull : self.max_entries ≤ self.entries.len
  · rcases evict_spec hfull hpos with ⟨hlt, hroomy⟩ | ⟨best, hmax, ⟨hmem, -⟩, hroomy⟩
    · rwa [hroomy]
    · have hremoved := SortedMap.len_remove (SortedMap.mem_entries_iff.mp hmem)
      rw [hroomy]
      exact (Nat.lt_of_succ_le hremoved.le).trans_le hlive
  · rw [roomy, if_neg hfull]
    exact not_le.mp hfull

theorem max_entries_record : (self.record decision winner now).max_entries = self.max_entries := by
  by_cases hkept : self.Kept decision winner
  · rw [record_of_kept hkept]
  · rw [record_of_not_kept hkept]
    exact max_entries_roomy

theorem max_entries_resolve {serde : Serde} {ctx : AffinityContext} : (self.resolve serde ctx now).2.max_entries = self.max_entries := by
  unfold resolve
  split
  · rfl
  · split
    · rfl
    · split
      · rfl
      · split <;> rfl

theorem len_live_record_le (hpos : 0 < self.max_entries) (hlive : (self.live now).len ≤ self.max_entries) :
    ((self.record decision winner now).live now).len ≤ (self.record decision winner now).max_entries := by
  by_cases hkept : self.Kept decision winner
  · rwa [record_of_kept hkept]
  · rw [record_of_not_kept hkept]
    calc (SortedMap.retain _ _).len
        ≤ (SortedMap.insert (self.roomy now).entries decision.cache_key _).len := SortedMap.len_retain_le _ _
      _ = ((self.roomy now).entries.remove decision.cache_key).len + 1 := SortedMap.len_insert _ _ _
      _ ≤ (self.roomy now).entries.len + 1 := Nat.succ_le_succ (SortedMap.len_remove_le _ _)
      _ ≤ self.max_entries := len_roomy_lt hpos hlive
      _ = (self.roomy now).max_entries := max_entries_roomy.symm

theorem len_live_resolve_le {serde : Serde} {ctx : AffinityContext} (hlive : (self.live now).len ≤ self.max_entries) :
    ((self.resolve serde ctx now).2.live now).len ≤ (self.resolve serde ctx now).2.max_entries := by
  unfold resolve
  split
  · exact hlive
  · split
    · exact hlive
    · split
      · exact hlive
      next m _ entry hentry =>
        split
        next hlives =>
          exact (SortedMap.len_retain_insert_le hentry (decide_eq_true hlives)).trans hlive
        next => exact (List.filter_sublist.filter _).length_le.trans hlive

/-- The entry of a key is refreshed without that another one has to go. Where there is
    no room left, nothing else has expired, and the key itself was not used for
    longest. -/
def Spares (self : AffinityEngine) (now : Instant) (key : String) (own : Entry) : Prop :=
  self.entries.len < self.max_entries ∨
    (∀ other entry, other ≠ key → self.entries.get other = some entry → now < entry.expires_at) ∧
      if now < own.expires_at then ∀ other entry, other ≠ key → self.entries.get other = some entry → own.last_used < entry.last_used
      else self.entries.len ≤ self.max_entries

variable {own : Entry}

theorem get_live_of_unexpired (hunexpired : ∀ entry, self.entries.get key = some entry → now < entry.expires_at) :
    (self.live now).get key = self.entries.get key := by
  rw [get_live]
  cases hget : self.entries.get key with
  | none => rfl
  | some entry => exact Option.filter_eq_some_iff.mpr ⟨rfl, decide_eq_true (hunexpired entry hget)⟩

/-- An entry that has expired is not counted. -/
theorem len_live_lt (hown : self.entries.get key = some own) (hexpired : own.expires_at ≤ now) : (self.live now).len < self.entries.len := by
  have hrest : (self.live now).len ≤ (self.entries.remove key).len := by
    refine ((SortedMap.perm_of_get hown).filter _).length_eq.le.trans ?_
    rw [List.filter_cons, if_neg (by simpa using hexpired)]
    exact List.length_filter_le ..
  exact (Nat.lt_succ_of_le hrest).trans_le (SortedMap.len_remove hown).le

theorem get_roomy_of_spares (hpos : 0 < self.max_entries) (hown : self.entries.get key = some own) (hspares : self.Spares now key own)
    (hother : other ≠ key) : (self.roomy now).entries.get other = self.entries.get other := by
  by_cases hfull : self.max_entries ≤ self.entries.len
  · obtain ⟨hunexpired, hage⟩ := hspares.resolve_left (not_lt.mpr hfull)
    have hlive := get_live_of_unexpired fun entry => hunexpired other entry hother
    rcases evict_spec hfull hpos with ⟨-, hroomy⟩ | ⟨best, hmax, ⟨hmem, holdest⟩, hroomy⟩
    · rwa [hroomy]
    · obtain ⟨hbest, -⟩ := get_live_eq_some.mp (SortedMap.mem_entries_iff.mp hmem)
      have hgone : best.1 = key := by
        by_contra hne
        by_cases hlives : now < own.expires_at
        · rw [if_pos hlives] at hage
          have holder := holdest (key, own) (SortedMap.mem_entries_iff.mpr (get_live_eq_some.mpr ⟨hown, hlives⟩))
          exact absurd (hage best.1 best.2 hne hbest) (not_lt.mpr holder)
        · rw [if_neg hlives] at hage
          exact absurd (hage.trans hmax) (not_le.mpr (len_live_lt hown (not_lt.mp hlives)))
      rw [hroomy, SortedMap.get_remove, hgone, if_neg hother]
      exact hlive
  · rw [roomy, if_neg hfull]

/-- A key that is refreshed leaves the others alone. -/
theorem get_record_of_spares (hpos : 0 < self.max_entries) (hown : self.entries.get decision.cache_key = some own)
    (hspares : self.Kept decision winner ∨ self.Spares now decision.cache_key own) (hother : other ≠ decision.cache_key) :
    (self.record decision winner now).entries.get other = self.entries.get other := by
  by_cases hkept : self.Kept decision winner
  · rw [record_of_kept hkept]
  · rw [record_of_not_kept hkept, SortedMap.get_insert, if_neg hother]
    exact get_roomy_of_spares hpos hown (hspares.resolve_left hkept) hother

/-- A binding that lives goes only where there is no room left. -/
theorem full_of_removed (hpos : 0 < self.max_entries) (hlive : (self.live now).get other = some entry)
    (hgone : (self.record decision winner now).entries.get other = none) : self.max_entries ≤ (self.live now).len := by
  by_cases hkept : self.Kept decision winner
  · rw [record_of_kept hkept, (get_live_eq_some.mp hlive).1] at hgone
    cases hgone
  · rw [record_of_not_kept hkept, SortedMap.get_insert] at hgone
    split at hgone
    · cases hgone
    · by_cases hfull : self.max_entries ≤ self.entries.len
      · rcases evict_spec hfull hpos with ⟨-, hroomy⟩ | ⟨_, hmax, -⟩
        · rw [hroomy, hlive] at hgone
          cases hgone
        · exact hmax
      · rw [roomy, if_neg hfull, (get_live_eq_some.mp hlive).1] at hgone
        cases hgone

end AffinityEngine

/-- A call, after some time. -/
structure TimedCall where
  elapsed : Duration
  call : AffinityCall

/-- An engine at a point in time. -/
structure AffinityCache where
  engine : AffinityEngine
  now : Instant := 0

namespace AffinityCache

variable (serde : Serde) (regex : String → Option (String → Bool)) (cache : AffinityCache) (timed : TimedCall)

def serve : AffinityCache :=
  let now := cache.now + timed.elapsed
  { engine := cache.engine.serve serde regex now timed.call, now }

/-- The bindings that have not expired are no more than there may be. -/
def Fits : Prop := (cache.engine.live cache.now).len ≤ cache.engine.max_entries

/-- What is asked of a call. -/
structure Sound : Prop where
  fits : (cache.serve serde regex timed).Fits
  /-- A key that is there takes no other key's place. -/
  refreshes : ∀ decision winner own, timed.call = .record decision winner → cache.engine.entries.get decision.cache_key = some own →
    ∀ key, key ≠ decision.cache_key → (cache.serve serde regex timed).engine.entries.get key = cache.engine.entries.get key
  /-- A key that is new takes the place of a binding that lives only where there is no other place. -/
  inserts : ∀ decision winner key entry, timed.call = .record decision winner →
    (cache.engine.live (cache.now + timed.elapsed)).get key = some entry → (cache.serve serde regex timed).engine.entries.get key = none →
      cache.engine.max_entries ≤ (cache.engine.live (cache.now + timed.elapsed)).len

/-- New settings leave room for the bindings that there are, and a key that is refreshed
    spares the others. -/
def Careful : Prop :=
  match timed.call with
  | .load settings => 0 < settings.max_entries ∧ (cache.engine.live (cache.now + timed.elapsed)).len ≤ settings.max_entries
  | .record decision winner => ∀ own, cache.engine.entries.get decision.cache_key = some own →
    cache.engine.Kept decision winner ∨ cache.engine.Spares (cache.now + timed.elapsed) decision.cache_key own
  | _ => True

variable {serde regex cache timed}

/-- Time alone makes no room scarce. -/
theorem Fits.wait (hfits : cache.Fits) (elapsed : Duration) :
    (cache.engine.live (cache.now + elapsed)).len ≤ cache.engine.max_entries :=
  (AffinityEngine.len_live_le (Nat.le_add_right _ elapsed)).trans hfits

theorem serve_fits (hpos : 0 < cache.engine.max_entries) (hfits : cache.Fits) (hcareful : cache.Careful timed) :
    0 < (cache.serve serde regex timed).engine.max_entries ∧ (cache.serve serde regex timed).Fits := by
  have hlive := hfits.wait timed.elapsed
  obtain ⟨elapsed, call⟩ := timed
  cases call with
  | record decision winner =>
    have hmax := @AffinityEngine.max_entries_record cache.engine (cache.now + elapsed) decision winner
    exact ⟨hpos.trans_eq hmax.symm, AffinityEngine.len_live_record_le hpos hlive⟩
  | resolve ctx =>
    have hmax := @AffinityEngine.max_entries_resolve cache.engine (cache.now + elapsed) serde ctx
    exact ⟨hpos.trans_eq hmax.symm, AffinityEngine.len_live_resolve_le hlive⟩
  | forget cache_key => exact ⟨hpos, (List.filter_sublist.filter _).length_le.trans hlive⟩
  | forget_if_bound_to cache_key channel_id =>
    unfold Fits serve AffinityEngine.serve AffinityEngine.forget_if_bound_to
    dsimp only
    split
    · exact ⟨hpos, (List.filter_sublist.filter _).length_le.trans hlive⟩
    · exact ⟨hpos, hlive⟩
  | forget_channel channel_id => exact ⟨hpos, (List.filter_sublist.filter _).length_le.trans hlive⟩
  | clear => exact ⟨hpos, Nat.zero_le _⟩
  | load settings => exact hcareful

theorem sound_of_careful (hpos : 0 < cache.engine.max_entries) (hfits : cache.Fits) (hcareful : cache.Careful timed) :
    cache.Sound serde regex timed where
  fits := (serve_fits hpos hfits hcareful).2
  refreshes := by
    intro decision winner own hcall hown key hkey
    unfold Careful at hcareful
    unfold serve AffinityEngine.serve
    rw [hcall] at hcareful ⊢
    exact AffinityEngine.get_record_of_spares hpos hown (hcareful own hown) hkey
  inserts := by
    intro decision winner key entry hcall hlive hgone
    unfold serve AffinityEngine.serve at hgone
    rw [hcall] at hgone
    exact AffinityEngine.full_of_removed hpos hlive hgone

/-- Whatever is done with an engine, it keeps to its capacity and evicts only where it
    has to, as long as new settings leave room and keys that are refreshed spare the
    others. -/
theorem capacity_kept (serde : Serde) (regex : String → Option (String → Bool)) (cache : AffinityCache)
    (hpos : 0 < cache.engine.max_entries) (hfits : cache.Fits) (calls : List TimedCall)
    (hcareful : Along (serve serde regex) Careful cache calls) : Along (serve serde regex) (Sound serde regex) cache calls := by
  induction calls generalizing cache with
  | nil => trivial
  | cons timed calls ih =>
    obtain ⟨hfirst, hrest⟩ := hcareful
    obtain ⟨hpos', hfits'⟩ := @serve_fits serde regex cache timed hpos hfits hfirst
    exact ⟨sound_of_careful hpos hfits hfirst, ih _ hpos' hfits' hrest⟩

/-- A caller that a channel has served after some time. -/
def served (elapsed : Duration) (cache_key : String) (winner : Int) : TimedCall := {
  elapsed
  call := .record { rule_name := "session", cache_key, binding := none, skip_retry_on_failure := false, ttl_secs := 60 } winner }

/-- An engine that has room for two bindings. -/
def small : AffinityCache := { engine := { enabled := true, rules := [], max_entries := 2 } }

theorem capacity_kept_of_small :
    Along (serve ⟨fun _ => none, fun _ => ""⟩ fun _ => none) (Sound ⟨fun _ => none, fun _ => ""⟩ fun _ => none) small
      [served 1 "a" 1, served 1 "b" 2, served 1 "c" 3, ⟨1, .load { max_entries := 3 }⟩, served 1 "b" 3] := by
  refine capacity_kept _ _ small (by decide) (Nat.zero_le _) _ ⟨?_, ?_, ?_, ⟨by decide, by decide +kernel⟩, ?_, trivial⟩
  · intro own hown
    cases hown
  · intro own hown
    cases hown
  · intro own hown
    cases hown
  · intro own _
    exact .inr (.inl (by decide +kernel))

/-- A key that is refreshed takes the place of one that was not used for longer, and a
    smaller limit is not enforced. -/
theorem refreshed_key_evicts :
    let cache := [served 1 "a" 1, served 1 "b" 2].foldl (serve ⟨fun _ => none, fun _ => ""⟩ fun _ => none) small
    ¬ cache.Sound ⟨fun _ => none, fun _ => ""⟩ (fun _ => none) (served 1 "b" 2) ∧
      ¬ cache.Sound ⟨fun _ => none, fun _ => ""⟩ (fun _ => none) ⟨1, .load { max_entries := 1 }⟩ := by
  constructor
  · intro hsound
    have hkept := hsound.refreshes _ _ { channel_id := 2, expires_at := 60000000002, last_used := 2 } rfl (by decide +kernel) "a" (by decide)
    exact absurd hkept (by decide +kernel)
  · intro hsound
    exact absurd hsound.fits (by unfold Fits; decide +kernel)

end AffinityCache

end refract.router
