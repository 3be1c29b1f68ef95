import Refract.Core.Routing
import Refract.Core.Validation
import Refract.Machine.Transaction
import Refract.Store.Health
import Refract.Store.Price
import Refract.Store.Wallet

open refract.core refract.machine

namespace refract.core

def RoutingPolicy.validate (self : RoutingPolicy) : Except String Unit :=
  if 32 < self.max_attempts then
    .error ("max_attempts must be 0 (unlimited) or 1..=32, got " ++ toString self.max_attempts)
  else .ok ()

end refract.core

namespace refract.store

def BreakerPolicy.validate (self : BreakerPolicy) : Except String Unit :=
  if 1000 < self.failure_threshold then .error "failure_threshold must be at most 1000 (0 disables the breaker)"
  else if self.base_cooldown_secs = 0 || 86400 < self.base_cooldown_secs then
    .error "base_cooldown_secs must be between 1 and 86400"
  else if self.max_cooldown_secs < self.base_cooldown_secs || 86400 < self.max_cooldown_secs then
    .error "max_cooldown_secs must be between base_cooldown_secs and 86400"
  else .ok ()

def validate_retention (days : Nat) : Except String Unit :=
  if 1 ≤ days && days ≤ 3650 then .ok () else .error "log retention days must be between 1 and 3650"

/-- The settings that go into a backup. -/
structure ExportedSettings where
  routing_policy : RoutingPolicy
  log_retention_days : Nat
  breaker_policy : BreakerPolicy := {}
  pricing : List ModelPrice := []
  empty_response_retry : EmptyResponseRetryPolicy := {}
  deriving DecidableEq

/-- The rows of the table of settings that go into a backup, as far as they are there and can
    be read. -/
structure SettingsRepo where
  routing_policy : Option RoutingPolicy := none
  log_retention_days : Option Nat := none
  breaker_policy : Option BreakerPolicy := none
  pricing : Option (List ModelPrice) := none
  empty_response_retry : Option EmptyResponseRetryPolicy := none

/-- A change of one setting by an administrator. -/
inductive SettingChange where
  | routing_policy (policy : RoutingPolicy)
  | log_retention_days (days : Nat)
  | breaker_policy (policy : BreakerPolicy)
  | pricing (prices : List ModelPrice)
  | empty_response_retry (policy : EmptyResponseRetryPolicy)

namespace SettingsRepo

variable (self : SettingsRepo)

/-- A setting that cannot be used is replaced by its default. -/
def read : ExportedSettings where
  routing_policy := self.routing_policy.getD {}
  log_retention_days := (self.log_retention_days.filter fun days => 1 ≤ days && days ≤ 3650).getD 30
  breaker_policy := self.breaker_policy.getD {}
  pricing := self.pricing.getD []
  empty_response_retry := self.empty_response_retry.getD {}

def set : SettingChange → Except StoreError SettingsRepo
  | .routing_policy policy => do
    policy.validate.mapError .invalid
    return { self with routing_policy := some policy }
  | .log_retention_days days => do
    (validate_retention days).mapError .invalid
    return { self with log_retention_days := some days }
  | .breaker_policy policy => do
    policy.validate.mapError .invalid
    return { self with breaker_policy := some policy }
  | .pricing prices => do
    prices.forM fun price => price.validate.mapError .invalid
    return { self with pricing := some prices }
  | .empty_response_retry policy => do
    policy.validate.mapError .invalid
    return { self with empty_response_retry := some policy }

/-- All are checked before they are written in one transaction. -/
def import_settings (settings : ExportedSettings) : Except StoreError SettingsRepo := do
  settings.routing_policy.validate.mapError .invalid
  (validate_retention settings.log_retention_days).mapError .invalid
  settings.breaker_policy.validate.mapError .invalid
  settings.pricing.forM fun price => price.validate.mapError .invalid
  settings.empty_response_retry.validate.mapError .invalid
  return {
    routing_policy := some settings.routing_policy
    log_retention_days := some settings.log_retention_days
    breaker_policy := some settings.breaker_policy
    pricing := some settings.pricing
    empty_response_retry := some settings.empty_response_retry }

end SettingsRepo

/-- What the checks find about the settings of a backup. -/
structure ExportedSettings.Valid (settings : ExportedSettings) : Prop where
  routing_policy : settings.routing_policy.validate = .ok ()
  log_retention_days : validate_retention settings.log_retention_days = .ok ()
  breaker_policy : settings.breaker_policy.validate = .ok ()
  pricing : ∀ price ∈ settings.pricing, price.validate = .ok ()
  empty_response_retry : settings.empty_response_retry.validate = .ok ()

theorem validate_retention_ok {days : Nat} : validate_retention days = .ok () ↔ (1 ≤ days && days ≤ 3650) = true := by
  unfold validate_retention
  split
  next hrange => exact iff_of_true rfl hrange
  next hrange => exact iff_of_false nofun hrange

theorem forM_price_ok {prices : List ModelPrice} :
    (prices.forM fun price => price.validate.mapError StoreError.invalid) = .ok () ↔ ∀ price ∈ prices, price.validate = .ok () := by
  induction prices with
  | nil => exact iff_of_true rfl (List.forall_mem_nil _)
  | cons price prices ih =>
    rw [List.forall_mem_cons, ← ih, ← @mapError_eq_ok _ _ _ price.validate StoreError.invalid, ← exists_ok_unit, ← bind_eq_ok]
    rfl

namespace SettingsRepo

variable {self after : SettingsRepo} {settings : ExportedSettings}

/-- The settings of a backup are checked, and read as they were written. -/
theorem import_settings_ok (himport : import_settings settings = .ok after) : after.read = settings ∧ settings.Valid := by
  simp only [import_settings, bind_eq_ok, exists_ok_unit, mapError_eq_ok, forM_price_ok] at himport
  obtain ⟨hrouting, hdays, hbreaker, hpricing, hretry, himport⟩ := himport
  obtain rfl := Except.ok.inj himport
  refine ⟨?_, hrouting, hdays, hbreaker, hpricing, hretry⟩
  simp only [read, Option.getD_some, Option.filter_some, validate_retention_ok.mp hdays, if_true]

theorem import_settings_valid (hvalid : settings.Valid) : ∃ after, import_settings settings = .ok after := by
  simp only [import_settings, bind_eq_ok, exists_ok_unit, mapError_eq_ok, forM_price_ok]
  exact ⟨_, hvalid.routing_policy, hvalid.log_retention_days, hvalid.breaker_policy, hvalid.pricing, hvalid.empty_response_retry, rfl⟩

/-- The defaults pass the checks. -/
theorem read_empty_valid : ExportedSettings.Valid (read {}) where
  routing_policy := by decide
  log_retention_days := by decide
  breaker_policy := by decide
  pricing := List.forall_mem_nil _
  empty_response_retry := by decide

/-- The step: a change leaves settings that pass the checks. -/
theorem set_valid {change : SettingChange} (hvalid : self.read.Valid) (hset : self.set change = .ok after) : after.read.Valid := by
  cases change with
  | routing_policy policy =>
    simp only [set, bind_eq_ok, exists_ok_unit, mapError_eq_ok] at hset
    obtain rfl := Except.ok.inj hset.2
    exact { hvalid with routing_policy := hset.1 }
  | log_retention_days days =>
    simp only [set, bind_eq_ok, exists_ok_unit, mapError_eq_ok] at hset
    obtain rfl := Except.ok.inj hset.2
    refine { hvalid with log_retention_days := ?_ }
    simp only [read, Option.filter_some, validate_retention_ok.mp hset.1, if_true, Option.getD_some]
    exact hset.1
  | breaker_policy policy =>
    simp only [set, bind_eq_ok, exists_ok_unit, mapError_eq_ok] at hset
    obtain rfl := Except.ok.inj hset.2
    exact { hvalid with breaker_policy := hset.1 }
  | pricing prices =>
    simp only [set, bind_eq_ok, exists_ok_unit, forM_price_ok] at hset
    obtain rfl := Except.ok.inj hset.2
    exact { hvalid with pricing := hset.1 }
  | empty_response_retry policy =>
    simp only [set, bind_eq_ok, exists_ok_unit, mapError_eq_ok] at hset
    obtain rfl := Except.ok.inj hset.2
    exact { hvalid with empty_response_retry := hset.1 }

end SettingsRepo

end refract.store
