import Mathlib.Algebra.Order.Ring.Rat

namespace refract.store

/-- A key of the gateway, with what decides whether it may be used. Amounts and
    times are exact. -/
structure ApiKey where
  id : Int
  owner_id : Int
  /-- The user a key belongs to. Keys from before there were users have none. -/
  user_id : Option Int
  name : String
  enabled : Bool
  allowed_models : List String
  allowed_tags : List String
  quota : Int
  used_quota : Int
  rpm_limit : Int := 0
  tpm_limit : Int := 0
  budget : ℚ
  used_budget : ℚ
  expires_at : Option Int

namespace ApiKey

variable (self : ApiKey)

/-- Zero stands for no limit. -/
def is_usable (now : Int) : Bool :=
  self.enabled && self.expires_at.all (now < ·) && !(0 < self.quota && self.quota ≤ self.used_quota) &&
    !(0 < self.budget && self.budget ≤ self.used_budget)

def allows_model (model : String) : Bool := self.allowed_models.isEmpty || self.allowed_models.contains model

end ApiKey

inductive UserStatus where
  | active
  | pending_verification
  | disabled
  deriving DecidableEq, Repr

end refract.store
