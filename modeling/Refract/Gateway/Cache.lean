import Mathlib.Logic.Function.Basic
import Refract.Router.Affinity

open refract.router

namespace refract.gateway

/-- A cache whose entries expire. -/
structure TtlCache (κ ν : Type) where
  entries : κ → Option (ν × Instant) := fun _ => none
  ttl : Nat

namespace TtlCache

variable {κ ν : Type} [DecidableEq κ] (self : TtlCache κ ν) (key : κ) (value : ν) (now : Instant)

/-- An entry that has expired is removed. -/
def get : Option ν × TtlCache κ ν :=
  match self.entries key with
  | none => (none, self)
  | some (value, since) =>
    if self.ttl ≤ now - since then (none, { self with entries := Function.update self.entries key none })
    else (some value, self)

def insert : TtlCache κ ν := { self with entries := Function.update self.entries key (some (value, now)) }

def invalidate : TtlCache κ ν := { self with entries := Function.update self.entries key none }

@[simp] theorem entries_insert (other : κ) :
    (self.insert key value now).entries other = if other = key then some (value, now) else self.entries other :=
  Function.update_apply ..

@[simp] theorem entries_invalidate (other : κ) :
    (self.invalidate key).entries other = if other = key then none else self.entries other :=
  Function.update_apply ..

/-- All that is cached has a property. -/
def Forall (cache : TtlCache κ ν) (P : κ → ν → Prop) : Prop :=
  ∀ key value since, cache.entries key = some (value, since) → P key value

variable {self key value now} {P Q : κ → ν → Prop}

omit [DecidableEq κ] in
theorem Forall.imp (hall : self.Forall P) (himp : ∀ key value, P key value → Q key value) : self.Forall Q :=
  fun key value since hentry => himp key value (hall key value since hentry)

theorem Forall.invalidate (hall : self.Forall P) (hothers : ∀ other value, other ≠ key → P other value → Q other value) :
    (self.invalidate key).Forall Q := by
  intro other value since hentry
  by_cases hother : other = key
  · rw [entries_invalidate, if_pos hother] at hentry
    cases hentry
  · rw [entries_invalidate, if_neg hother] at hentry
    exact hothers other value hother (hall other value since hentry)

theorem Forall.insert (hall : self.Forall P) (hothers : ∀ other value, other ≠ key → P other value → Q other value)
    (hvalue : Q key value) : (self.insert key value now).Forall Q := by
  intro other cached since hentry
  by_cases hother : other = key
  · subst hother
    rw [entries_insert, if_pos rfl] at hentry
    obtain rfl := (Prod.mk.inj (Option.some.inj hentry)).1
    exact hvalue
  · rw [entries_insert, if_neg hother] at hentry
    exact hothers other cached hother (hall other cached since hentry)

theorem Forall.get (hall : self.Forall P) : (self.get key now).2.Forall P := by
  unfold TtlCache.get
  split
  · exact hall
  · split
    · exact hall.invalidate fun _ _ _ hvalue => hvalue
    · exact hall

/-- What is found in the cache has the property. -/
theorem Forall.of_get (hall : self.Forall P) (hget : (self.get key now).1 = some value) : P key value := by
  unfold TtlCache.get at hget
  cases hentry : self.entries key with
  | none =>
    rw [hentry] at hget
    cases hget
  | some entry =>
    rw [hentry] at hget
    dsimp only at hget
    split at hget
    · cases hget
    · obtain rfl := Option.some.inj hget
      exact hall key entry.1 entry.2 hentry

end TtlCache

end refract.gateway
