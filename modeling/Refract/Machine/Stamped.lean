import Mathlib.Data.List.Basic
import Mathlib.Data.List.Infix
import Mathlib.Order.Nat
import Mathlib.Tactic.Common

namespace refract.machine

/-- A value that changes from time to time, or a reading of it, with the number
    of changes up to then. -/
structure Stamped (β : Type) where
  value : β
  stamp : Nat := 0

namespace Stamped

variable {β : Type} {reading original : Stamped β}

/-- The next value. -/
def write (original : Stamped β) (value : β) : Stamped β := ⟨value, original.stamp + 1⟩

/-- A reading was taken of a value, and tells it as long as it does not change. -/
structure Of (reading original : Stamped β) : Prop where
  stamp_le : reading.stamp ≤ original.stamp
  value_eq : reading.stamp = original.stamp → reading.value = original.value

theorem Of.refl (original : Stamped β) : original.Of original := ⟨le_rfl, fun _ => rfl⟩

theorem Of.stamp_lt (hreading : reading.Of original) (value : β) : reading.stamp < (original.write value).stamp :=
  Nat.lt_succ_of_le hreading.stamp_le

/-- What was read before a change is older than what is read after it. -/
theorem Of.write (hreading : reading.Of original) (value : β) : reading.Of (original.write value) where
  stamp_le := (hreading.stamp_lt value).le
  value_eq hstamp := absurd hstamp (hreading.stamp_lt value).ne

/-- A reading that is not older than the latest one is the latest. -/
theorem Of.current (hreading : reading.Of original) {other : Stamped β} (hother : other.stamp = original.stamp)
    (hle : other.stamp ≤ reading.stamp) : reading.stamp = original.stamp :=
  le_antisymm hreading.stamp_le (hother ▸ hle)

end Stamped

/-- A value, with what it was before. -/
structure Chronicle (β : Type) where
  past : List β := []
  current : β

namespace Chronicle

variable {β : Type} (self : Chronicle β)

def values : List β := self.past ++ [self.current]

/-- What is read now. -/
def latest : Stamped β := ⟨self.current, self.past.length⟩

def write (value : β) : Chronicle β := ⟨self.values, value⟩

/-- A reading tells the value that there was at its time. -/
def Had (reading : Stamped β) : Prop := self.values[reading.stamp]? = some reading.value

/-- More was written, and nothing was changed that had been. -/
def Continues (after : Chronicle β) : Prop := self.values <+: after.values

variable {self} {after : Chronicle β}

theorem had_latest : self.Had self.latest := by simp [Had, values, latest]

theorem Continues.refl (self : Chronicle β) : self.Continues self := List.prefix_rfl

theorem continues_write (value : β) : self.Continues (self.write value) := List.prefix_append _ _

theorem Continues.past_le (hcontinues : self.Continues after) : self.past.length ≤ after.past.length := by
  simpa [values] using hcontinues.length_le

theorem Had.continues {reading : Stamped β} (hhad : self.Had reading) (hcontinues : self.Continues after) :
    after.Had reading := by
  obtain ⟨later, hlater⟩ := hcontinues
  obtain ⟨hlt, hvalue⟩ := List.getElem?_eq_some_iff.mp hhad
  rw [Had, ← hlater, List.getElem?_append_left hlt]
  exact hhad

end Chronicle

end refract.machine
