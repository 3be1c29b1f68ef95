import Mathlib.Data.Nat.Basic
import Mathlib.Logic.Function.Basic
import Refract.Core.Channel

open refract.core

namespace refract.router

/-- Where the keys of the channels are taken from, over all requests. -/
structure KeySelector where
  /-- The next place, for every channel. -/
  cursors : Int → Option Nat := fun _ => none
  /-- The place that a caller keeps to, for every channel. -/
  sticky : Int × Nat → Option Nat := fun _ => none

namespace KeySelector

variable (self : KeySelector) (channel_id : Int)

def next_cursor (len : Nat) : Nat × KeySelector :=
  let cursor := (self.cursors channel_id).getD 0
  (cursor % len, { self with cursors := Function.update self.cursors channel_id (some ((cursor + 1) % 18446744073709551616)) })

/-- The place of the first key of a request. A place that is kept may lie outside
    of a pool that became smaller. -/
def first_index (pool : KeyPool) (identity : Option Nat) (random : Fin pool.len) : Nat × KeySelector :=
  match pool.strategy with
  | .random => (random, self)
  | .roundRobin => self.next_cursor channel_id pool.len
  | .sticky =>
    match identity with
    | none => self.next_cursor channel_id pool.len
    | some id =>
      match self.sticky (channel_id, id) with
      | none => self.next_cursor channel_id pool.len
      | some bound =>
        if bound < pool.len then (bound, self)
        else next_cursor { self with sticky := Function.update self.sticky (channel_id, id) none } channel_id pool.len

/-- Keeps a place for a caller. -/
def commit_sticky (identity : Option Nat) (index : Nat) : KeySelector :=
  match identity with
  | none => self
  | some id => { self with sticky := Function.update self.sticky (channel_id, id) (some index) }

/-- Forgets a channel. -/
def forget_channel : KeySelector where
  cursors := Function.update self.cursors channel_id none
  sticky key := if key.1 = channel_id then none else self.sticky key

/-- Nothing is kept for a channel. -/
structure Blank (keys : KeySelector) (id : Int) : Prop where
  cursors : keys.cursors id = none
  sticky : ∀ identity, keys.sticky (id, identity) = none

variable {self channel_id} {other : Int}

theorem forget_channel_blank : (self.forget_channel channel_id).Blank channel_id where
  cursors := Function.update_self ..
  sticky _ := if_pos rfl

theorem Blank.next_cursor (hblank : self.Blank other) (hother : other ≠ channel_id) (len : Nat) :
    (self.next_cursor channel_id len).2.Blank other where
  cursors := (Function.update_of_ne hother ..).trans hblank.cursors
  sticky := hblank.sticky

theorem Blank.set_sticky (hblank : self.Blank other) (hother : other ≠ channel_id) (identity : Nat) (index : Option Nat) :
    Blank { self with sticky := Function.update self.sticky (channel_id, identity) index } other where
  cursors := hblank.cursors
  sticky another := by
    have hkey : (other, another) ≠ (channel_id, identity) := fun heq => hother (congrArg Prod.fst heq)
    exact (Function.update_of_ne hkey ..).trans (hblank.sticky another)

/-- A key is taken without a trace of other channels, and where it is drawn
    without any trace. -/
theorem Blank.first_index (hblank : self.Blank other) {pool : KeyPool} {identity : Option Nat} {random : Fin pool.len}
    (hother : pool.strategy ≠ .random → other ≠ channel_id) :
    (self.first_index channel_id pool identity random).2.Blank other := by
  unfold KeySelector.first_index
  cases hstrategy : pool.strategy with
  | random => exact hblank
  | roundRobin => exact hblank.next_cursor (hother (hstrategy ▸ nofun)) _
  | sticky =>
    have hne : other ≠ channel_id := hother (hstrategy ▸ nofun)
    cases identity with
    | none => exact hblank.next_cursor hne _
    | some id =>
      dsimp only
      split
      · exact hblank.next_cursor hne _
      · split
        · exact hblank
        · exact (hblank.set_sticky hne id none).next_cursor hne _

theorem Blank.commit_sticky (hblank : self.Blank other) {identity : Option Nat} (hother : identity.isSome → other ≠ channel_id)
    (index : Nat) : (self.commit_sticky channel_id identity index).Blank other := by
  cases identity with
  | none => exact hblank
  | some id => exact hblank.set_sticky (hother rfl) id (some index)

end KeySelector

/-- The keys of one candidate, in the course of one request. -/
structure KeyRotator where
  pool : KeyPool
  /-- The place of the key in use. -/
  index : Nat
  /-- How many keys were used, the one in use included. -/
  tried : Nat := 1
  exhausted : Bool := false
  deriving DecidableEq, Repr

namespace KeyRotator

variable (self : KeyRotator)

def current : Credential := self.pool.key_at self.index

def hint : String := self.current.masked

/-- After a failure of the key in use, moves to the next one if there is any. -/
def rotate (kind : ErrorKind) : Bool × KeyRotator :=
  if self.exhausted then (false, self)
  else if !kind.is_key_failure then (false, self)
  else if self.pool.is_single || self.pool.len < 2 then (false, { self with exhausted := true })
  else if self.pool.len ≤ self.tried then (false, { self with exhausted := true })
  else (true, { self with index := (self.index + 1) % self.pool.len, tried := self.tried + 1 })

/-- Keeps the key that served a request, if its pool keeps to keys. -/
def commit (selector : KeySelector) (channel_id : Int) (identity : Option Nat) : KeySelector :=
  if self.pool.strategy = .sticky then selector.commit_sticky channel_id identity self.index else selector

/-- The error of the last key, which stands for the whole pool once no key is
    left. -/
def exhausted_error (last : GatewayError) : GatewayError :=
  if !self.exhausted || self.pool.len < 2 then last
  else
    { GatewayError.new last.kind
        ("all " ++ toString self.pool.len ++ " keys in channel credential pool failed: " ++ last.message) with
      retry_after := last.retry_after }

@[simp] theorem exhausted_error_kind (last : GatewayError) : (self.exhausted_error last).kind = last.kind := by
  unfold exhausted_error
  split <;> rfl

/-- Only a failure of the key moves to another key. -/
theorem rotate_of_not_key_failure {kind : ErrorKind} (h : kind.is_key_failure = false) :
    self.rotate kind = (false, self) := by
  unfold rotate
  split
  · rfl
  · simp [h]

end KeyRotator

/-- The keys of a candidate, from the first one on. -/
def KeySelector.start (self : KeySelector) (channel_id : Int) (pool : KeyPool) (identity : Option Nat) (random : Fin pool.len) :
    KeyRotator × KeySelector :=
  let first := self.first_index channel_id pool identity random
  ({ pool, index := first.1 }, first.2)

end refract.router
