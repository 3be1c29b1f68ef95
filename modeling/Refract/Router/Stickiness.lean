import Refract.Machine.Interleaving
import Refract.Router.Spread

open refract.core refract.machine

namespace refract.router

/-- A caller, by the channel that it uses. -/
abbrev Caller := Int × Nat

/-- A request that is under way, with the keys it has. -/
structure KeyFlight where
  channel_id : Int
  identity : Option Nat
  rotator : KeyRotator

/-- The channels as they stand, and the requests that take keys from them. -/
structure KeyDesk where
  selector : KeySelector := {}
  channels : Int → Channel
  flights : List KeyFlight := []
  /-- The place and the key that served a caller last, as long as the key keeps its place. -/
  held : Caller → Option (Nat × Credential) := fun _ => none

inductive KeyStep where
  | start (channel_id : Int) (endpoint : ChannelEndpoint) (identity : Option Nat) (random : Nat)
  | fail (flight : Nat) (kind : ErrorKind)
  | succeed (flight : Nat)
  | update (channel_id : Int) (channel : Channel)

namespace KeyDesk

variable (self : KeyDesk)

/-- The key at a place of a channel. -/
def key_at (channel_id : Int) (place : Nat) : Option Credential := (self.channels channel_id).shared_pool.keys[place]?

/-- The keys that a request starts with. -/
def start (channel_id : Int) (endpoint : ChannelEndpoint) (identity : Option Nat) (random : Nat) : KeyRotator × KeySelector :=
  let pool := (self.channels channel_id).key_pool endpoint
  self.selector.start channel_id pool identity ⟨random % pool.len, Nat.mod_lt random pool.len_pos⟩

/-- What a caller holds to after a request of it was served. -/
def hold (flight : KeyFlight) : Caller → Option (Nat × Credential) :=
  match flight.identity with
  | none => self.held
  | some id =>
    if flight.rotator.pool.strategy = .sticky then
      Function.update self.held (flight.channel_id, id)
        ((self.key_at flight.channel_id flight.rotator.index).filter (· = flight.rotator.current) |>.map (flight.rotator.index, ·))
    else self.held

/-- A request was served with the key in use. -/
def serve (idx : Nat) (flight : KeyFlight) : KeyDesk :=
  { self with
    selector := flight.rotator.commit self.selector flight.channel_id flight.identity
    flights := self.flights.eraseIdx idx
    held := self.hold flight }

def perform : KeyStep → KeyDesk
  | .start channel_id endpoint identity random =>
    let started := self.start channel_id endpoint identity random
    { self with selector := started.2, flights := self.flights ++ [⟨channel_id, identity, started.1⟩] }
  | .fail flight kind =>
    { self with flights := self.flights.modify flight fun flight => { flight with rotator := (flight.rotator.rotate kind).2 } }
  | .succeed idx =>
    match self.flights[idx]? with
    | none => self
    | some flight => self.serve idx flight
  | .update channel_id channel =>
    { self with
      channels := Function.update self.channels channel_id channel
      held := fun caller =>
        if caller.1 = channel_id then (self.held caller).filter fun held => channel.shared_pool.keys[held.1]? = some held.2
        else self.held caller }

/-- What a caller holds to is kept for it, and stands at its place. -/
def Holds : Prop :=
  ∀ channel_id id place key, self.held (channel_id, id) = some (place, key) →
    self.selector.sticky (channel_id, id) = some place ∧ self.key_at channel_id place = some key

variable {self} {channel_id : Int} {endpoint : ChannelEndpoint} {identity : Option Nat} {random : Nat} {place : Nat} {key : Credential}

theorem sticky_pool {channel : Channel} (hsticky : (channel.key_pool endpoint).strategy = .sticky) :
    channel.key_pool endpoint = channel.shared_pool := by
  refine Channel.key_pool_eq_shared_pool ?_
  cases hpool : channel.key_pool endpoint with
  | single own =>
    rw [hpool] at hsticky
    cases hsticky
  | pool first rest strategy => rfl

theorem lt_of_getElem?_keys {pool : KeyPool} (hkey : pool.keys[place]? = some key) : place < pool.len := by
  obtain ⟨hplace, -⟩ := List.getElem?_eq_some_iff.mp hkey
  exact pool.length_keys ▸ hplace

/-- A place that is kept for a caller is given up only if it lies outside of the pool. -/
theorem sticky_start {other : Caller} (hkept : ∀ place, self.selector.sticky other = some place → other.1 = channel_id →
    ((self.channels channel_id).key_pool endpoint).strategy = .sticky → place < ((self.channels channel_id).key_pool endpoint).len) :
    (self.start channel_id endpoint identity random).2.sticky other = self.selector.sticky other := by
  unfold start KeySelector.start KeySelector.first_index
  dsimp only
  cases hstrategy : ((self.channels channel_id).key_pool endpoint).strategy with
  | random => rfl
  | roundRobin => rfl
  | sticky =>
    cases identity with
    | none => rfl
    | some id =>
      dsimp only
      cases hbound : self.selector.sticky (channel_id, id) with
      | none => rfl
      | some bound =>
        dsimp only
        split
        · rfl
        next houtside =>
          refine Function.update_of_ne ?_ ..
          rintro rfl
          exact houtside (hkept bound hbound rfl hstrategy)

theorem Holds.start (hholds : self.Holds) : (self.perform (.start channel_id endpoint identity random)).Holds := by
  intro other id place key hheld
  obtain ⟨hsticky, hkey⟩ := hholds other id place key hheld
  refine ⟨?_, hkey⟩
  rw [← hsticky]
  refine sticky_start fun bound hbound hsame hstrategy => ?_
  obtain rfl := Option.some.inj (hsticky.symm.trans hbound)
  obtain rfl : other = channel_id := hsame
  rw [sticky_pool hstrategy]
  exact lt_of_getElem?_keys hkey

theorem Holds.serve (hholds : self.Holds) (idx : Nat) (flight : KeyFlight) : (self.serve idx flight).Holds := by
  intro channel_id id place key hheld
  dsimp only [KeyDesk.serve, hold] at hheld
  dsimp only [KeyDesk.serve, KeyRotator.commit]
  cases hidentity : flight.identity with
  | none =>
    rw [hidentity] at hheld
    obtain ⟨hsticky, hkey⟩ := hholds channel_id id place key hheld
    refine ⟨?_, hkey⟩
    split <;> exact hsticky
  | some caller =>
    rw [hidentity] at hheld
    dsimp only at hheld
    by_cases hstrategy : flight.rotator.pool.strategy = .sticky
    · rw [if_pos hstrategy] at hheld ⊢
      by_cases hcaller : (channel_id, id) = (flight.channel_id, caller)
      · rw [hcaller, Function.update_self] at hheld
        obtain ⟨current, hcurrent, hpair⟩ := Option.map_eq_some_iff.mp hheld
        obtain ⟨rfl, rfl⟩ := Prod.mk.inj hpair
        obtain ⟨rfl, rfl⟩ := Prod.mk.inj hcaller
        exact ⟨Function.update_self .., (Option.filter_eq_some_iff.mp hcurrent).1⟩
      · rw [Function.update_of_ne hcaller] at hheld
        obtain ⟨hsticky, hkey⟩ := hholds channel_id id place key hheld
        exact ⟨(Function.update_of_ne hcaller ..).trans hsticky, hkey⟩
    · rw [if_neg hstrategy] at hheld ⊢
      exact hholds channel_id id place key hheld

theorem Holds.update (hholds : self.Holds) (channel : Channel) : (self.perform (.update channel_id channel)).Holds := by
  intro other id place key hheld
  dsimp only [perform] at hheld
  by_cases hother : other = channel_id
  · rw [if_pos hother] at hheld
    obtain ⟨hbefore, hkept⟩ := Option.filter_eq_some_iff.mp hheld
    refine ⟨(hholds other id place key hbefore).1, ?_⟩
    subst hother
    dsimp only [perform, key_at]
    rw [Function.update_self]
    exact of_decide_eq_true hkept
  · rw [if_neg hother] at hheld
    obtain ⟨hsticky, hkey⟩ := hholds other id place key hheld
    refine ⟨hsticky, ?_⟩
    dsimp only [perform, key_at]
    rw [Function.update_of_ne hother]
    exact hkey

theorem Holds.perform (hholds : self.Holds) (step : KeyStep) : (self.perform step).Holds := by
  cases step with
  | start channel_id endpoint identity random => exact hholds.start
  | fail flight kind => exact hholds
  | succeed idx =>
    unfold KeyDesk.perform
    cases hflight : self.flights[idx]? with
    | none => simpa only [hflight] using hholds
    | some flight => simpa only [hflight] using hholds.serve idx flight
  | update channel_id channel => exact hholds.update channel

/-- All that callers hold to stands at its place in every run. -/
theorem holds_run (channels : Int → Channel) (steps : List KeyStep) :
    (steps.foldl KeyDesk.perform { channels }).Holds := by
  have hempty : Holds { channels } := by
    intro channel_id id place key hheld
    cases hheld
  exact (@throughout_of_step KeyDesk KeyStep KeyDesk.perform Holds { channels } steps (fun _ step hholds => hholds.perform step) hempty).finish

theorem start_of_sticky {id : Nat} (hstrategy : ((self.channels channel_id).key_pool endpoint).strategy = .sticky)
    (hsticky : self.selector.sticky (channel_id, id) = some place) :
    if place < ((self.channels channel_id).key_pool endpoint).len then
      (self.start channel_id endpoint (some id) random).1.index = place ∧ (self.start channel_id endpoint (some id) random).2 = self.selector
    else
      (self.start channel_id endpoint (some id) random).1.index =
          self.selector.cursor channel_id % ((self.channels channel_id).key_pool endpoint).len ∧
        (self.start channel_id endpoint (some id) random).2.sticky (channel_id, id) = none := by
  unfold start KeySelector.start KeySelector.first_index
  dsimp only
  rw [hstrategy]
  dsimp only
  rw [hsticky]
  dsimp only
  split
  · exact ⟨rfl, rfl⟩
  · exact ⟨rfl, Function.update_self ..⟩

/-- Failures that are not of the key leave the key in use. -/
theorem after_of_other_failures {rotator : KeyRotator} {kinds : List ErrorKind} (hkinds : ∀ kind ∈ kinds, kind.is_key_failure = false) :
    rotator.after kinds = rotator := by
  induction kinds with
  | nil => rfl
  | cons kind kinds ih =>
    rw [KeyRotator.after, List.foldl_cons, KeyRotator.rotate_of_not_key_failure rotator (hkinds kind (.head _))]
    exact ih fun other hother => hkinds other (.tail _ hother)

/-- A channel whose callers keep to their keys. -/
def sticky_keys (keys : List String) : Channel where
  id := 1
  owner_id := 1
  tags := []
  visibility := .shared
  user_id := none
  credentials := keys.map Credential.mk
  key_strategy := .sticky

/-- A caller is served with the second key after the first one failed, and then the two change
    places. -/
def swapped_keys : List KeyStep :=
  [.start 1 { protocol := .chat } (some 7) 0, .fail 0 .rateLimited, .succeed 0, .update 1 (sticky_keys ["b", "a"])]

end KeyDesk

end refract.router
