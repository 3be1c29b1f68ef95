import Mathlib.Data.List.Pairwise
import Refract.Router.Rotation

open refract.core

namespace refract.core.Channel

/-- The keys of the endpoints that have no key of their own. -/
def shared_pool (self : Channel) : KeyPool := self.key_pool { protocol := .chat }

theorem key_pool_cases (self : Channel) (ep : ChannelEndpoint) :
    (∃ own, self.key_pool ep = .single own) ∨ self.key_pool ep = self.shared_pool := by
  unfold shared_pool key_pool
  cases ep.credential.filter (!·.is_empty) with
  | none => exact .inr rfl
  | some own => exact .inl ⟨own, rfl⟩

/-- An endpoint that does not take its key alone takes it from the keys of the channel. -/
theorem key_pool_eq_shared_pool {self : Channel} {ep : ChannelEndpoint} (h : (self.key_pool ep).is_single = false) :
    self.key_pool ep = self.shared_pool := by
  rcases self.key_pool_cases ep with ⟨own, hown⟩ | hshared
  · rw [hown] at h
    cases h
  · exact hshared

theorem strategy_of_key_pool (self : Channel) (ep : ChannelEndpoint) :
    (self.key_pool ep).strategy = .roundRobin ∨ (self.key_pool ep).strategy = self.key_strategy := by
  unfold key_pool
  split
  · exact .inl rfl
  · split
    · split
      · exact .inr rfl
      · exact .inl rfl
    · split
      · exact .inl rfl
      · exact .inr rfl

end refract.core.Channel

namespace refract.router

/-- A request that takes a key for an endpoint of a channel. -/
structure KeyRequest where
  channel : Channel
  endpoint : ChannelEndpoint
  identity : Option Nat
  random : Fin (channel.key_pool endpoint).len

namespace KeyRequest

variable (self : KeyRequest) (selector : KeySelector) (channel_id : Int)

def pool : KeyPool := self.channel.key_pool self.endpoint

def start : KeyRotator × KeySelector := selector.start self.channel.id self.pool self.identity self.random

/-- A request that is served by one of several keys of a channel. -/
def pooled : Bool := self.channel.id = channel_id && !self.pool.is_single

end KeyRequest

namespace KeySelector

variable (channel_id : Int)

/-- The places at which the requests start that are served by one of several keys of a channel. -/
def pool_starts : KeySelector → List KeyRequest → List Nat
  | _, [] => []
  | selector, request :: requests =>
    let started := request.start selector
    if request.pooled channel_id then started.1.index :: pool_starts started.2 requests else pool_starts started.2 requests

/-- How many requests of a channel stand before each one that is served by one of several keys. -/
def preceding : Nat → List KeyRequest → List Nat
  | _, [] => []
  | count, request :: requests =>
    if request.channel.id = channel_id then
      if request.pooled channel_id then count :: preceding (count + 1) requests else preceding (count + 1) requests
    else preceding count requests

def cursor (self : KeySelector) : Nat := (self.cursors channel_id).getD 0

variable {channel_id} {self : KeySelector} {channel : Channel} {request : KeyRequest} {requests : List KeyRequest}

theorem preceding_succ (count : Nat) : preceding channel_id (count + 1) requests = (preceding channel_id count requests).map (· + 1) := by
  induction requests generalizing count with
  | nil => rfl
  | cons request requests ih =>
    unfold preceding
    by_cases hown : request.channel.id = channel_id
    · rw [if_pos hown, if_pos hown]
      split
      · rw [List.map_cons, ih]
      · exact ih _
    · rw [if_neg hown, if_neg hown]
      exact ih _

/-- In turn, every request of a channel moves its cursor on. -/
theorem start_of_channel (hstrategy : request.pool.strategy = .roundRobin) :
    (request.start self).1.index = self.cursor request.channel.id % request.pool.len ∧
      (request.start self).2.cursor request.channel.id = (self.cursor request.channel.id + 1) % 18446744073709551616 := by
  have hfirst : self.first_index request.channel.id request.pool request.identity request.random =
      self.next_cursor request.channel.id request.pool.len := by
    unfold first_index
    rw [hstrategy]
  unfold KeyRequest.start KeySelector.start
  rw [hfirst]
  refine ⟨rfl, ?_⟩
  simp [next_cursor, cursor]

/-- Other channels have cursors of their own. -/
theorem cursor_of_other_channel (hother : request.channel.id ≠ channel_id) : (request.start self).2.cursor channel_id = self.cursor channel_id := by
  have hcursor : ∀ selector : KeySelector, (selector.next_cursor request.channel.id request.pool.len).2.cursor channel_id = selector.cursor channel_id := by
    intro selector
    exact congrArg (Option.getD · 0) (Function.update_of_ne hother.symm ..)
  unfold KeyRequest.start KeySelector.start first_index
  cases request.pool.strategy with
  | random => rfl
  | roundRobin => exact hcursor self
  | sticky =>
    cases request.identity with
    | none => exact hcursor self
    | some id =>
      dsimp only
      split
      · exact hcursor self
      · split
        · rfl
        · exact hcursor _

/-- The places at which the requests start, by the number of requests before them. -/
theorem pool_starts_eq (hstrategy : channel.key_strategy = .roundRobin)
    (hsame : ∀ request ∈ requests, request.channel.id = channel.id → request.channel = channel)
    (hcursor : self.cursor channel.id < 18446744073709551616) :
    pool_starts channel.id self requests =
      (preceding channel.id 0 requests).map fun count =>
        (self.cursor channel.id + count) % 18446744073709551616 % channel.shared_pool.len := by
  induction requests generalizing self with
  | nil => rfl
  | cons request requests ih =>
    have hlater := fun other hother => hsame other (List.mem_cons_of_mem request hother)
    have hshift : ∀ count, ((self.cursor channel.id + 1) % 18446744073709551616 + count) % 18446744073709551616 =
        (self.cursor channel.id + (count + 1)) % 18446744073709551616 := by
      intro count
      rw [Nat.mod_add_mod]
      congr 1
      omega
    unfold pool_starts preceding
    dsimp only
    by_cases hown : request.channel.id = channel.id
    · have hchannel := hsame request (.head _) hown
      have hturn : request.pool.strategy = .roundRobin := by
        rcases request.channel.strategy_of_key_pool request.endpoint with hturn | hturn
        · exact hturn
        · rw [KeyRequest.pool, hturn, hchannel, hstrategy]
      obtain ⟨hindex, hmoved⟩ := @start_of_channel self request hturn
      rw [hchannel] at hindex hmoved
      have hrest := @ih (request.start self).2 hlater (by rw [hmoved]; exact Nat.mod_lt _ (by decide))
      rw [if_pos hown, preceding_succ, hrest, hmoved, hindex]
      simp only [hshift]
      split
      next hpooled =>
        have hpool : request.pool = channel.shared_pool := by
          rw [KeyRequest.pooled, hown] at hpooled
          have hmany : request.pool.is_single = false := by simpa using hpooled
          rw [← hchannel]
          exact Channel.key_pool_eq_shared_pool hmany
        rw [hpool, List.map_cons, Nat.add_zero, Nat.mod_eq_of_lt hcursor, List.map_map]
        rfl
      · rw [List.map_map]
        rfl
    · have hpooled : request.pooled channel.id = false := by simp [KeyRequest.pooled, hown]
      have hkept := @cursor_of_other_channel channel.id self request hown
      rw [if_neg hown, hpooled, ← hkept]
      exact ih hlater (by rw [hkept]; exact hcursor)

/-- Requests start at different places if the number of requests of the channel from one up to the
    other, which counts the requests of endpoints with a key of their own as well, is no multiple of
    the number of keys. Where the cursor is full, it starts again from zero. -/
theorem pool_starts_differ_iff (hstrategy : channel.key_strategy = .roundRobin)
    (hsame : ∀ request ∈ requests, request.channel.id = channel.id → request.channel = channel)
    (hcursor : self.cursor channel.id < 18446744073709551616) :
    (pool_starts channel.id self requests).Nodup ↔
      (preceding channel.id 0 requests).Pairwise fun a b =>
        ¬ (self.cursor channel.id + a) % 18446744073709551616 ≡ (self.cursor channel.id + b) % 18446744073709551616
          [MOD channel.shared_pool.len] := by
  rw [pool_starts_eq hstrategy hsame hcursor]
  exact List.pairwise_map

/-- A channel of two keys, with an endpoint that has a key of its own. -/
def two_keys : Channel where
  id := 1
  owner_id := 1
  tags := []
  visibility := .shared
  user_id := none
  credential := ⟨"a"⟩
  credentials := [⟨"b"⟩]
  endpoints := [{ protocol := .chat }, { protocol := .messages, credential := some ⟨"c"⟩ }]

def shared_request : KeyRequest := ⟨two_keys, { protocol := .chat }, none, ⟨0, KeyPool.len_pos _⟩⟩

def own_request : KeyRequest := ⟨two_keys, { protocol := .messages, credential := some ⟨"c"⟩ }, none, ⟨0, KeyPool.len_pos _⟩⟩

theorem pool_starts_differ_iff_of_two_keys :
    (pool_starts 1 {} [shared_request, shared_request, own_request]).Nodup ↔
      (preceding 1 0 [shared_request, shared_request, own_request]).Pairwise fun a b =>
        ¬ (cursor 1 {} + a) % 18446744073709551616 ≡ (cursor 1 {} + b) % 18446744073709551616 [MOD two_keys.shared_pool.len] := by
  have hsame : ∀ request ∈ [shared_request, shared_request, own_request], request.channel.id = two_keys.id → request.channel = two_keys := by
    simp [shared_request, own_request]
  exact @pool_starts_differ_iff {} two_keys _ rfl hsame (by decide)

/-- A request for the endpoint with a key of its own makes the next request start with the key
    that served last. -/
theorem shared_requests_start_alike :
    two_keys.shared_pool.len = 2 ∧ (pool_starts 1 {} [shared_request, own_request, shared_request]).length = 2 ∧
      ¬ (pool_starts 1 {} [shared_request, own_request, shared_request]).Nodup := by
  have hstarts : pool_starts 1 {} [shared_request, own_request, shared_request] = [0, 0] := rfl
  refine ⟨rfl, rfl, ?_⟩
  rw [hstarts]
  decide

end KeySelector

end refract.router
