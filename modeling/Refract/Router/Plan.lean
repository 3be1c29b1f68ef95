import Refract.Core.Routing

open refract.core

namespace refract.router

/-- An endpoint that can serve a request, with the model it serves. -/
structure Candidate where
  channel : Channel
  endpoint : ChannelEndpoint
  model : ModelEntry
  /-- What the candidate is ordered by. -/
  rank : RankKey

namespace Candidate

variable (self : Candidate)

def channel_id : Int := self.channel.id

def protocol : Protocol := self.endpoint.protocol

def needs_transcode (inbound : Protocol) : Bool := inbound ≠ self.endpoint.protocol

def address : UpstreamAddress := self.channel.effective_address self.endpoint

/-- The model name the upstream is called with. -/
def upstream_model : String := self.model.upstream_name

def proxy : Option String := self.channel.proxy

end Candidate

/-- The candidates of a request, in the order in which they are tried. -/
structure Route where
  inbound : Protocol
  model : String
  attempts : List Candidate
  /-- How many candidates are tried at most. -/
  attempt_cap : Nat
  /-- How many calls are made at most; zero stands for no limit. -/
  max_upstream_calls : Nat
  identity : Option Nat

namespace Route

variable (self : Route) (channel_id : Int)

/-- Moves the first candidate of a channel to the front, if there is one. -/
def pin_channel : Bool × Route :=
  match self.attempts.find? (·.channel_id = channel_id) with
  | none => (false, self)
  | some pinned => (true, { self with attempts := pinned :: self.attempts.eraseP (·.channel_id = channel_id) })

/-- Keeps the first candidate alone. -/
def pinned_only : Route := { self with attempts := self.attempts.take 1, attempt_cap := 1 }

variable {self channel_id}

theorem pin_channel_of_mem (h : ∃ c ∈ self.attempts, c.channel_id = channel_id) :
    ∃ c rest, self.pin_channel channel_id = (true, { self with attempts := c :: rest }) ∧ c.channel_id = channel_id ∧
      (c :: rest).Perm self.attempts := by
  obtain ⟨c, hc, hcandidate⟩ := h
  have hfind : (self.attempts.find? (·.channel_id = channel_id)).isSome = true :=
    List.find?_isSome.mpr ⟨c, hc, decide_eq_true hcandidate⟩
  obtain ⟨pinned, hpinned⟩ := Option.isSome_iff_exists.mp hfind
  obtain ⟨hpinnedId, before, after, hsplit, hbefore⟩ := List.find?_eq_some_iff_append.mp hpinned
  have hid : pinned.channel_id = channel_id := of_decide_eq_true hpinnedId
  have hrest : self.attempts.eraseP (·.channel_id = channel_id) = before ++ after := by
    rw [hsplit, List.eraseP_append_right _ (fun c hc => by simpa using hbefore c hc)]
    simp [hid]
  refine ⟨pinned, before ++ after, by simp only [pin_channel, hpinned, hrest], hid, ?_⟩
  rw [hsplit]
  exact List.perm_middle.symm

theorem pin_channel_of_not_mem (h : ¬ ∃ c ∈ self.attempts, c.channel_id = channel_id) :
    self.pin_channel channel_id = (false, self) := by
  have hfind : self.attempts.find? (·.channel_id = channel_id) = none := by
    rw [List.find?_eq_none]
    intro c hc hid
    exact h ⟨c, hc, of_decide_eq_true hid⟩
  simp only [pin_channel, hfind]

end Route

/-- A candidate's place in a route. -/
abbrev Route.Place (route : Route) := Fin route.attempts.length

def Route.candidate (route : Route) (idx : route.Place) : Candidate := route.attempts.get idx

structure RouterConfig where
  allow_suspended_as_last_resort : Bool := true
  empty_response_retry : EmptyResponseRetryPolicy := {}

/-- The order in which the candidates are tried: suspended ones come last, and
    only then the cap applies. -/
def prioritize (config : RouterConfig) (suspended_until : Int → Protocol → Option Nat) (route : Route) : List route.Place :=
  let is_down := fun idx => (suspended_until (route.candidate idx).channel_id (route.candidate idx).protocol).isSome
  let healthy := (List.finRange route.attempts.length).filter (!is_down ·)
  let suspended := (List.finRange route.attempts.length).filter is_down
  (if config.allow_suspended_as_last_resort then healthy ++ suspended else healthy).take (max route.attempt_cap 1)

/-- The error of a route without candidates. -/
def no_candidates (route : Route) : GatewayError :=
  (GatewayError.new .noAvailableChannel
    ("no channel can serve model `" ++ route.model ++ "` over the " ++ route.inbound.as_str ++ " protocol")).with_protocol
    route.inbound

/-- Counts a call, unless all calls are used up. -/
def check_budget (route : Route) (count : Nat) : Except GatewayError Nat :=
  if 0 < route.max_upstream_calls ∧ route.max_upstream_calls ≤ count then .error .budget_exhausted
  else .ok (min (count + 1) 4294967295)

end refract.router
