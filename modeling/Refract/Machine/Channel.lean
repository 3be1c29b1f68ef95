import Mathlib.Data.List.Basic
import Mathlib.Logic.Relation
import Mathlib.Order.WellFounded
import Mathlib.Tactic.Common

namespace refract.machine

/-- What a task that writes to a channel does next. A send names the task after
    it was accepted, and the task after the receiver turned out to be gone. -/
inductive Next (ρ α : Type) where
  | send (item : α) (sent refused : ρ)
  | run (next : ρ)
  | halt

namespace Next

variable {ρ α : Type}

def halts : Next ρ α → Bool
  | .halt => true
  | _ => false

/-- What a step puts on the channel. -/
def writes : Next ρ α → List α
  | .send item _ _ => [item]
  | .run _ | .halt => []

/-- The tasks that may follow while the receiver is there. -/
def Leads (r : ρ) : Next ρ α → Prop
  | .send _ sent _ => r = sent
  | .run next => r = next
  | .halt => False

theorem leads_send {item : α} {r sent refused : ρ} : (send item sent refused).Leads r ↔ r = sent := Iff.rfl

theorem leads_run {r next : ρ} : (run next : Next ρ α).Leads r ↔ r = next := Iff.rfl

end Next

/-- A bounded channel, seen from its receiving end. -/
structure Channel (α : Type) (capacity : Nat) where
  queue : List α
  connected : Bool
  bounded : queue.length ≤ capacity

namespace Channel

variable {α : Type} {capacity : Nat}

def empty : Channel α capacity := ⟨[], true, Nat.zero_le _⟩

def push (c : Channel α capacity) (item : α) (h : c.queue.length < capacity) : Channel α capacity where
  queue := c.queue ++ [item]
  connected := c.connected
  bounded := by simpa using Nat.succ_le_of_lt h

/-- The receiver is dropped, with all it has not read. -/
def close (_ : Channel α capacity) : Channel α capacity := ⟨[], false, Nat.zero_le _⟩

/-- The oldest item, and the channel without it. -/
def recv : Channel α capacity → Option (α × Channel α capacity)
  | ⟨[], _, _⟩ => none
  | ⟨item :: queue, connected, h⟩ => some (item, ⟨queue, connected, Nat.le_of_succ_le h⟩)

/-- One step of a task. A send waits while the channel is full and fails once
    the receiver is gone. -/
def serve {ρ : Type} (c : Channel α capacity) : Next ρ α → Option (ρ × Channel α capacity)
  | .send item sent refused =>
    if c.connected then
      if h : c.queue.length < capacity then some (sent, c.push item h) else none
    else some (refused, c)
  | .run next => some (next, c)
  | .halt => none

@[simp] theorem push_connected (c : Channel α capacity) (item : α) (h : c.queue.length < capacity) :
    (c.push item h).connected = c.connected := rfl

@[simp] theorem push_queue (c : Channel α capacity) (item : α) (h : c.queue.length < capacity) :
    (c.push item h).queue = c.queue ++ [item] := rfl

@[simp] theorem close_connected (c : Channel α capacity) : c.close.connected = false := rfl

variable {ρ : Type} {c c' : Channel α capacity} {n : Next ρ α} {r : ρ}

/-- A step of a task leaves the receiver where it is. -/
theorem serve_connected (hserve : c.serve n = some (r, c')) : c'.connected = c.connected := by
  cases n with
  | send item sent refused =>
    simp only [serve] at hserve
    split at hserve
    · split at hserve
      · obtain ⟨rfl, rfl⟩ := Prod.mk.inj (Option.some.inj hserve)
        rfl
      · cases hserve
    · obtain ⟨rfl, rfl⟩ := Prod.mk.inj (Option.some.inj hserve)
      rfl
  | run next =>
    obtain ⟨rfl, rfl⟩ := Prod.mk.inj (Option.some.inj hserve)
    rfl
  | halt => cases hserve

/-- While the receiver is there, no send is refused. -/
theorem serve_leads (hconnected : c.connected) (hserve : c.serve n = some (r, c')) :
    n.Leads r ∧ c'.queue = c.queue ++ n.writes := by
  cases n with
  | send item sent refused =>
    rw [serve, if_pos hconnected] at hserve
    split at hserve
    · obtain ⟨rfl, rfl⟩ := Prod.mk.inj (Option.some.inj hserve)
      exact ⟨rfl, rfl⟩
    · cases hserve
  | run next =>
    obtain ⟨rfl, rfl⟩ := Prod.mk.inj (Option.some.inj hserve)
    exact ⟨rfl, (List.append_nil _).symm⟩
  | halt => cases hserve

/-- Once the receiver is gone, no step changes the channel. -/
theorem serve_refused (hgone : c.connected = false) (hserve : c.serve n = some (r, c')) : c' = c := by
  cases n with
  | send item sent refused =>
    rw [serve, hgone] at hserve
    exact (Prod.mk.inj (Option.some.inj hserve)).2.symm
  | run next => exact (Prod.mk.inj (Option.some.inj hserve)).2.symm
  | halt => cases hserve

theorem recv_connected {item : α} (hrecv : c.recv = some (item, c')) :
    c'.connected = c.connected ∧ c.queue = item :: c'.queue := by
  obtain ⟨queue, connected, h⟩ := c
  cases queue with
  | nil => cases hrecv
  | cons x queue =>
    obtain ⟨rfl, rfl⟩ := Prod.mk.inj (Option.some.inj hrecv)
    exact ⟨rfl, rfl⟩

end Channel

/-- Two tasks that write to one channel, and what its receiver has read. -/
structure Shared (ρ κ α : Type) (capacity : Nat) where
  left : ρ
  right : κ
  channel : Channel α capacity
  delivered : List α

/-- The code of two tasks that share a channel. -/
structure Tasks (ρ κ α : Type) where
  left : ρ → Next ρ α
  right : κ → Next κ α

/-- Who moves. -/
inductive Mover where
  | left
  | right
  | receive
  | disconnect
  deriving DecidableEq, Repr

namespace Tasks

variable {ρ κ α : Type} {capacity : Nat} (T : Tasks ρ κ α)

/-- One move, where it is possible. -/
def move (s : Shared ρ κ α capacity) : Mover → Option (Shared ρ κ α capacity)
  | .left => (s.channel.serve (T.left s.left)).map fun (left, channel) => { s with left, channel }
  | .right => (s.channel.serve (T.right s.right)).map fun (right, channel) => { s with right, channel }
  | .receive =>
    s.channel.recv.map fun (item, channel) => { s with channel, delivered := s.delivered ++ [item] }
  | .disconnect => some { s with channel := s.channel.close }

def Step (s t : Shared ρ κ α capacity) : Prop := ∃ mover, T.move s mover = some t

/-- Any interleaving of the tasks and the receiver. -/
def Run : Shared ρ κ α capacity → Shared ρ κ α capacity → Prop := Relation.ReflTransGen T.Step

/-- How many ends of the channel can still write to it. -/
def senders (s : Shared ρ κ α capacity) : Nat :=
  (if (T.left s.left).halts then 0 else 1) + (if (T.right s.right).halts then 0 else 1)

/-- All that was ever put on the channel and not refused, in order. -/
def accepted (s : Shared ρ κ α capacity) : List α := s.delivered ++ s.channel.queue

variable {T} {s t : Shared ρ κ α capacity}

/-- All that one move can do, seen while the receiver stays. -/
theorem step_cases (hstep : T.Step s t) (hconnected : t.channel.connected) :
    s.channel.connected ∧
      (((T.left s.left).Leads t.left ∧ t.right = s.right ∧ accepted t = accepted s ++ (T.left s.left).writes) ∨
        ((T.right s.right).Leads t.right ∧ t.left = s.left ∧ accepted t = accepted s ++ (T.right s.right).writes) ∨
          (t.left = s.left ∧ t.right = s.right ∧ accepted t = accepted s)) := by
  obtain ⟨mover, hmove⟩ := hstep
  cases mover with
  | left =>
    obtain ⟨⟨left, channel⟩, hserve, rfl⟩ := Option.map_eq_some_iff.mp hmove
    have hs : s.channel.connected := Channel.serve_connected hserve ▸ hconnected
    obtain ⟨hleads, hqueue⟩ := Channel.serve_leads hs hserve
    exact ⟨hs, .inl ⟨hleads, rfl, by rw [accepted, accepted, hqueue, List.append_assoc]⟩⟩
  | right =>
    obtain ⟨⟨right, channel⟩, hserve, rfl⟩ := Option.map_eq_some_iff.mp hmove
    have hs : s.channel.connected := Channel.serve_connected hserve ▸ hconnected
    obtain ⟨hleads, hqueue⟩ := Channel.serve_leads hs hserve
    exact ⟨hs, .inr (.inl ⟨hleads, rfl, by rw [accepted, accepted, hqueue, List.append_assoc]⟩)⟩
  | receive =>
    obtain ⟨⟨item, channel⟩, hrecv, rfl⟩ := Option.map_eq_some_iff.mp hmove
    obtain ⟨hs, hqueue⟩ := Channel.recv_connected hrecv
    exact ⟨hs ▸ hconnected, .inr (.inr ⟨rfl, rfl, by rw [accepted, accepted, hqueue, List.append_assoc, List.singleton_append]⟩)⟩
  | disconnect =>
    obtain rfl := Option.some.inj hmove
    cases hconnected

/-- What the right task keeps at every step of its own holds for as long as the
    receiver stays. -/
theorem right_invariant {P : κ → Prop} (hleads : ∀ k k', P k → (T.right k).Leads k' → P k')
    (hrun : T.Run s t) (hconnected : t.channel.connected) (hs : P s.right) : P t.right := by
  induction hrun with
  | refl => exact hs
  | tail _ hstep ih =>
    obtain ⟨hbefore, ⟨-, hsame, -⟩ | ⟨hright, -, -⟩ | ⟨-, hsame, -⟩⟩ := step_cases hstep hconnected
    · rw [hsame]
      exact ih hbefore
    · exact hleads _ _ (ih hbefore) hright
    · rw [hsame]
      exact ih hbefore

/-- What the left task has yet to write, and what it has written, make up the
    same list at all times, where the items of the right task are told apart. -/
theorem left_conserved {p : α → Bool} (rest : ρ → List α)
    (hleft : ∀ r r', (T.left r).Leads r' → rest r = (T.left r).writes.filter p ++ rest r')
    (hright : ∀ k, (T.right k).writes.filter p = []) (hrun : T.Run s t) (hconnected : t.channel.connected) :
    (accepted t).filter p ++ rest t.left = (accepted s).filter p ++ rest s.left := by
  induction hrun with
  | refl => rfl
  | tail _ hstep ih =>
    obtain ⟨hbefore, ⟨hleads, -, hwritten⟩ | ⟨-, hsame, hwritten⟩ | ⟨hsame, -, hwritten⟩⟩ := step_cases hstep hconnected
    · rw [hwritten, List.filter_append, List.append_assoc, ← hleft _ _ hleads]
      exact ih hbefore
    · rw [hwritten, hsame, List.filter_append, hright, List.append_nil]
      exact ih hbefore
    · rw [hwritten, hsame]
      exact ih hbefore

/-- What every step of the left task keeps the same stays the same. -/
theorem left_constant {β : Type} {f : ρ → β} (hleft : ∀ r r', (T.left r).Leads r' → f r' = f r) (hrun : T.Run s t)
    (hconnected : t.channel.connected) : f t.left = f s.left := by
  induction hrun with
  | refl => rfl
  | tail _ hstep ih =>
    obtain ⟨hbefore, ⟨hleads, -, -⟩ | ⟨-, hsame, -⟩ | ⟨hsame, -, -⟩⟩ := step_cases hstep hconnected
    · exact (hleft _ _ hleads).trans (ih hbefore)
    · rw [hsame]
      exact ih hbefore
    · rw [hsame]
      exact ih hbefore

/-- Nothing is received from a channel once its receiver is gone. -/
theorem step_gone (hstep : T.Step s t) (hgone : t.channel.connected = false)
    (hempty : s.channel.connected = false → s.channel.queue = []) : t.channel.queue = [] ∧ t.delivered = s.delivered := by
  obtain ⟨mover, hmove⟩ := hstep
  cases mover with
  | left =>
    obtain ⟨⟨left, channel⟩, hserve, rfl⟩ := Option.map_eq_some_iff.mp hmove
    have hs : s.channel.connected = false := Channel.serve_connected hserve ▸ hgone
    obtain rfl := Channel.serve_refused hs hserve
    exact ⟨hempty hs, rfl⟩
  | right =>
    obtain ⟨⟨right, channel⟩, hserve, rfl⟩ := Option.map_eq_some_iff.mp hmove
    have hs : s.channel.connected = false := Channel.serve_connected hserve ▸ hgone
    obtain rfl := Channel.serve_refused hs hserve
    exact ⟨hempty hs, rfl⟩
  | receive =>
    obtain ⟨⟨item, channel⟩, hrecv, rfl⟩ := Option.map_eq_some_iff.mp hmove
    obtain ⟨hs, hqueue⟩ := Channel.recv_connected hrecv
    rw [hempty (hs ▸ hgone)] at hqueue
    cases hqueue
  | disconnect =>
    obtain rfl := Option.some.inj hmove
    exact ⟨rfl, rfl⟩

/-- Whether the receiver stays or not, it receives what the left task had to write, from the
    first item on. -/
theorem delivered_prefix (rest : ρ → List α) (hleft : ∀ r r', (T.left r).Leads r' → rest r = (T.left r).writes ++ rest r')
    (hright : ∀ k, (T.right k).writes = []) (hconnected : s.channel.connected) (hrun : T.Run s t) :
    t.delivered <+: accepted s ++ rest s.left ∧ (t.channel.connected = false → t.channel.queue = []) := by
  have hstays : ∀ {t}, T.Run s t → t.channel.connected → accepted t ++ rest t.left = accepted s ++ rest s.left := by
    intro t hrun hconnected
    simpa using left_conserved (p := fun _ => true) rest (by simpa using hleft) (by simpa using hright) hrun hconnected
  induction hrun with
  | refl => exact ⟨⟨s.channel.queue ++ rest s.left, by rw [accepted, List.append_assoc]⟩, fun hgone => nomatch hconnected.symm.trans hgone⟩
  | @tail u t hbefore hstep ih =>
    cases ht : t.channel.connected with
    | true =>
      rw [← hstays (hbefore.tail hstep) ht]
      exact ⟨⟨t.channel.queue ++ rest t.left, by rw [accepted, List.append_assoc]⟩, nofun⟩
    | false =>
      obtain ⟨hqueue, hdelivered⟩ := step_gone hstep ht ih.2
      exact ⟨hdelivered ▸ ih.1, fun _ => hqueue⟩

theorem Run.of_move {mover : Mover} (hmove : T.move s mover = some t) : T.Run s t :=
  Relation.ReflTransGen.single ⟨mover, hmove⟩

/-- The receiver can always read all that is queued. -/
theorem exists_drained (s : Shared ρ κ α capacity) : ∃ t, T.Run s t ∧ t.left = s.left ∧ t.right = s.right ∧
    t.channel.connected = s.channel.connected ∧ t.channel.queue = [] ∧
      t.delivered = s.delivered ++ s.channel.queue := by
  obtain ⟨left, right, ⟨queue, connected, h⟩, delivered⟩ := s
  induction queue generalizing delivered with
  | nil => exact ⟨_, .refl, rfl, rfl, rfl, rfl, (List.append_nil _).symm⟩
  | cons item queue ih =>
    obtain ⟨t, hrun, hleft, hright, hconnected, hqueue, hdelivered⟩ :=
      ih (delivered ++ [item]) (Nat.le_of_succ_le h)
    refine ⟨t, .head ⟨.receive, rfl⟩ hrun, hleft, hright, hconnected, hqueue, ?_⟩
    rw [hdelivered, List.append_assoc, List.singleton_append]

section Progress

variable (hcapacity : 0 < capacity)

include hcapacity

/-- What the right task wants to send can be delivered, after all that is queued. -/
theorem exists_delivered {item : α} {sent refused : κ} (hconnected : s.channel.connected)
    (hnext : T.right s.right = .send item sent refused) :
    ∃ t, T.Run s t ∧ t.left = s.left ∧ t.channel.connected ∧
      t.delivered = s.delivered ++ s.channel.queue ++ [item] := by
  obtain ⟨u, hdrain, hleft, hright, hu, hqueue, hdelivered⟩ := exists_drained (T := T) s
  have hroom : u.channel.queue.length < capacity := by
    rw [hqueue]
    exact hcapacity
  have hsend : T.move u .right = some { u with right := sent, channel := u.channel.push item hroom } := by
    simp only [move, hright, hnext, Channel.serve, hu, hconnected, hroom, if_true, dif_pos, Option.map_some]
  obtain ⟨t, hread, hleft', -, ht, -, hdelivered'⟩ :=
    exists_drained (T := T) { u with right := sent, channel := u.channel.push item hroom }
  refine ⟨t, (hdrain.trans (Run.of_move hsend)).trans hread, hleft'.trans hleft, ?_, ?_⟩
  · rw [ht, Channel.push_connected, hu, hconnected]
  · rw [hdelivered', Channel.push_queue, hqueue, hdelivered, List.nil_append]

/-- The left task can always take its next step, once the receiver has made room. -/
theorem exists_left_step (hconnected : s.channel.connected) (hnext : (T.left s.left).halts = false) :
    ∃ t, T.Run s t ∧ t.channel.connected ∧ (T.left s.left).Leads t.left := by
  obtain ⟨u, hdrain, hleft, hright, hu, hqueue, hdelivered⟩ := exists_drained (T := T) s
  have hroom : u.channel.queue.length < capacity := by
    rw [hqueue]
    exact hcapacity
  rw [hconnected] at hu
  cases hstep : T.left s.left with
  | send item sent refused =>
    have hsend : T.move u .left = some { u with left := sent, channel := u.channel.push item hroom } := by
      simp only [move, hleft, hstep, Channel.serve, hu, hroom, if_true, dif_pos, Option.map_some]
    exact ⟨_, hdrain.trans (Run.of_move hsend), hu, rfl⟩
  | run next =>
    have hrun : T.move u .left = some { u with left := next } := by
      simp only [move, hleft, hstep, Channel.serve, Option.map_some]
    exact ⟨_, hdrain.trans (Run.of_move hrun), hu, rfl⟩
  | halt =>
    rw [hstep] at hnext
    cases hnext

/-- A left task with a measure that each of its steps lowers halts in some run
    whose receiver stays. -/
theorem exists_left_halts {ω : Type} [Preorder ω] [WellFoundedLT ω] {weight : ρ → ω}
    (hweight : ∀ r r', (T.left r).Leads r' → weight r' < weight r) (hconnected : s.channel.connected) :
    ∃ t, T.Run s t ∧ t.channel.connected ∧ (T.left t.left).halts := by
  induction hw : weight s.left using WellFoundedLT.induction generalizing s with
  | ind w ih =>
    by_cases hhalts : (T.left s.left).halts
    · exact ⟨s, .refl, hconnected, hhalts⟩
    · obtain ⟨u, hrun, hu, hleads⟩ := exists_left_step (T := T) hcapacity hconnected (by simpa using hhalts)
      obtain ⟨t, hrest, ht, hhalts⟩ := ih (weight u.left) (hw ▸ hweight _ _ hleads) hu rfl
      exact ⟨t, hrun.trans hrest, ht, hhalts⟩

end Progress

end Tasks

end refract.machine
