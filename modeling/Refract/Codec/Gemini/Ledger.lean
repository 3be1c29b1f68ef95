import Refract.Codec.Gemini.Encoder
import Refract.Machine.Ending
import Mathlib.Logic.Function.Basic

open refract.json refract.machine refract.stream

namespace refract.codec.gemini

def is_tool_start : StreamEvent → Bool
  | .toolCallStart _ _ _ _ => true
  | _ => false

/-- The arguments that arrive for a block until its next call starts. -/
def arguments (index : Nat) : List StreamEvent → String
  | [] => ""
  | .toolCallStart i _ _ _ :: es => if i = index then "" else arguments index es
  | .toolCallArgsDelta i fragment :: es => if i = index then fragment ++ arguments index es else arguments index es
  | _ :: es => arguments index es

/-- Those that arrive before the block is stopped. -/
def early_arguments (index : Nat) : List StreamEvent → String
  | [] => ""
  | .toolCallStart i _ _ _ :: es | .contentStop i :: es => if i = index then "" else early_arguments index es
  | .toolCallArgsDelta i fragment :: es =>
    if i = index then fragment ++ early_arguments index es else early_arguments index es
  | _ :: es => early_arguments index es

/-- The block is stopped before its next call starts. When neither happens, it
    is left to the end of the stream, which reaches the blocks below a bound. -/
def is_stopped (bound index : Nat) : List StreamEvent → Bool
  | [] => index < bound
  | .toolCallStart i _ _ _ :: es => i ≠ index && is_stopped bound index es
  | .contentStop i :: es => i = index || is_stopped bound index es
  | _ :: es => is_stopped bound index es

/-- The block that an event about tool calls names. -/
def tool_block : StreamEvent → Option Nat
  | .toolCallStart index _ _ _ | .toolCallArgsDelta index _ | .contentStop index => some index
  | _ => none

/-- One more than the largest block named. -/
def block_bound (es : List StreamEvent) : Nat :=
  (es.filterMap tool_block).foldl (fun bound index => max bound (index + 1)) 0

/-- What is written of a tool call, with the number of the call it was started
    as. Arguments that no call was started for have none. -/
structure Delivery where
  call : Option Nat
  buf : ToolCallBuf

/-- The calls in progress, by block, with their numbers. -/
structure Ledger where
  started : Nat := 0
  held : Nat → Option Delivery := fun _ => none
  /-- A bound for the blocks in use. -/
  size : Nat := 0

namespace Ledger

def hold (self : Ledger) (index : Nat) (delivery : Option Delivery) : Ledger :=
  { self with held := Function.update self.held index delivery, size := max self.size (index + 1) }

/-- The call in a block, continued by a fragment of its arguments. -/
def continued (delivery : Option Delivery) (fragment : String) : Delivery :=
  match delivery with
  | some d => { d with buf := { d.buf with args := d.buf.args ++ fragment } }
  | none => ⟨none, { args := fragment }⟩

def step (self : Ledger) (event : StreamEvent) : Ledger × List Delivery :=
  match event with
  | .toolCallStart index id name signature =>
    ({ self.hold index (some ⟨some self.started, { id, name, signature }⟩) with started := self.started + 1 }, [])
  | .toolCallArgsDelta index fragment => (self.hold index (some (continued (self.held index) fragment)), [])
  | .contentStop index => (self.hold index none, (self.held index).toList)
  | _ => (self, [])

/-- The blocks that the end of the stream reaches, counted in `u32`. -/
def reach (self : Ledger) : Nat := self.size % 4294967296

end Ledger

/-- The life of every tool call in a stream: it is held by its block until the
    block is stopped or the stream ends, and given up when another call starts
    in its place. -/
def ledger : Transducer Ledger StreamEvent Delivery where
  init := {}
  step := Ledger.step
  finish self := (self, (List.range self.reach).filterMap self.held)

namespace Ledger

variable {n index : Nat}

/-- The deliveries of a call. -/
def deliveries_of (n : Nat) (ds : List Delivery) : List Delivery := ds.filter (·.call == some n)

@[simp] theorem deliveries_of_append (ds more : List Delivery) :
    deliveries_of n (ds ++ more) = deliveries_of n ds ++ deliveries_of n more := List.filter_append ..

@[simp] theorem deliveries_of_nil : deliveries_of n [] = [] := rfl

/-- The calls held are numbered apart, and below the next number. -/
structure Valid (s : Ledger) : Prop where
  old : ∀ i d n, s.held i = some d → d.call = some n → n < s.started
  apart : ∀ i j d d' n, s.held i = some d → s.held j = some d' → d.call = some n → d'.call = some n → i = j

variable {self : Ledger}

theorem ledger_step : ledger.step = Ledger.step := rfl

theorem held_hold (i j : Nat) (delivery : Option Delivery) :
    (self.hold i delivery).held j = if i = j then delivery else self.held j := by
  simp only [Ledger.hold, Function.update_apply, eq_comm]

theorem Valid.init : Valid {} := ⟨by simp, by simp⟩

/-- Clearing a block, or continuing the call in it, keeps the numbers. -/
theorem Valid.hold (h : self.Valid) (i : Nat) {delivery : Option Delivery}
    (hdelivery : ∀ d n, delivery = some d → d.call = some n → ∃ d', self.held i = some d' ∧ d'.call = some n) :
    (self.hold i delivery).Valid where
  old j d n hheld hcall := by
    by_cases hj : j = i
    · subst hj
      obtain ⟨d', hheld', hcall'⟩ := hdelivery d n (by simpa [Ledger.hold] using hheld) hcall
      exact h.old j d' n hheld' hcall'
    · exact h.old j d n (by simpa [Ledger.hold, hj] using hheld) hcall
  apart j k d d' n hj hk hcall hcall' := by
    have hheld (j : Nat) (d : Delivery) (hj : (self.hold i delivery).held j = some d) (hcall : d.call = some n) :
        ∃ d', self.held j = some d' ∧ d'.call = some n := by
      by_cases hji : j = i
      · subst hji
        exact hdelivery d n (by simpa [Ledger.hold] using hj) hcall
      · exact ⟨d, by simpa [Ledger.hold, hji] using hj, hcall⟩
    obtain ⟨d₁, hd₁, hn₁⟩ := hheld j d hj hcall
    obtain ⟨d₂, hd₂, hn₂⟩ := hheld k d' hk hcall'
    exact h.apart j k d₁ d₂ n hd₁ hd₂ hn₁ hn₂

theorem continued_call {delivery : Option Delivery} {fragment : String} {n : Nat}
    (h : (continued delivery fragment).call = some n) : ∃ d, delivery = some d ∧ d.call = some n := by
  cases delivery with
  | none => cases h
  | some d => exact ⟨d, rfl, h⟩

theorem Valid.start (h : self.Valid) (i : Nat) (buf : ToolCallBuf) :
    Valid { self.hold i (some ⟨some self.started, buf⟩) with started := self.started + 1 } where
  old j d n hheld hcall := by
    by_cases hj : j = i
    · subst hj
      have hd : d = ⟨some self.started, buf⟩ := by simpa [Ledger.hold, eq_comm] using hheld
      subst hd
      cases hcall
      exact Nat.lt_succ_self _
    · have hlt := h.old j d n (by simpa [Ledger.hold, hj] using hheld) hcall
      exact Nat.lt_succ_of_lt hlt
  apart j k d d' n hj hk hcall hcall' := by
    have hnew (j : Nat) (d : Delivery)
        (hj : (self.hold i (some ⟨some self.started, buf⟩)).held j = some d) (hcall : d.call = some n) :
        (j = i ∧ n = self.started) ∨ (self.held j = some d ∧ n < self.started) := by
      by_cases hji : j = i
      · subst hji
        have hd : d = ⟨some self.started, buf⟩ := by simpa [Ledger.hold, eq_comm] using hj
        subst hd
        cases hcall
        exact .inl ⟨rfl, rfl⟩
      · have hheld : self.held j = some d := by simpa [Ledger.hold, hji] using hj
        exact .inr ⟨hheld, h.old j d n hheld hcall⟩
    rcases hnew j d hj hcall with ⟨rfl, rfl⟩ | ⟨hd, hn⟩ <;> rcases hnew k d' hk hcall' with ⟨rfl, hn'⟩ | ⟨hd', hn'⟩
    · rfl
    · exact absurd hn' (Nat.lt_irrefl _)
    · omega
    · exact h.apart j k d d' n hd hd' hcall hcall'

theorem Valid.step (h : self.Valid) (event : StreamEvent) : (self.step event).1.Valid := by
  unfold Ledger.step
  split
  · exact h.start _ _
  · apply h.hold
    rintro d n ⟨rfl⟩ hcall
    exact continued_call hcall
  · apply h.hold
    rintro d n ⟨⟩
  · exact h

/-- No block holds the call. -/
def Absent (self : Ledger) (n : Nat) : Prop := ∀ i d, self.held i = some d → d.call ≠ some n

theorem Absent.hold (h : self.Absent n) (i : Nat) {delivery : Option Delivery}
    (hdelivery : ∀ d, delivery = some d → d.call ≠ some n) : (self.hold i delivery).Absent n := by
  intro j d hj
  by_cases hji : j = i
  · subst hji
    exact hdelivery d (by simpa [Ledger.hold] using hj)
  · exact h j d (by simpa [Ledger.hold, hji] using hj)

/-- A call that no block holds any more is never delivered again. -/
theorem Absent.run (h : self.Absent n) (hn : n < self.started) (es : List StreamEvent) :
    deliveries_of n (ledger.emit self es ++ (ledger.finish (ledger.advance self es)).2) = [] := by
  have hstep (s : Ledger) (event : StreamEvent) (hs : s.Absent n ∧ n < s.started) :
      ((s.step event).1.Absent n ∧ n < (s.step event).1.started) ∧ ∀ d ∈ (s.step event).2, (d.call == some n) = false := by
    obtain ⟨habsent, hlt⟩ := hs
    unfold Ledger.step
    split
    · refine ⟨⟨habsent.hold _ ?_, Nat.lt_succ_of_lt hlt⟩, by simp⟩
      rintro d ⟨rfl⟩ hcall
      have heq : s.started = n := by simpa using hcall
      omega
    · refine ⟨⟨habsent.hold _ ?_, hlt⟩, by simp⟩
      rintro d ⟨rfl⟩ hcall
      obtain ⟨d, hheld, hcall⟩ := continued_call hcall
      exact habsent _ d hheld hcall
    · refine ⟨⟨habsent.hold _ (by rintro d ⟨⟩), hlt⟩, ?_⟩
      intro d hd
      simpa using habsent _ d (by simpa using hd)
    · exact ⟨⟨habsent, hlt⟩, by simp⟩
  obtain ⟨⟨hend, _⟩, hquiet⟩ := Transducer.emit_forall (T := ledger) (P := fun s => s.Absent n ∧ n < s.started)
    (Q := fun _ => True) (R := fun d => (d.call == some n) = false) (fun s event hs _ => hstep s event hs)
    ⟨h, hn⟩ es (by simp)
  unfold deliveries_of
  rw [List.filter_eq_nil_iff]
  intro d hd
  rw [Bool.not_eq_true]
  rcases List.mem_append.mp hd with hd | hd
  · exact hquiet d hd
  · obtain ⟨i, _, hheld⟩ := List.mem_filterMap.mp hd
    simpa using hend i d hheld

/-- At the end of a stream a held call is delivered when its block is reached. -/
theorem Valid.finish (h : self.Valid) {d : Delivery} (hheld : self.held index = some d) (hcall : d.call = some n)
    (bound : Nat) :
    deliveries_of n ((List.range bound).filterMap self.held) = if index < bound then [d] else [] := by
  induction bound with
  | zero => simp
  | succ bound ih =>
    rw [List.range_succ, List.filterMap_append, deliveries_of_append, ih]
    by_cases hindex : index = bound
    · subst hindex
      simp [hheld, deliveries_of, hcall]
    · have hlast : deliveries_of n ([bound].filterMap self.held) = [] := by
        cases hother : self.held bound with
        | none => simp [hother]
        | some d' =>
          have hne : d'.call ≠ some n := fun hcall' => hindex (h.apart index bound d d' n hheld hother hcall hcall')
          simpa [hother, deliveries_of] using hne
      rw [hlast, List.append_nil]
      have hiff : index < bound ↔ index < bound + 1 := by omega
      simp only [hiff]

/-- A held call is delivered once, with its early arguments, when its block is
    stopped, and not at all otherwise. -/
theorem Valid.run (h : self.Valid) {buf : ToolCallBuf} (hheld : self.held index = some ⟨some n, buf⟩)
    (es : List StreamEvent) :
    deliveries_of n (ledger.emit self es ++ (ledger.finish (ledger.advance self es)).2) =
      if is_stopped (ledger.advance self es).reach index es then
        [⟨some n, { buf with args := buf.args ++ early_arguments index es }⟩]
      else [] := by
  induction es generalizing self buf with
  | nil =>
    have hfinish := h.finish hheld rfl self.reach
    have hout : ledger.emit self [] ++ (ledger.finish (ledger.advance self [])).2 =
        (List.range self.reach).filterMap self.held := rfl
    rw [hout, hfinish, Transducer.advance_nil, is_stopped, early_arguments, String.append_empty]
    simp only [decide_eq_true_eq]
  | cons e es ih =>
    have hlt := h.old index _ n hheld rfl
    have hvalid := h.step e
    rw [Transducer.emit_cons, Transducer.advance_cons, ledger_step, List.append_assoc, deliveries_of_append]
    -- events about other blocks leave the call in place
    have hother (i : Nat) (delivery : Option Delivery) (hi : i ≠ index) :
        (self.hold i delivery).held index = some ⟨some n, buf⟩ := by
      simpa [Ledger.hold, Ne.symm hi] using hheld
    have hgoes_on (hheld' : (self.step e).1.held index = some ⟨some n, buf⟩)
        (hquiet : deliveries_of n (self.step e).2 = [])
        (hstopped : ∀ bound, is_stopped bound index (e :: es) = is_stopped bound index es)
        (hearly : early_arguments index (e :: es) = early_arguments index es) :
        deliveries_of n (self.step e).2 ++
            deliveries_of n (ledger.emit (self.step e).1 es ++
              (ledger.finish (ledger.advance (self.step e).1 es)).2) =
          if is_stopped (ledger.advance (self.step e).1 es).reach index (e :: es) then
            [⟨some n, { buf with args := buf.args ++ early_arguments index (e :: es) }⟩]
          else [] := by
      rw [hquiet, List.nil_append, ih hvalid hheld', hstopped, hearly]
    cases e with
    | toolCallStart i id name signature =>
      by_cases hi : i = index
      · subst hi
        have habsent : (self.step (.toolCallStart i id name signature)).1.Absent n := by
          intro j d hj hcall
          by_cases hji : j = i
          · subst hji
            have hd : d = ⟨some self.started, { id, name, signature }⟩ := by
              simpa [Ledger.step, Ledger.hold, eq_comm] using hj
            subst hd
            have heq : self.started = n := by simpa using hcall
            omega
          · exact hji (h.apart j i d _ n (by simpa [Ledger.step, Ledger.hold, hji] using hj) hheld hcall rfl)
        rw [habsent.run (Nat.lt_succ_of_lt hlt) es]
        simp [is_stopped, Ledger.step]
      · exact hgoes_on (hother i _ hi) rfl (by simp [is_stopped, hi]) (by simp [early_arguments, hi])
    | toolCallArgsDelta i fragment =>
      by_cases hi : i = index
      · subst hi
        have hheld' : (self.step (.toolCallArgsDelta i fragment)).1.held i =
            some ⟨some n, { buf with args := buf.args ++ fragment }⟩ := by
          simp [Ledger.step, Ledger.hold, hheld, continued]
        have hsilent : deliveries_of n (self.step (.toolCallArgsDelta i fragment)).2 = [] := rfl
        have hearly : early_arguments i (.toolCallArgsDelta i fragment :: es) = fragment ++ early_arguments i es := by
          simp [early_arguments]
        have hstopped (bound : Nat) : is_stopped bound i (.toolCallArgsDelta i fragment :: es) = is_stopped bound i es := by
          simp [is_stopped]
        rw [hsilent, List.nil_append, ih hvalid hheld', hstopped, hearly, String.append_assoc]
      · exact hgoes_on (hother i _ hi) rfl (by simp [is_stopped]) (by simp [early_arguments, hi])
    | contentStop i =>
      by_cases hi : i = index
      · subst hi
        have habsent : (self.step (.contentStop i)).1.Absent n := by
          intro j d hj hcall
          by_cases hji : j = i
          · subst hji
            simp [Ledger.step, Ledger.hold] at hj
          · exact hji (h.apart j i d _ n (by simpa [Ledger.step, Ledger.hold, hji] using hj) hheld hcall rfl)
        rw [habsent.run hlt es]
        simp [is_stopped, early_arguments, Ledger.step, hheld, deliveries_of]
      · have hnone : deliveries_of n (self.step (.contentStop i)).2 = [] := by
          cases hheld' : self.held i with
          | none => simp [Ledger.step, hheld']
          | some d =>
            have hne : d.call ≠ some n := fun hcall => hi (h.apart i index d _ n hheld' hheld hcall rfl)
            simpa [Ledger.step, hheld', deliveries_of] using hne
        exact hgoes_on (hother i none hi) hnone (by simp [is_stopped, hi]) (by simp [early_arguments, hi])
    | _ => exact hgoes_on hheld rfl (fun _ => rfl) rfl

/-- The ledger counts the calls started and the blocks named. -/
theorem advance_init (es : List StreamEvent) :
    (ledger.advance {} es).Valid ∧ (ledger.advance {} es).started = es.countP is_tool_start ∧
      (ledger.advance {} es).size = block_bound es ∧
      ∀ d ∈ ledger.emit {} es, ∀ n, d.call = some n → n < es.countP is_tool_start := by
  let P (es : List StreamEvent) (ds : List Delivery) (s : Ledger) : Prop :=
    s.Valid ∧ s.started = es.countP is_tool_start ∧ s.size = block_bound es ∧
      ∀ d ∈ ds, ∀ n, d.call = some n → n < es.countP is_tool_start
  apply Transducer.history (T := ledger) (P := P)
  · rintro es ds s e ⟨hvalid, hstarted, hsize, hds⟩
    refine ⟨hvalid.step e, ?_, ?_, ?_⟩
    · rw [ledger_step, List.countP_append, ← hstarted]
      cases e <;> simp [Ledger.step, is_tool_start, Ledger.hold]
    · rw [ledger_step, block_bound, List.filterMap_append, List.foldl_append, ← block_bound, ← hsize]
      cases e <;> rfl
    · intro d hd n hn
      rw [List.countP_append]
      rcases List.mem_append.mp hd with hd | hd
      · exact Nat.lt_add_right _ (hds d hd n hn)
      · apply Nat.lt_add_right
        rw [ledger_step] at hd
        unfold Ledger.step at hd
        split at hd
        · cases hd
        · cases hd
        · rw [← hstarted]
          exact hvalid.old _ d n (by simpa using hd) hn
        · cases hd
  · exact ⟨Valid.init, rfl, rfl, by simp⟩

end Ledger

/-- The call of every start is delivered once, with its early arguments, when
    its block is stopped, and not at all otherwise. -/
theorem deliveries_of_start (pre post : List StreamEvent) (index : Nat) (id name : String)
    (signature : Option String) :
    let es := pre ++ .toolCallStart index id name signature :: post
    Ledger.deliveries_of (pre.countP is_tool_start) (ledger.outputs es) =
      if is_stopped (block_bound es % 4294967296) index post then
        [⟨some (pre.countP is_tool_start), { id, name, signature, args := early_arguments index post }⟩]
      else [] := by
  intro es
  obtain ⟨hvalid, hstarted, _, hold⟩ := Ledger.advance_init pre
  obtain ⟨_, _, hsize, _⟩ := Ledger.advance_init es
  have hpre : Ledger.deliveries_of (pre.countP is_tool_start) (ledger.emit {} pre) = [] := by
    unfold Ledger.deliveries_of
    rw [List.filter_eq_nil_iff]
    intro d hd hcall
    have hlt := hold d hd _ (by simpa using hcall)
    omega
  have hinit : ledger.init = {} := rfl
  have hheld : ((ledger.advance {} pre).step (.toolCallStart index id name signature)).1.held index =
      some ⟨some (pre.countP is_tool_start), { id, name, signature }⟩ := by
    simp [Ledger.step, Ledger.hold, hstarted]
  have hrun := (hvalid.step (.toolCallStart index id name signature)).run hheld post
  have hreach : (ledger.advance ((ledger.advance {} pre).step (.toolCallStart index id name signature)).1 post).reach =
      block_bound es % 4294967296 := by
    rw [← hsize, Transducer.advance_append, Transducer.advance_cons, Ledger.ledger_step]
    rfl
  rw [hreach] at hrun
  have hsilent : ((ledger.advance {} pre).step (.toolCallStart index id name signature)).2 = [] := rfl
  rw [Transducer.outputs_append, hinit, Ledger.deliveries_of_append, hpre, List.nil_append, Transducer.emit_cons,
    Transducer.advance_cons, Ledger.ledger_step, hsilent, List.nil_append, hrun, String.empty_append]

end refract.codec.gemini
