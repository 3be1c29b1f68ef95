import Mathlib.Algebra.BigOperators.Group.List.Basic
import Mathlib.Algebra.Order.Ring.Nat
import Refract.Machine.OrderedMap
import Refract.Machine.Interleaving

open refract.machine

namespace refract.gateway

/-- The key of the window that all requests share. -/
def GLOBAL_WINDOW_KEY : Int := 0

def MAX_WINDOWS : Nat := 10000

/-- The largest number of tokens that a window can hold. -/
def MAX_TOKENS : Nat := 18446744073709551615

/-- What was used in a minute. -/
structure RateWindow where
  minute : Nat
  requests : Nat := 0
  tokens : Nat := 0
  deriving DecidableEq, Repr

inductive RateDimension where
  | requests
  | tokens
  deriving DecidableEq, Repr

/-- The limit that a window has reached. A limit that is not positive is none. -/
def RateWindow.exceeded (self : RateWindow) (rpm tpm : Int64) : Option RateDimension :=
  if 0 < rpm.toInt ∧ rpm.toInt ≤ self.requests then some .requests
  else if 0 < tpm.toInt ∧ tpm.toInt ≤ self.tokens then some .tokens
  else none

/-- A refusal, with the seconds that are left of the minute. -/
structure RateExceeded where
  dimension : RateDimension
  retry_after_secs : Nat
  deriving DecidableEq, Repr

theorem RateWindow.exceeded_eq_none {window : RateWindow} {rpm tpm : Int64} :
    window.exceeded rpm tpm = none ↔
      (0 < rpm.toInt → window.requests < rpm.toInt) ∧ (0 < tpm.toInt → window.tokens < tpm.toInt) := by
  unfold exceeded
  split
  · simp
    omega
  · split
    · simp
      omega
    · simp
      omega

variable {κ : Type}

inductive RateOperation where
  | admission (rpm tpm : Int64)
  | add_tokens (tokens : Nat)
  deriving DecidableEq

/-- A call to the limiter, with the second that it read before it got the lock. -/
structure RateCall (κ : Type) where
  key_id : κ
  now : Nat
  operation : RateOperation

namespace RateCall

variable (call : RateCall κ)

def minute : Nat := call.now / 60

/-- The call needs the windows, and has read the clock. -/
def locks : Bool :=
  match call.operation with
  | .admission rpm tpm => 0 < rpm.toInt || 0 < tpm.toInt
  | .add_tokens tokens => tokens ≠ 0

/-- What the call makes of its window, and whether it lets a request in. -/
def charge (window : RateWindow) : Bool × RateWindow :=
  match call.operation with
  | .admission rpm tpm =>
    match window.exceeded rpm tpm with
    | some _ => (false, window)
    | none => (true, { window with requests := window.requests + 1 })
  | .add_tokens tokens => (false, { window with tokens := min (window.tokens + tokens) MAX_TOKENS })

variable (window : RateWindow)

theorem charge_minute : (call.charge window).2.minute = window.minute := by
  obtain ⟨key_id, now, operation⟩ := call
  cases operation with
  | admission rpm tpm =>
    simp only [charge]
    cases window.exceeded rpm tpm <;> rfl
  | add_tokens tokens => rfl

theorem charge_requests : (call.charge window).2.requests = window.requests + (call.charge window).1.toNat := by
  obtain ⟨key_id, now, operation⟩ := call
  cases operation with
  | admission rpm tpm =>
    simp only [charge]
    cases window.exceeded rpm tpm <;> rfl
  | add_tokens tokens => rfl

theorem charge_tokens :
    (call.charge window).2.tokens =
      match call.operation with
      | .admission _ _ => window.tokens
      | .add_tokens tokens => min (window.tokens + tokens) MAX_TOKENS := by
  obtain ⟨key_id, now, operation⟩ := call
  cases operation with
  | admission rpm tpm =>
    simp only [charge]
    cases window.exceeded rpm tpm <;> rfl
  | add_tokens tokens => rfl

end RateCall

/-- The windows by their keys: API keys, or addresses of clients. -/
structure RateLimiter (κ : Type) [LinearOrder κ] where
  windows : SortedMap κ RateWindow := {}

variable [LinearOrder κ]

/-- Windows of other minutes are dropped when there are too many. -/
def prune_stale_windows (windows : SortedMap κ RateWindow) (minute : Nat) : SortedMap κ RateWindow :=
  if MAX_WINDOWS < windows.len then windows.retain (·.2.minute = minute) else windows

/-- The window of a key, begun anew if it is of another minute. -/
def window_at (windows : SortedMap κ RateWindow) (key_id : κ) (minute : Nat) : RateWindow :=
  ((windows.get key_id).filter (·.minute = minute)).getD { minute }

namespace RateLimiter

variable (self : RateLimiter κ) (key_id : κ)

def admit_at (rpm tpm : Int64) (now : Nat) : Except RateExceeded Unit × RateLimiter κ :=
  let minute := now / 60
  let retry_after_secs := 60 - now % 60
  let windows := prune_stale_windows self.windows minute
  let window := window_at windows key_id minute
  match window.exceeded rpm tpm with
  | some dimension => (.error ⟨dimension, retry_after_secs⟩, ⟨windows.insert key_id window⟩)
  | none => (.ok (), ⟨windows.insert key_id { window with requests := window.requests + 1 }⟩)

def admit_now (rpm tpm : Int64) (now : Nat) : Except RateExceeded Unit × RateLimiter κ :=
  if rpm.toInt ≤ 0 ∧ tpm.toInt ≤ 0 then (.ok (), self) else self.admit_at key_id rpm tpm now

def add_tokens_at (tokens now : Nat) : RateLimiter κ :=
  let minute := now / 60
  let windows := prune_stale_windows self.windows minute
  let window := window_at windows key_id minute
  ⟨windows.insert key_id { window with tokens := min (window.tokens + tokens) MAX_TOKENS }⟩

def add_tokens (tokens now : Nat) : RateLimiter κ := if tokens = 0 then self else self.add_tokens_at key_id tokens now

end RateLimiter

/-- The limiter of the addresses, whose windows have no tokens. -/
def IpRateLimiter.admit_now (self : RateLimiter κ) (ip : κ) (rpm : UInt32) (now : Nat) : Except RateExceeded Unit × RateLimiter κ :=
  self.admit_now ip (.ofNat rpm.toNat) 0 now

/-- Whether a call lets a request in, and the limiter after it. -/
def RateLimiter.perform (self : RateLimiter κ) (call : RateCall κ) : Bool × RateLimiter κ :=
  match call.operation with
  | .admission rpm tpm => ((self.admit_now call.key_id rpm tpm call.now).1.isOk, (self.admit_now call.key_id rpm tpm call.now).2)
  | .add_tokens tokens => (false, self.add_tokens call.key_id tokens call.now)

section Windows

variable {windows : SortedMap κ RateWindow} {key_id other : κ} {minute : Nat} {window : RateWindow}

/-- No window of the minute is dropped. -/
@[simp] theorem window_at_prune : window_at (prune_stale_windows windows minute) key_id minute = window_at windows key_id minute := by
  unfold window_at prune_stale_windows
  split
  · rw [SortedMap.get_retain, Option.filter_filter]
    simp
  · rfl

@[simp] theorem window_at_minute : (window_at windows key_id minute).minute = minute := by
  unfold window_at
  cases hfound : (windows.get key_id).filter (·.minute = minute) with
  | none => rfl
  | some window => simpa using (Option.filter_eq_some_iff.mp hfound).2

theorem window_at_eq (hget : windows.get key_id = some window) (hminute : window.minute = minute) :
    window_at windows key_id minute = window := by
  simp [window_at, hget, Option.filter, hminute]

theorem window_at_fresh (hother : ∀ window, windows.get key_id = some window → window.minute ≠ minute) :
    window_at windows key_id minute = { minute } := by
  have hnone : (windows.get key_id).filter (·.minute = minute) = none := by
    cases hget : windows.get key_id with
    | none => rfl
    | some window => simp [Option.filter, hother window hget]
  rw [window_at, hnone, Option.getD_none]

theorem get_of_get_prune (hget : (prune_stale_windows windows minute).get key_id = some window) :
    windows.get key_id = some window := by
  unfold prune_stale_windows at hget
  split at hget
  · rw [SortedMap.get_retain] at hget
    exact (Option.filter_eq_some_iff.mp hget).1
  · exact hget

theorem get_prune_of_minute (hget : windows.get key_id = some window) (hminute : window.minute = minute) :
    (prune_stale_windows windows minute).get key_id = some window := by
  unfold prune_stale_windows
  split
  · simp [hget, Option.filter, hminute]
  · exact hget

end Windows

section Perform

variable {self : RateLimiter κ} {call : RateCall κ}

/-- What a call does that needs the windows. -/
theorem RateLimiter.perform_eq (hlocks : call.locks = true) :
    self.perform call = ((call.charge (window_at self.windows call.key_id call.minute)).1,
      ⟨(prune_stale_windows self.windows call.minute).insert call.key_id
        (call.charge (window_at self.windows call.key_id call.minute)).2⟩) := by
  cases hoperation : call.operation with
  | admission rpm tpm =>
    have hlimited : ¬(rpm.toInt ≤ 0 ∧ tpm.toInt ≤ 0) := by
      simp only [RateCall.locks, hoperation, Bool.or_eq_true, decide_eq_true_eq] at hlocks
      omega
    simp only [perform, RateCall.charge, hoperation, admit_now, if_neg hlimited, admit_at, RateCall.minute, window_at_prune]
    cases (window_at self.windows call.key_id (call.now / 60)).exceeded rpm tpm with
    | some dimension => rfl
    | none => rfl
  | add_tokens tokens =>
    have hsome : tokens ≠ 0 := by simpa [RateCall.locks, hoperation] using hlocks
    simp only [perform, RateCall.charge, hoperation, add_tokens, if_neg hsome, add_tokens_at, RateCall.minute, window_at_prune]

end Perform

/-- A call that got to the windows, and whether it let a request in. -/
structure Charged (κ : Type) where
  call : RateCall κ
  admitted : Bool

namespace Charged

variable (self : Charged κ) (key_id : κ) (minute : Nat)

/-- The requests that the call let in with a key, at a time in a minute. -/
def requests : Nat := if self.call.key_id = key_id ∧ self.call.minute = minute ∧ self.admitted then 1 else 0

/-- The tokens that the call posted. -/
def tokens : Nat :=
  match self.call.operation with
  | .add_tokens tokens => if self.call.key_id = key_id ∧ self.call.minute = minute then tokens else 0
  | .admission _ _ => 0

end Charged

def requests_in (past : List (Charged κ)) (key_id : κ) (minute : Nat) : Nat := (past.map (·.requests key_id minute)).sum

def tokens_in (past : List (Charged κ)) (key_id : κ) (minute : Nat) : Nat := (past.map (·.tokens key_id minute)).sum

/-- A request is let in only below the limits that its call names. -/
def Charged.Within (self : Charged κ) (past : List (Charged κ)) : Prop :=
  ∀ rpm tpm, self.call.operation = .admission rpm tpm → self.admitted = true →
    (0 < rpm.toInt → requests_in past self.call.key_id self.call.minute < rpm.toInt) ∧
      (0 < tpm.toInt → tokens_in past self.call.key_id self.call.minute < tpm.toInt)

/-- Every request was let in within the limits, by what was charged before it. -/
def LimitsKept (past : List (Charged κ)) : Prop := ∀ before charged, before ++ [charged] <+: past → charged.Within before

/-- A limiter, with what its calls came to. -/
structure Metered (κ : Type) [LinearOrder κ] where
  limiter : RateLimiter κ := {}
  /-- In the order in which they got the lock. -/
  past : List (Charged κ) := []
  /-- The minutes of keys whose windows were given up. -/
  closed : List (κ × Nat) := []

namespace Metered

/-- The windows that are there no more. -/
def given_up (before after : SortedMap κ RateWindow) : List (κ × Nat) :=
  (before.entries.filter fun entry => !(after.get entry.1).any (·.minute = entry.2.minute)).map fun entry => (entry.1, entry.2.minute)

variable (self : Metered κ) (call : RateCall κ)

def step : Metered κ :=
  if call.locks then
    { limiter := (self.limiter.perform call).2
      past := self.past ++ [⟨call, (self.limiter.perform call).1⟩]
      closed := self.closed ++ given_up self.limiter.windows (self.limiter.perform call).2.windows }
  else self

/-- The call does not come after its window was given up. -/
def Timely : Prop := call.locks = true → (call.key_id, call.minute) ∉ self.closed

/-- The windows hold what was used, as long as they are there. -/
structure Accounted (state : Metered κ) : Prop where
  counts : ∀ key_id window, state.limiter.windows.get key_id = some window →
    window.requests = requests_in state.past key_id window.minute ∧
      window.tokens = min (tokens_in state.past key_id window.minute) MAX_TOKENS
  blank : ∀ key_id minute, (∀ window, state.limiter.windows.get key_id = some window → window.minute ≠ minute) →
    (key_id, minute) ∉ state.closed → requests_in state.past key_id minute = 0 ∧ tokens_in state.past key_id minute = 0
  kept : LimitsKept state.past

end Metered

section Account

variable {past : List (Charged κ)} {charged : Charged κ} {key_id : κ} {minute : Nat}

@[simp] theorem requests_in_concat :
    requests_in (past ++ [charged]) key_id minute = requests_in past key_id minute + charged.requests key_id minute := by
  simp [requests_in]

@[simp] theorem tokens_in_concat :
    tokens_in (past ++ [charged]) key_id minute = tokens_in past key_id minute + charged.tokens key_id minute := by
  simp [tokens_in]

/-- A call is charged to its own window. -/
theorem Charged.requests_of_ne (hne : ¬(charged.call.key_id = key_id ∧ charged.call.minute = minute)) :
    charged.requests key_id minute = 0 := if_neg fun hsame => hne ⟨hsame.1, hsame.2.1⟩

theorem Charged.tokens_of_ne (hne : ¬(charged.call.key_id = key_id ∧ charged.call.minute = minute)) :
    charged.tokens key_id minute = 0 := by
  unfold Charged.tokens
  split
  · exact if_neg hne
  · rfl

theorem LimitsKept.concat (hkept : LimitsKept past) (hwithin : charged.Within past) : LimitsKept (past ++ [charged]) := by
  intro before last hbegins
  rcases List.prefix_concat_iff.mp hbegins with heq | hbegins
  · obtain ⟨rfl, hlast⟩ := List.append_inj' heq rfl
    obtain rfl := List.singleton_inj.mp hlast
    exact hwithin
  · exact hkept before last hbegins

end Account

namespace Metered

variable {self : Metered κ} {call : RateCall κ}

theorem mem_given_up {before after : SortedMap κ RateWindow} {key_id : κ} {window : RateWindow} (hget : before.get key_id = some window)
    (hgone : ∀ other, after.get key_id = some other → other.minute ≠ window.minute) :
    (key_id, window.minute) ∈ given_up before after := by
  have hmem : (key_id, window) ∈ before.entries := by
    obtain ⟨front, back, hentries, -⟩ := List.lookup_eq_some_iff.mp hget
    simp [hentries]
  refine List.mem_map.mpr ⟨(key_id, window), List.mem_filter.mpr ⟨hmem, ?_⟩, rfl⟩
  cases hafter : after.get key_id with
  | none => rfl
  | some other => simpa using hgone other hafter

/-- The window that a timely call finds, or begins, holds what was used. -/
theorem Accounted.window_at (haccounted : self.Accounted) (htimely : self.Timely call) (hlocks : call.locks = true) :
    (window_at self.limiter.windows call.key_id call.minute).requests = requests_in self.past call.key_id call.minute ∧
      (window_at self.limiter.windows call.key_id call.minute).tokens =
        min (tokens_in self.past call.key_id call.minute) MAX_TOKENS := by
  by_cases hfound : ∃ window, self.limiter.windows.get call.key_id = some window ∧ window.minute = call.minute
  · obtain ⟨window, hget, hminute⟩ := hfound
    rw [window_at_eq hget hminute, ← hminute]
    exact haccounted.counts call.key_id window hget
  · have hother : ∀ window, self.limiter.windows.get call.key_id = some window → window.minute ≠ call.minute :=
      fun window hget hminute => hfound ⟨window, hget, hminute⟩
    obtain ⟨hrequests, htokens⟩ := haccounted.blank call.key_id call.minute hother (htimely hlocks)
    rw [window_at_fresh hother, hrequests, htokens]
    exact ⟨rfl, rfl⟩

theorem Accounted.within (haccounted : self.Accounted) (htimely : self.Timely call) (hlocks : call.locks = true) :
    (⟨call, (self.limiter.perform call).1⟩ : Charged κ).Within self.past := by
  intro rpm tpm hoperation hadmitted
  obtain ⟨hrequests, htokens⟩ := haccounted.window_at htimely hlocks
  have hcall : call.operation = .admission rpm tpm := hoperation
  have hbelow : (gateway.window_at self.limiter.windows call.key_id call.minute).exceeded rpm tpm = none := by
    by_contra hexceeded
    obtain ⟨dimension, hsome⟩ := Option.ne_none_iff_exists'.mp hexceeded
    simp only [RateLimiter.perform_eq hlocks, RateCall.charge, hcall, hsome, Bool.false_eq_true] at hadmitted
  rw [RateWindow.exceeded_eq_none, hrequests, htokens] at hbelow
  refine ⟨hbelow.1, fun hpositive => ?_⟩
  -- A limit is smaller than the largest number of tokens.
  have hlimit := tpm.toInt_lt
  have hmin := hbelow.2 hpositive
  have hposted : (tokens_in self.past call.key_id call.minute : Int) < tpm.toInt := by
    simp only [MAX_TOKENS] at hmin
    omega
  exact hposted

/-- What the windows hold after a call. -/
theorem Accounted.counts_step (haccounted : self.Accounted) (htimely : self.Timely call) (hlocks : call.locks = true)
    {key_id : κ} {window : RateWindow} (hget : (self.limiter.perform call).2.windows.get key_id = some window) :
    window.requests = requests_in (self.past ++ [⟨call, (self.limiter.perform call).1⟩]) key_id window.minute ∧
      window.tokens = min (tokens_in (self.past ++ [⟨call, (self.limiter.perform call).1⟩]) key_id window.minute) MAX_TOKENS := by
  rw [requests_in_concat, tokens_in_concat]
  rw [RateLimiter.perform_eq hlocks] at hget ⊢
  rw [SortedMap.get_insert] at hget
  by_cases hkey : key_id = call.key_id
  · rw [if_pos hkey] at hget
    obtain rfl := Option.some.inj hget
    rw [RateCall.charge_minute, window_at_minute, hkey]
    obtain ⟨hrequests, htokens⟩ := haccounted.window_at htimely hlocks
    rw [RateCall.charge_requests, RateCall.charge_tokens, hrequests, htokens]
    refine ⟨by simp [Charged.requests, Bool.toNat, Bool.cond_eq_ite], ?_⟩
    unfold Charged.tokens
    cases call.operation with
    | admission rpm tpm => rfl
    | add_tokens tokens =>
      have hsum := tokens_in self.past call.key_id call.minute
      simp only [true_and, if_true]
      omega
  · rw [if_neg hkey] at hget
    have hother : ¬(call.key_id = key_id ∧ call.minute = window.minute) := fun hsame => hkey hsame.1.symm
    rw [Charged.requests_of_ne hother, Charged.tokens_of_ne hother]
    exact haccounted.counts key_id window (get_of_get_prune hget)

/-- A minute of a key that has no window was given up, or was not used. -/
theorem Accounted.blank_step (haccounted : self.Accounted) (hlocks : call.locks = true) {key_id : κ} {minute : Nat}
    (hgone : ∀ window, (self.limiter.perform call).2.windows.get key_id = some window → window.minute ≠ minute)
    (hopen : (key_id, minute) ∉ self.closed ++ given_up self.limiter.windows (self.limiter.perform call).2.windows) :
    requests_in (self.past ++ [⟨call, (self.limiter.perform call).1⟩]) key_id minute = 0 ∧
      tokens_in (self.past ++ [⟨call, (self.limiter.perform call).1⟩]) key_id minute = 0 := by
  rw [List.mem_append, not_or] at hopen
  have hbefore : ∀ window, self.limiter.windows.get key_id = some window → window.minute ≠ minute := by
    rintro window hget rfl
    exact hopen.2 (mem_given_up hget hgone)
  have hother : ¬(call.key_id = key_id ∧ call.minute = minute) := by
    rintro ⟨rfl, rfl⟩
    refine hgone (call.charge (gateway.window_at self.limiter.windows call.key_id call.minute)).2 ?_ ?_
    · rw [RateLimiter.perform_eq hlocks, SortedMap.get_insert, if_pos rfl]
    · rw [RateCall.charge_minute, window_at_minute]
  obtain ⟨hrequests, htokens⟩ := haccounted.blank key_id minute hbefore hopen.1
  rw [requests_in_concat, tokens_in_concat, Charged.requests_of_ne hother, Charged.tokens_of_ne hother]
  exact ⟨hrequests, htokens⟩

theorem Accounted.step (haccounted : self.Accounted) (htimely : self.Timely call) : (self.step call).Accounted := by
  unfold Metered.step
  split
  · rename_i hlocks
    exact {
      counts := fun _ _ hget => haccounted.counts_step htimely hlocks hget
      blank := fun _ _ hgone hopen => haccounted.blank_step hlocks hgone hopen
      kept := haccounted.kept.concat (haccounted.within htimely hlocks) }
  · exact haccounted

end Metered

theorem LimitsKept.nil : LimitsKept ([] : List (Charged κ)) := by
  intro before charged hbegins
  simp at hbegins

/-- As long as no call comes after its window was given up, whatever order they get
    the lock in, no request is let in beyond the limits of its minute. -/
theorem limits_kept (calls : List (RateCall κ)) (htimely : Along Metered.step Metered.Timely {} calls) :
    LimitsKept (calls.foldl Metered.step {}).past := by
  have hstart : ({} : Metered κ).Accounted := ⟨fun _ _ hget => (nomatch hget), fun _ _ _ _ => ⟨rfl, rfl⟩, .nil⟩
  exact (htimely.throughout (fun _ _ haccounted htimely => haccounted.step htimely) hstart).finish.kept

namespace Metered

variable {self : Metered κ} {call : RateCall κ}

/-- Nothing was used in a later minute, and no window of this one was given up. -/
structure UpTo (state : Metered κ) (minute : Nat) : Prop where
  windows : ∀ key_id window, state.limiter.windows.get key_id = some window → window.minute ≤ minute
  closed : ∀ key_id closed, (key_id, closed) ∈ state.closed → closed < minute

/-- Only windows of other minutes are given up. -/
theorem given_up_ne (hlocks : call.locks = true) {key_id : κ} {minute : Nat}
    (hgone : (key_id, minute) ∈ given_up self.limiter.windows (self.limiter.perform call).2.windows) :
    minute ≠ call.minute ∧ ∃ window, self.limiter.windows.get key_id = some window ∧ window.minute = minute := by
  obtain ⟨⟨key_id, window⟩, hentry, hsame⟩ := List.mem_map.mp hgone
  obtain ⟨rfl, rfl⟩ := Prod.mk.inj hsame
  obtain ⟨hmem, hafter⟩ := List.mem_filter.mp hentry
  have hget : self.limiter.windows.get key_id = some window := self.limiter.windows.sorted.lookup_of_mem hmem
  refine ⟨fun hminute => ?_, window, hget, rfl⟩
  rw [RateLimiter.perform_eq hlocks, SortedMap.get_insert] at hafter
  by_cases hkey : key_id = call.key_id
  · rw [if_pos hkey] at hafter
    simp [RateCall.charge_minute, ← hminute] at hafter
  · rw [if_neg hkey, get_prune_of_minute hget hminute] at hafter
    simp at hafter

theorem UpTo.step {minute : Nat} (hupto : self.UpTo minute) (hlater : minute ≤ call.minute) : (self.step call).UpTo call.minute := by
  unfold Metered.step
  split
  · rename_i hlocks
    constructor
    · intro key_id window hget
      rw [RateLimiter.perform_eq hlocks, SortedMap.get_insert] at hget
      split at hget
      · obtain rfl := Option.some.inj hget
        rw [RateCall.charge_minute, window_at_minute]
      · exact (hupto.windows key_id window (get_of_get_prune hget)).trans hlater
    · intro key_id closed hclosed
      rcases List.mem_append.mp hclosed with hbefore | hgone
      · exact (hupto.closed key_id closed hbefore).trans_le hlater
      · obtain ⟨hne, window, hget, rfl⟩ := given_up_ne hlocks hgone
        exact lt_of_le_of_ne ((hupto.windows key_id window hget).trans hlater) hne
  · exact ⟨fun key_id window hget => (hupto.windows key_id window hget).trans hlater,
      fun key_id closed hclosed => (hupto.closed key_id closed hclosed).trans_le hlater⟩

end Metered

/-- Calls that get the lock in the order of their minutes are timely. -/
theorem timely_of_ordered (calls : List (RateCall κ)) (hordered : (calls.map (·.minute)).Pairwise (· ≤ ·)) :
    Along Metered.step Metered.Timely {} calls := by
  have hrun : ∀ (calls : List (RateCall κ)) (state : Metered κ) (minute : Nat), state.UpTo minute →
      (calls.map (·.minute)).Pairwise (· ≤ ·) → (∀ call ∈ calls, minute ≤ call.minute) →
      Along Metered.step Metered.Timely state calls := by
    intro calls
    induction calls with
    | nil => intros; trivial
    | cons call calls ih =>
      intro state minute hupto hordered hlater
      have hcall := hlater call (.head calls)
      obtain ⟨hfirst, hordered⟩ := List.pairwise_cons.mp hordered
      refine ⟨fun _ hclosed => ?_, ih _ call.minute (hupto.step hcall) hordered fun later hmem =>
        hfirst later.minute (List.mem_map_of_mem hmem)⟩
      exact absurd (hupto.closed _ _ hclosed) hcall.not_gt
  exact hrun calls {} 0 ⟨fun _ _ hget => (nomatch hget), fun _ _ hclosed => (nomatch hclosed)⟩ hordered fun _ _ => Nat.zero_le _

/-- A request of one key, with one request a minute. -/
def single (now : Nat) : RateCall Int := ⟨1, now, .admission 1 0⟩

/-- The second request of the minute is refused, the first of the next is not. -/
theorem single_kept : LimitsKept ([single 60, single 61, single 120].foldl Metered.step {}).past :=
  limits_kept _ (timely_of_ordered _ (by decide))

/-- A request that was held up since the minute before finds a window begun anew. -/
theorem held_up_not_kept : ¬LimitsKept ([single 60, single 120, single 61].foldl Metered.step {}).past := by
  intro hkept
  have hwithin := hkept [⟨single 60, true⟩, ⟨single 120, true⟩] ⟨single 61, true⟩ List.prefix_rfl 1 0 rfl rfl
  exact absurd (hwithin.1 (by decide)) (by decide)

end refract.gateway
