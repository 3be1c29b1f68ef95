import Refract.Codec.Usage
import Refract.Gateway.Billing

open refract.core refract.codec refract.ir refract.json refract.machine refract.store

namespace refract.gateway

/-- The cast `as i64`. -/
def as_i64 (n : U64) : Int := if n.val < 9223372036854775808 then n.val else n.val - 18446744073709551616

/-- A number in the database. Integer arithmetic that leaves the range of an
    `i64` goes on in floating point, whose rounding is not modelled. -/
inductive SqlNumber where
  | integer (value : Int)
  | real (value : Int)
  deriving DecidableEq, Repr

namespace SqlNumber

def value : SqlNumber → Int
  | .integer value | .real value => value

/-- `column + ?` -/
def add : SqlNumber → Int → SqlNumber
  | .integer value, n =>
    if -9223372036854775808 ≤ value + n ∧ value + n < 9223372036854775808 then .integer (value + n)
    else .real (value + n)
  | .real value, n => .real (value + n)

theorem value_add (column : SqlNumber) (n : Int) : (column.add n).value = column.value + n := by
  cases column with
  | integer value =>
    simp only [add]
    split <;> rfl
  | real value => rfl

end SqlNumber

/-- The token window of a key. -/
structure Window where
  minute : Nat
  tokens : U64
  deriving DecidableEq, Repr

/-- What is kept of the use of a key. -/
structure KeyUsage where
  used_quota : SqlNumber
  used_budget : ℚ
  window : Option Window

/-- A request to settle: the usage objects that its upstream reported, and the
    row of the price table that its model matches. -/
structure Settled where
  upstream : Protocol
  reports : List Value
  price : Option ModelPrice
  minute : Nat

/-- The token columns of a request's log row. -/
structure LogTokens where
  input_tokens : Int
  output_tokens : Int
  cached_tokens : Int
  cache_write_tokens : Int
  reasoning_tokens : Int
  deriving DecidableEq, Repr

namespace Settled

variable (request : Settled)

/-- The usage of the response. The reports of a stream are snapshots. -/
def reported : Usage :=
  request.reports.foldl (fun usage raw => usage.merge_max (decode_usage request.upstream raw)) {}

/-- The usage as it is billed. -/
def usage : Usage := request.reported.billing_normalized request.upstream

def tokens : U64 := request.usage.total

def cost : ℚ :=
  match request.price with
  | some price => charge price request.upstream request.reported
  | none => 0

def log_tokens : LogTokens where
  input_tokens := as_i64 request.usage.input_tokens
  output_tokens := as_i64 request.usage.output_tokens
  cached_tokens := as_i64 request.usage.cached_input_tokens
  cache_write_tokens := as_i64 request.usage.cache_write_tokens
  reasoning_tokens := as_i64 request.usage.reasoning_tokens

end Settled

namespace KeyUsage

variable (key : KeyUsage)

/-- The tokens of a finished request, in the window of their minute. -/
def add_tokens (minute : Nat) (tokens : U64) : KeyUsage :=
  if tokens = 0 then key
  else
    match key.window with
    | some window =>
      { key with window := some (if window.minute = minute then
          { window with tokens := saturating_add window.tokens tokens } else ⟨minute, saturating_add 0 tokens⟩) }
    | none => { key with window := some ⟨minute, saturating_add 0 tokens⟩ }

def record_usage (tokens : Int) (cost : ℚ) : KeyUsage :=
  { key with used_quota := key.used_quota.add tokens, used_budget := key.used_budget + max cost 0 }

/-- A settled request, on the side of its key. -/
def record (request : Settled) : KeyUsage :=
  let counted := key.add_tokens request.minute request.tokens
  if 0 < request.tokens ∨ 0 < request.cost then counted.record_usage (as_i64 request.tokens) request.cost else counted

end KeyUsage

/-- No sum that is made for a request wraps, and its row holds no negative
    count. -/
structure Settled.Exact (request : Settled) : Prop where
  decoded : ∀ raw ∈ request.reports,
    (decode_usage request.upstream raw).output_tokens.val = completion_tokens request.upstream raw
  normalized : request.usage.input_tokens.val = request.reported.prompt_total request.upstream
  shown : request.reported.total.val = request.reported.input_tokens.val + request.reported.output_tokens.val
  total : request.tokens.val = request.usage.input_tokens.val + request.usage.output_tokens.val
  cached : (request.usage.cached_input_tokens + request.usage.cache_write_tokens).val =
    request.usage.cached_input_tokens.val + request.usage.cache_write_tokens.val
  logged : 0 ≤ request.log_tokens.input_tokens ∧ 0 ≤ request.log_tokens.output_tokens ∧
    0 ≤ request.log_tokens.cached_tokens ∧ 0 ≤ request.log_tokens.cache_write_tokens ∧
      0 ≤ request.log_tokens.reasoning_tokens

/-- The counters of a key do not go down. A window is compared with itself. -/
structure KeyUsage.Grows (before after : KeyUsage) : Prop where
  nonneg : 0 ≤ before.used_quota.value → 0 ≤ after.used_quota.value
  quota : before.used_quota.value ≤ after.used_quota.value
  window : ∀ old ∈ before.window, ∀ new ∈ after.window, old.minute = new.minute → old.tokens ≤ new.tokens

/-- Along a sequence of settled requests every sum is exact and every counter
    of the key grows. -/
def Accounted : KeyUsage → List Settled → Prop
  | _, [] => True
  | key, request :: requests =>
    (request.Exact ∧ key.Grows (key.record request)) ∧ Accounted (key.record request) requests

/-- The counts of a request stay within the range of an `i64`, its prompt and
    completion together. -/
structure Settled.Fits (request : Settled) : Prop where
  decoded : ∀ raw ∈ request.reports, completion_tokens request.upstream raw < 18446744073709551616
  total : request.usage.input_tokens.val + request.usage.output_tokens.val < 9223372036854775808
  cached : request.usage.cached_input_tokens.val < 9223372036854775808
  cache_write : request.usage.cache_write_tokens.val < 9223372036854775808
  reasoning : request.usage.reasoning_tokens.val < 9223372036854775808

theorem as_i64_nonneg {n : U64} : 0 ≤ as_i64 n ↔ n.val < 9223372036854775808 := by
  have := n.isLt
  unfold as_i64
  split <;> omega

section Steps

variable {request : Settled} {key : KeyUsage}

variable (request) in
/-- The bill counts at least the input that the client is shown. -/
theorem reported_input_le : request.reported.input_tokens.val ≤ request.usage.input_tokens.val := by
  have := request.reported.input_tokens.isLt
  rw [Settled.usage, Usage.billing_normalized_input]
  unfold Usage.prompt_total
  split <;> omega

theorem Settled.Fits.exact (hfits : request.Fits) : request.Exact where
  decoded raw hraw := (completion_tokens_eq request.upstream raw (hfits.decoded raw hraw)).symm
  normalized := by
    have hnormalized := Usage.billing_normalized_input request.reported request.upstream
    have htotal := hfits.total
    rw [Settled.usage] at htotal ⊢
    omega
  shown := by
    have hinput := reported_input_le request
    have houtput := Usage.billing_normalized_output request.reported request.upstream
    have htotal := hfits.total
    rw [Settled.usage, houtput] at htotal
    rw [Usage.total]
    exact add_val_of_lt (by rw [Settled.usage] at hinput; omega)
  total := add_val_of_lt (by have := hfits.total; omega)
  cached := add_val_of_lt (by have := hfits.cached; have := hfits.cache_write; omega)
  logged := by
    have htotal := hfits.total
    simp only [Settled.log_tokens, as_i64_nonneg]
    exact ⟨by omega, by omega, hfits.cached, hfits.cache_write, hfits.reasoning⟩

/-- A key's quota moves by the tokens that the cast leaves. -/
theorem record_quota :
    (key.record request).used_quota.value = key.used_quota.value +
      if 0 < request.tokens ∨ 0 < request.cost then as_i64 request.tokens else 0 := by
  have hcounted : (key.add_tokens request.minute request.tokens).used_quota = key.used_quota := by
    unfold KeyUsage.add_tokens
    split
    · rfl
    · split <;> rfl
  unfold KeyUsage.record
  split
  · rw [KeyUsage.record_usage, SqlNumber.value_add, hcounted]
  · rw [hcounted, add_zero]

/-- The tokens of a window are added to, or a new minute begins. -/
theorem record_window {old new : Window} (hold : old ∈ key.window) (hnew : new ∈ (key.record request).window)
    (hminute : old.minute = new.minute) : old.tokens ≤ new.tokens := by
  have hcounted : new ∈ (key.add_tokens request.minute request.tokens).window := by
    unfold KeyUsage.record at hnew
    split at hnew <;> exact hnew
  rw [Option.mem_def] at hold hcounted
  rw [KeyUsage.add_tokens, hold] at hcounted
  split at hcounted
  · rw [hold] at hcounted
    exact (congrArg Window.tokens (Option.some.inj hcounted)).le
  · obtain rfl := Option.some.inj hcounted
    split at hminute <;> rename_i hsame
    · rw [if_pos hsame, Fin.le_def, saturating_add_val]
      have := old.tokens.isLt
      omega
    · exact absurd hminute hsame

/-- One request is settled right exactly if its counts fit. -/
theorem settled_iff : request.Exact ∧ key.Grows (key.record request) ↔ request.Fits := by
  constructor
  · rintro ⟨hexact, hgrows⟩
    have htokens : request.tokens.val < 9223372036854775808 := by
      by_contra hlarge
      have hneg : as_i64 request.tokens < 0 := by
        have := as_i64_nonneg (n := request.tokens)
        omega
      have hpos : 0 < request.tokens := by
        rw [Fin.lt_def, Fin.val_zero]
        omega
      have hquota := hgrows.quota
      rw [record_quota, if_pos (.inl hpos)] at hquota
      omega
    have hlogged := hexact.logged
    simp only [Settled.log_tokens, as_i64_nonneg] at hlogged
    obtain ⟨-, -, hcached, hwrite, hreasoning⟩ := hlogged
    refine ⟨fun raw hraw => ?_, by have := hexact.total; omega, hcached, hwrite, hreasoning⟩
    rw [← hexact.decoded raw hraw]
    exact Fin.isLt _
  · intro hfits
    have htokens : 0 ≤ as_i64 request.tokens := by
      rw [as_i64_nonneg, hfits.exact.total]
      exact hfits.total
    have hquota : key.used_quota.value ≤ (key.record request).used_quota.value := by
      rw [record_quota]
      split <;> omega
    exact ⟨hfits.exact, fun hnonneg => hnonneg.trans hquota, hquota, fun old hold new hnew => record_window hold hnew⟩

end Steps

/-- Accounting is exact and monotone over a sequence of requests if and only if
    the counts of every one of them fit. -/
theorem accounted_iff (key : KeyUsage) (requests : List Settled) :
    Accounted key requests ↔ ∀ request ∈ requests, request.Fits := by
  induction requests generalizing key with
  | nil => simp [Accounted]
  | cons request requests ih => rw [Accounted, settled_iff, ih, List.forall_mem_cons]

/-- A Chat upstream that reports a prompt of `2 ^ 63` tokens takes them off the
    quota of its key. -/
theorem hostile_prompt_not_accounted :
    ¬ Accounted ⟨.integer 5, 0, none⟩ [⟨.chat, [.object [("prompt_tokens", .nat 9223372036854775808)]], none, 0⟩] := by
  rintro ⟨⟨-, hgrows⟩, -⟩
  exact absurd hgrows.quota (by decide)

end refract.gateway
