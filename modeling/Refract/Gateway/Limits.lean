import Refract.Gateway.Guard
import Refract.Gateway.Principal
import Refract.Gateway.Rate
import Refract.Machine.Transaction

open refract.core refract.machine refract.store

namespace refract.gateway

section Addresses

def IpAddr.rank : IpAddr → Nat
  | .v4 bits => bits.toNat
  | .v6 bits => 4294967296 + bits.toNat

theorem IpAddr.rank_injective : Function.Injective IpAddr.rank := by
  intro a b hrank
  cases a with
  | v4 first =>
    cases b with
    | v4 second => exact congrArg v4 (BitVec.eq_of_toNat_eq hrank)
    | v6 second =>
      have hfirst := first.isLt
      simp only [rank] at hrank
      omega
  | v6 first =>
    cases b with
    | v4 second =>
      have hsecond := second.isLt
      simp only [rank] at hrank
      omega
    | v6 second => exact congrArg v6 (BitVec.eq_of_toNat_eq (Nat.add_left_cancel hrank))

/-- The old addresses come before the new ones. -/
instance ipAddrOrder : LinearOrder IpAddr := LinearOrder.lift' IpAddr.rank IpAddr.rank_injective

end Addresses

section Limiters

structure GlobalLimits where
  rpm : UInt32 := 0
  tpm : UInt32 := 0
  max_concurrency : UInt32 := 0
  deriving DecidableEq, Repr

structure IpLimits where
  rpm : UInt32 := 0
  deriving DecidableEq, Repr

/-- What decides whether a request is let in. -/
structure Limiters where
  ip_limits : IpLimits := {}
  global_limits : GlobalLimits := {}
  ip_limiter : RateLimiter IpAddr := {}
  rate_limiter : RateLimiter Int := {}
  /-- The permits that are left, where their number is limited. -/
  concurrency_semaphore : Option Nat := none

def RateDimension.describe : RateDimension → String
  | .requests => "requests per minute (RPM)"
  | .tokens => "tokens per minute (TPM)"

def rate_limited (message : String) (retry_after : Nat) : GatewayError :=
  { GatewayError.new .rateLimited message with retry_after := some retry_after }

/-- A check of a request, which may count it. -/
def Admission (α : Type) : Type := Limiters → Except GatewayError α × Limiters

namespace Admission

variable {α β : Type}

instance admissionMonad : Monad Admission where
  pure a limiters := (.ok a, limiters)
  bind check next limiters :=
    match check limiters with
    | (.ok a, limiters) => next a limiters
    | (.error error, limiters) => (.error error, limiters)

def exec (check : Admission α) (limiters : Limiters) : Except GatewayError α × Limiters := check limiters

theorem exec_bind {check : Admission α} {next : α → Admission β} (limiters : Limiters) :
    (check >>= next).exec limiters =
      match check.exec limiters with
      | (.ok a, limiters) => (next a).exec limiters
      | (.error error, limiters) => (.error error, limiters) :=
  rfl

end Admission

/-- An address is limited by the requests of a minute, if at all. -/
def enforce_ip_limit (now : Nat) (remote_ip : Option IpAddr) : Admission Unit := fun limiters =>
  let limits := limiters.ip_limits
  if limits.rpm = 0 then (.ok (), limiters)
  else
    let ip := remote_ip.getD .LOCALHOST
    let (admitted, ip_limiter) := IpRateLimiter.admit_now limiters.ip_limiter ip limits.rpm now
    (admitted.mapError fun exceeded =>
        rate_limited ("per-IP request limit (" ++ toString limits.rpm.toNat ++ " RPM) exceeded; retry in " ++
          toString exceeded.retry_after_secs ++ "s") exceeded.retry_after_secs,
      { limiters with ip_limiter })

/-- A request without a key is not limited. -/
def enforce_rate_limit (now : Nat) (principal : Principal) : Admission Unit := fun limiters =>
  match principal.api_key with
  | none => (.ok (), limiters)
  | some key =>
    let (admitted, rate_limiter) := limiters.rate_limiter.admit_now key.id (.ofInt key.rpm_limit) (.ofInt key.tpm_limit) now
    (admitted.mapError fun exceeded =>
        rate_limited ("API key `" ++ key.name ++ "` exceeded its " ++ exceeded.dimension.describe ++ " limit; retry in " ++
          toString exceeded.retry_after_secs ++ "s") exceeded.retry_after_secs,
      { limiters with rate_limiter })

/-- The limits that all requests share. -/
def admit_global (now : Nat) : Admission Unit := fun limiters =>
  let limits := limiters.global_limits
  let (admitted, rate_limiter) :=
    limiters.rate_limiter.admit_now GLOBAL_WINDOW_KEY (.ofNat limits.rpm.toNat) (.ofNat limits.tpm.toNat) now
  (admitted.mapError fun exceeded =>
      let cap := match exceeded.dimension with
        | .requests => limits.rpm
        | .tokens => limits.tpm
      rate_limited ("gateway-wide " ++ exceeded.dimension.describe ++ " limit (" ++ toString cap.toNat ++
        ") exceeded; retry in " ++ toString exceeded.retry_after_secs ++ "s") exceeded.retry_after_secs,
    { limiters with rate_limiter })

/-- A permit, which is held until the answer is complete. -/
def acquire_permit : Admission Unit := fun limiters =>
  match limiters.concurrency_semaphore with
  | none => (.ok (), limiters)
  | some 0 =>
    (.error (rate_limited ("gateway concurrency limit (" ++ toString limiters.global_limits.max_concurrency.toNat ++
      ") reached; retry shortly") 1), limiters)
  | some (permits + 1) => (.ok (), { limiters with concurrency_semaphore := some permits })

def enforce_global_limits (now : Nat) : Admission Unit := do
  admit_global now
  acquire_permit

/-- What is decided without the limiters. -/
def Admission.check {α : Type} (result : Except GatewayError α) : Admission α := fun limiters => (result, limiters)

def check_model (principal : Principal) (model : String) : Admission Unit :=
  .check <|
    if principal.allows_model model then .ok ()
    else .error (.new .permissionDenied ("this API key is not allowed to use model `" ++ model ++ "`"))

/-- The seconds that the limits read from the clock. -/
structure Readings where
  ip : Nat
  key : Nat
  window : Nat

/-- How a request that is passed through is let in. -/
def passthrough_admission (now : Readings) (principal : Principal) (remote_ip : Option IpAddr) (model : String) : Admission Unit := do
  enforce_ip_limit now.ip remote_ip
  check_model principal model
  enforce_rate_limit now.key principal
  enforce_global_limits now.window

/-- The model of a request: from the path of the Gemini protocol, or from the body. -/
def dispatch_model (gemini_model body_model : Option String) : Except GatewayError String :=
  match gemini_model with
  | some model => .ok model
  | none => (body_model.filter (· ≠ "")).elim (.error (.invalid_request "missing required field `model`")) .ok

def dispatch_admission (now : Readings) (principal : Principal) (remote_ip : Option IpAddr) (gemini_model body_model : Option String) :
    Admission Unit := do
  enforce_ip_limit now.ip remote_ip
  let model ← .check (dispatch_model gemini_model body_model)
  check_model principal model
  enforce_rate_limit now.key principal
  enforce_global_limits now.window

end Limiters

section Counts

variable {κ : Type} [LinearOrder κ]

/-- A window that was stored is the one of its key, and of its minute. -/
theorem window_at_insert {windows : SortedMap κ RateWindow} {key_id : κ} {minute : Nat} {window : RateWindow}
    (hminute : window.minute = minute) (other : κ) :
    window_at (windows.insert key_id window) other minute = if other = key_id then window else window_at windows other minute := by
  by_cases hother : other = key_id
  · rw [if_pos hother]
    refine window_at_eq ?_ hminute
    rw [SortedMap.get_insert, if_pos hother]
  · simp only [window_at, SortedMap.get_insert, if_neg hother]

/-- Some requests of a key were counted in the minute of a second, and nothing
    else. -/
structure RateLimiter.Counts (before : RateLimiter κ) (key_id : κ) (now requests : Nat) (after : RateLimiter κ) : Prop where
  requests : ∀ other, (window_at after.windows other (now / 60)).requests =
    (window_at before.windows other (now / 60)).requests + if other = key_id then requests else 0
  tokens : ∀ other, (window_at after.windows other (now / 60)).tokens = (window_at before.windows other (now / 60)).tokens

/-- The limit that the window of a key has reached in the minute of a second. -/
def RateLimiter.exceeded (self : RateLimiter κ) (key_id : κ) (rpm tpm : Int64) (now : Nat) : Option RateDimension :=
  (window_at self.windows key_id (now / 60)).exceeded rpm tpm

/-- A request is counted where there is a limit. -/
def counted (rpm tpm : Int64) : Nat := if rpm.toInt ≤ 0 ∧ tpm.toInt ≤ 0 then 0 else 1

variable {limiter : RateLimiter κ} {key_id : κ} {rpm tpm : Int64} {now : Nat}

theorem RateLimiter.counts_self : limiter.Counts key_id now 0 limiter :=
  ⟨fun _ => by rw [ite_self, Nat.add_zero], fun _ => rfl⟩

/-- A window is stored with so many requests more. -/
theorem RateLimiter.counts_insert {requests : Nat} {window : RateWindow} (hminute : window.minute = now / 60)
    (hrequests : window.requests = (window_at limiter.windows key_id (now / 60)).requests + requests)
    (htokens : window.tokens = (window_at limiter.windows key_id (now / 60)).tokens) :
    limiter.Counts key_id now requests ⟨(prune_stale_windows limiter.windows (now / 60)).insert key_id window⟩ where
  requests other := by
    rw [window_at_insert hminute, window_at_prune]
    by_cases hother : other = key_id
    · rw [if_pos hother, if_pos hother, hrequests, hother]
    · rw [if_neg hother, if_neg hother, Nat.add_zero]
  tokens other := by
    rw [window_at_insert hminute, window_at_prune]
    by_cases hother : other = key_id
    · rw [if_pos hother, htokens, hother]
    · rw [if_neg hother]

theorem exceeded_of_unlimited (window : RateWindow) (hunlimited : rpm.toInt ≤ 0 ∧ tpm.toInt ≤ 0) : window.exceeded rpm tpm = none := by
  rw [RateWindow.exceeded_eq_none]
  omega

/-- A request is refused when a limit is reached, and is not counted then. -/
theorem RateLimiter.admit_now_counts (limiter : RateLimiter κ) (key_id : κ) (rpm tpm : Int64) (now : Nat) :
    match limiter.admit_now key_id rpm tpm now with
    | (.ok (), after) => limiter.exceeded key_id rpm tpm now = none ∧ limiter.Counts key_id now (counted rpm tpm) after
    | (.error error, after) =>
      limiter.exceeded key_id rpm tpm now = some error.dimension ∧ limiter.Counts key_id now 0 after := by
  unfold admit_now counted
  by_cases hunlimited : rpm.toInt ≤ 0 ∧ tpm.toInt ≤ 0
  · rw [if_pos hunlimited, if_pos hunlimited]
    exact ⟨exceeded_of_unlimited _ hunlimited, counts_self⟩
  · rw [if_neg hunlimited, if_neg hunlimited]
    simp only [admit_at, window_at_prune, exceeded]
    cases (window_at limiter.windows key_id (now / 60)).exceeded rpm tpm with
    | some dimension => exact ⟨rfl, counts_insert window_at_minute rfl rfl⟩
    | none => exact ⟨rfl, counts_insert window_at_minute rfl rfl⟩

end Counts

section Hurdles

/-- What a request has to pass, one after the other. -/
inductive Hurdle where
  | ip
  | model
  | key
  | window
  | concurrency
  deriving DecidableEq, Repr

/-- What the hurdles look at. -/
structure Applicant where
  principal : Principal
  remote_ip : Option IpAddr
  /-- The model that is asked for, if one is. -/
  model : Option String

namespace Hurdle

variable (applicant : Applicant) (now : Readings)

/-- A hurdle does not let the request pass. -/
def Bars (limiters : Limiters) : Hurdle → Prop
  | .ip => limiters.ip_limiter.exceeded (applicant.remote_ip.getD .LOCALHOST) (.ofNat limiters.ip_limits.rpm.toNat) 0 now.ip ≠ none
  | .model => ∀ model, applicant.model = some model → applicant.principal.allows_model model = false
  | .key => ∃ api_key, applicant.principal.api_key = some api_key ∧
    limiters.rate_limiter.exceeded api_key.id (.ofInt api_key.rpm_limit) (.ofInt api_key.tpm_limit) now.key ≠ none
  | .window => limiters.rate_limiter.exceeded GLOBAL_WINDOW_KEY (.ofNat limiters.global_limits.rpm.toNat)
    (.ofNat limiters.global_limits.tpm.toNat) now.window ≠ none
  | .concurrency => limiters.concurrency_semaphore = some 0

/-- A hurdle uses up so much of what it guards, if that is limited, and
    nothing else is used up. -/
def Uses (units : Nat) (before after : Limiters) : Hurdle → Prop
  | .ip => ∃ ip_limiter, after = { before with ip_limiter } ∧
    before.ip_limiter.Counts (applicant.remote_ip.getD .LOCALHOST) now.ip
      (units * counted (.ofNat before.ip_limits.rpm.toNat) 0) ip_limiter
  | .model => after = before
  | .key => ∃ rate_limiter, after = { before with rate_limiter } ∧
    match applicant.principal.api_key with
    | none => rate_limiter = before.rate_limiter
    | some api_key => before.rate_limiter.Counts api_key.id now.key
      (units * counted (.ofInt api_key.rpm_limit) (.ofInt api_key.tpm_limit)) rate_limiter
  | .window => ∃ rate_limiter, after = { before with rate_limiter } ∧
    before.rate_limiter.Counts GLOBAL_WINDOW_KEY now.window
      (units * counted (.ofNat before.global_limits.rpm.toNat) (.ofNat before.global_limits.tpm.toNat)) rate_limiter
  | .concurrency => after = { before with concurrency_semaphore := before.concurrency_semaphore.map (· - units) }

/-- A request passes a hurdle, which counts it once. -/
def Passes (hurdle : Hurdle) (before after : Limiters) : Prop :=
  ¬hurdle.Bars applicant now before ∧ hurdle.Uses applicant now 1 before after

/-- A request is refused at a hurdle, which does not count it. -/
def Refuses (hurdle : Hurdle) (before after : Limiters) : Prop :=
  hurdle.Bars applicant now before ∧ hurdle.Uses applicant now 0 before after

end Hurdle

/-- Requests pass the hurdles in their order. -/
def Passed (applicant : Applicant) (now : Readings) (hurdles : List Hurdle) : Limiters → Limiters → Prop :=
  Reaches (hurdles.map (·.Passes applicant now))

/-- A request passes some hurdles, and is refused at the next one. -/
def RefusedAt (applicant : Applicant) (now : Readings) (hurdles : List Hurdle) (before after : Limiters) : Prop :=
  ∃ passed hurdle later mid, hurdles = passed ++ hurdle :: later ∧ Passed applicant now passed before mid ∧
    hurdle.Refuses applicant now mid after

/-- A check stands for some hurdles. -/
def Admission.Stands {α : Type} (check : Admission α) (applicant : Applicant) (now : Readings) (hurdles : List Hurdle) : Prop :=
  ∀ before, match check.exec before with
    | (.ok _, after) => Passed applicant now hurdles before after
    | (.error _, after) => RefusedAt applicant now hurdles before after

section Stands

variable {α β : Type} {applicant : Applicant} {now : Readings} {hurdles later : List Hurdle} {before mid after : Limiters}

theorem RefusedAt.append_right (hrefused : RefusedAt applicant now hurdles before after) :
    RefusedAt applicant now (hurdles ++ later) before after := by
  obtain ⟨passed, hurdle, rest, mid, rfl, hpassed, hrefuses⟩ := hrefused
  exact ⟨passed, hurdle, rest ++ later, mid, by simp, hpassed, hrefuses⟩

theorem Passed.refused (hpassed : Passed applicant now hurdles before mid) (hrefused : RefusedAt applicant now later mid after) :
    RefusedAt applicant now (hurdles ++ later) before after := by
  obtain ⟨passed, hurdle, rest, last, rfl, hlater, hrefuses⟩ := hrefused
  refine ⟨hurdles ++ passed, hurdle, rest, last, by simp, ?_, hrefuses⟩
  rw [Passed, List.map_append]
  exact reaches_append.mpr ⟨mid, hpassed, hlater⟩

/-- Checks stand for their hurdles together when they are made one after the
    other. -/
theorem Admission.Stands.bind {check : Admission α} {next : α → Admission β} (hcheck : check.Stands applicant now hurdles)
    (hnext : ∀ a, (next a).Stands applicant now later) : (check >>= next).Stands applicant now (hurdles ++ later) := by
  intro before
  rw [exec_bind]
  have hfirst := hcheck before
  cases hresult : check.exec before with
  | mk result mid =>
    rw [hresult] at hfirst
    cases result with
    | error error => exact hfirst.append_right
    | ok a =>
      have hsecond := hnext a mid
      cases hrest : (next a).exec mid with
      | mk result after =>
        simp only [hrest] at hsecond ⊢
        cases result with
        | error error => exact Passed.refused hfirst hsecond
        | ok b =>
          rw [Passed, List.map_append]
          exact reaches_append.mpr ⟨mid, hfirst, hsecond⟩

/-- A check stands for one hurdle. -/
theorem Admission.stands_of {check : Admission α} {hurdle : Hurdle}
    (hcheck : ∀ before, match check.exec before with
      | (.ok _, after) => hurdle.Passes applicant now before after
      | (.error _, after) => hurdle.Refuses applicant now before after) :
    check.Stands applicant now [hurdle] := by
  intro before
  have hone := hcheck before
  cases hresult : check.exec before with
  | mk result after =>
    rw [hresult] at hone
    cases result with
    | error error => exact ⟨[], hurdle, [], before, rfl, rfl, hone⟩
    | ok a => exact ⟨after, hone, rfl⟩

theorem enforce_ip_limit_stands (applicant : Applicant) (now : Readings) : (enforce_ip_limit now.ip applicant.remote_ip).Stands applicant now [.ip] := by
  refine Admission.stands_of fun before => ?_
  unfold Admission.exec enforce_ip_limit
  by_cases hoff : before.ip_limits.rpm = 0
  · have hunlimited : counted (.ofNat before.ip_limits.rpm.toNat) 0 = 0 := by
      rw [hoff]
      rfl
    rw [if_pos hoff]
    refine ⟨?_, before.ip_limiter, rfl, ?_⟩
    · simp only [Hurdle.Bars, hoff, not_not]
      exact exceeded_of_unlimited _ (by decide)
    · rw [hunlimited]
      exact RateLimiter.counts_self
  · rw [if_neg hoff]
    have hcounts := before.ip_limiter.admit_now_counts (applicant.remote_ip.getD .LOCALHOST) (.ofNat before.ip_limits.rpm.toNat) 0 now.ip
    simp only [IpRateLimiter.admit_now]
    cases hresult : before.ip_limiter.admit_now (applicant.remote_ip.getD .LOCALHOST) (.ofNat before.ip_limits.rpm.toNat) 0 now.ip with
    | mk result after =>
      rw [hresult] at hcounts
      cases result with
      | error error => exact ⟨by simp [Hurdle.Bars, hcounts.1], after, rfl, by simpa using hcounts.2⟩
      | ok admitted => exact ⟨by simp [Hurdle.Bars, hcounts.1], after, rfl, by simpa using hcounts.2⟩

theorem enforce_rate_limit_stands (applicant : Applicant) (now : Readings) : (enforce_rate_limit now.key applicant.principal).Stands applicant now [.key] := by
  refine Admission.stands_of fun before => ?_
  unfold Admission.exec enforce_rate_limit
  cases hkey : applicant.principal.api_key with
  | none => exact ⟨by simp [Hurdle.Bars, hkey], before.rate_limiter, rfl, by simp [hkey]⟩
  | some key =>
    have hcounts := before.rate_limiter.admit_now_counts key.id (.ofInt key.rpm_limit) (.ofInt key.tpm_limit) now.key
    simp only
    cases hresult : before.rate_limiter.admit_now key.id (.ofInt key.rpm_limit) (.ofInt key.tpm_limit) now.key with
    | mk result after =>
      rw [hresult] at hcounts
      cases result with
      | error error => exact ⟨by simp [Hurdle.Bars, hkey, hcounts.1], after, rfl, by simpa [hkey] using hcounts.2⟩
      | ok admitted => exact ⟨by simp [Hurdle.Bars, hkey, hcounts.1], after, rfl, by simpa [hkey] using hcounts.2⟩

theorem admit_global_stands (applicant : Applicant) (now : Readings) : (admit_global now.window).Stands applicant now [.window] := by
  refine Admission.stands_of fun before => ?_
  unfold Admission.exec admit_global
  have hcounts := before.rate_limiter.admit_now_counts GLOBAL_WINDOW_KEY (.ofNat before.global_limits.rpm.toNat)
    (.ofNat before.global_limits.tpm.toNat) now.window
  simp only
  cases hresult : before.rate_limiter.admit_now GLOBAL_WINDOW_KEY (.ofNat before.global_limits.rpm.toNat)
      (.ofNat before.global_limits.tpm.toNat) now.window with
  | mk result after =>
    rw [hresult] at hcounts
    cases result with
    | error error => exact ⟨by simp [Hurdle.Bars, hcounts.1], after, rfl, by simpa using hcounts.2⟩
    | ok admitted => exact ⟨by simp [Hurdle.Bars, hcounts.1], after, rfl, by simpa using hcounts.2⟩

theorem acquire_permit_stands (applicant : Applicant) (now : Readings) : acquire_permit.Stands applicant now [.concurrency] := by
  refine Admission.stands_of fun before => ?_
  obtain ⟨ip_limits, global_limits, ip_limiter, rate_limiter, permits⟩ := before
  cases permits with
  | none => exact ⟨by simp [Hurdle.Bars], rfl⟩
  | some permits =>
    cases permits with
    | zero => exact ⟨rfl, rfl⟩
    | succ permits => exact ⟨by simp [Hurdle.Bars], rfl⟩

theorem enforce_global_limits_stands (applicant : Applicant) (now : Readings) : (enforce_global_limits now.window).Stands applicant now [.window, .concurrency] :=
  (admit_global_stands applicant now).bind fun _ => acquire_permit_stands applicant now

theorem check_model_stands {model : String} (hmodel : applicant.model = some model) :
    (check_model applicant.principal model).Stands applicant now [.model] := by
  refine Admission.stands_of fun before => ?_
  simp only [Admission.exec, check_model, Admission.check]
  by_cases hallows : applicant.principal.allows_model model = true
  · rw [if_pos hallows]
    exact ⟨fun hbars => by simp [hbars model hmodel] at hallows, rfl⟩
  · rw [if_neg hallows]
    refine ⟨fun other hother => ?_, rfl⟩
    obtain rfl := Option.some.inj (hmodel.symm.trans hother)
    simpa using hallows

/-- A request without a model is refused as one for a model that its key does
    not have. -/
theorem no_model_stands {error : GatewayError} {next : String → Admission α} (hmodel : applicant.model = none) :
    (Admission.check (.error error) >>= next).Stands applicant now (.model :: later) := by
  refine fun before => ⟨[], .model, later, before, rfl, rfl, fun model hsome => ?_, rfl⟩
  rw [hmodel] at hsome
  cases hsome

/-- What both ways have in common after the model is known. -/
theorem model_onward_stands (applicant : Applicant) (now : Readings) {model : String} (hmodel : applicant.model = some model) :
    (do check_model applicant.principal model
        enforce_rate_limit now.key applicant.principal
        enforce_global_limits now.window).Stands applicant now [.model, .key, .window, .concurrency] := by
  have hlimits : (do enforce_rate_limit now.key applicant.principal
                     enforce_global_limits now.window).Stands applicant now [.key, .window, .concurrency] :=
    (enforce_rate_limit_stands applicant now).bind fun _ => enforce_global_limits_stands applicant now
  exact (check_model_stands hmodel).bind fun _ => hlimits

end Stands

/-- A request is counted once by every limit that it passes, in their order, up
    to the one that refuses it. That one and those after it are left as they are. -/
theorem admission_stands (now : Readings) (principal : Principal) (remote_ip : Option IpAddr) :
    (∀ gemini_model body_model, (dispatch_admission now principal remote_ip gemini_model body_model).Stands
      ⟨principal, remote_ip, (dispatch_model gemini_model body_model).toOption⟩ now [.ip, .model, .key, .window, .concurrency]) ∧
    ∀ model, (passthrough_admission now principal remote_ip model).Stands
      ⟨principal, remote_ip, some model⟩ now [.ip, .model, .key, .window, .concurrency] := by
  refine ⟨fun gemini_model body_model => ?_, fun model => ?_⟩
  · refine (enforce_ip_limit_stands ⟨principal, remote_ip, _⟩ now).bind fun _ => ?_
    cases hmodel : dispatch_model gemini_model body_model with
    | error error => exact no_model_stands rfl
    | ok model => exact model_onward_stands ⟨principal, remote_ip, some model⟩ now rfl
  · exact (enforce_ip_limit_stands ⟨principal, remote_ip, some model⟩ now).bind fun _ =>
      model_onward_stands ⟨principal, remote_ip, some model⟩ now rfl

/-- A key that may use one model, and limiters that let an address make one
    request a minute. -/
def one_model : Principal := .from_api_key { sample_key (some 5) with allowed_models := ["a"] }

def one_request : Limiters := { ip_limits := { rpm := 1 } }

/-- A request for a model that the key may not use counts for its address all
    the same. The next one, which the key allows, is refused for it. -/
theorem refused_request_uses_up :
    (dispatch_admission ⟨60, 60, 60⟩ one_model none none (some "b")).exec one_request =
        (.error (.new .permissionDenied "this API key is not allowed to use model `b`"),
          ((dispatch_admission ⟨60, 60, 60⟩ one_model none none (some "b")).exec one_request).2) ∧
      (window_at one_request.ip_limiter.windows .LOCALHOST 1).requests = 0 ∧
      (window_at ((dispatch_admission ⟨60, 60, 60⟩ one_model none none (some "b")).exec one_request).2.ip_limiter.windows
        .LOCALHOST 1).requests = 1 ∧
      ((dispatch_admission ⟨60, 60, 60⟩ one_model none none (some "a")).exec one_request).1 = .ok () ∧
      ((dispatch_admission ⟨61, 61, 61⟩ one_model none none (some "a")).exec
        ((dispatch_admission ⟨60, 60, 60⟩ one_model none none (some "b")).exec one_request).2).1 =
        .error (rate_limited "per-IP request limit (1 RPM) exceeded; retry in 59s" 59) := by
  refine ⟨?_, ?_, ?_, ?_, ?_⟩ <;> rfl

end Hurdles

end refract.gateway
