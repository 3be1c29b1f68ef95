import Refract.Core.Channel
import Refract.Core.Error
import Refract.Store.Key
import Refract.Store.Wallet

open refract.core refract.store

namespace refract.gateway

inductive PrincipalScope where
  | gateway
  deriving DecidableEq, Repr

/-- Who makes a request. -/
structure Principal where
  owner_id : Int
  user_id : Option Int
  scopes : List PrincipalScope
  api_key : Option ApiKey

namespace Principal

/-- Without authentication every request is made by one user. -/
def local_user (owner_id user_id : Int) : Principal where
  owner_id := owner_id
  user_id := some user_id
  scopes := [.gateway]
  api_key := none

def from_api_key (key : ApiKey) : Principal where
  owner_id := key.owner_id
  user_id := key.user_id
  scopes := [.gateway]
  api_key := some key

variable (self : Principal)

/-- The user whose channels a request sees. -/
def gateway_user_id : Int := self.user_id.getD self.owner_id

def has_scope (scope : PrincipalScope) : Bool := self.scopes.contains scope

def allows_model (model : String) : Bool := self.has_scope .gateway && self.api_key.all (·.allows_model model)

def allows_channel (channel : Channel) : Bool :=
  self.has_scope .gateway && channel.owner_id = self.owner_id &&
    self.api_key.all fun key => key.allowed_tags.isEmpty || channel.tags.any (key.allowed_tags.contains ·)

end Principal

/-- The shared channels and those of a user. -/
def channels_for (channels : List Channel) (user_id : Int) : List Channel :=
  channels.filter fun channel => channel.visibility = .shared || channel.user_id = some user_id

/-- The channels that a request may be routed to. -/
def allowed_channels (channels : List Channel) (principal : Principal) : List Channel :=
  (channels_for channels principal.gateway_user_id).filter principal.allows_channel

/-- What the authenticator reads from the store. A read may fail. -/
structure Accounts where
  find_by_plaintext : String → Except GatewayError (Option ApiKey)
  find_by_id : Int → Except GatewayError (Option UserStatus)
  balance : Int → Except GatewayError ℚ

/-- A read that decides about a request. -/
inductive Check where
  | key (token : String)
  | active (user_id : Int)
  | balance (user_id : Int)
  deriving DecidableEq, Repr

structure SingleUserAuthenticator where
  require_auth : Bool
  owner_id : Int
  /-- The user of requests without authentication and of keys without a user. -/
  fallback_user_id : Int

/-- A number with four decimals, a half rounded to the even neighbour. -/
def fixed4 (q : ℚ) : String :=
  let scaled := |q| * 10000
  let floor := scaled.floor.toNat
  let rest := scaled - floor
  let rounded := if rest < 1 / 2 then floor else if 1 / 2 < rest then floor + 1 else floor + floor % 2
  let digits := toString (rounded % 10000)
  (if q < 0 then "-" else "") ++ toString (rounded / 10000) ++ "." ++
    String.ofList (List.replicate (4 - digits.length) '0') ++ digits

namespace SingleUserAuthenticator

variable (self : SingleUserAuthenticator) (accounts : Accounts) (cached : Int → Option ℚ) (now : Int)

/-- The balance comes from the cache where that has it. -/
def read_balance (user_id : Int) : Except GatewayError ℚ :=
  match cached user_id with
  | some balance => .ok balance
  | none => accounts.balance user_id

/-- Whether the user of a key may make requests. -/
def check_user (key : ApiKey) (user_id : Int) : List Check × Except GatewayError Principal :=
  match accounts.find_by_id user_id with
  | .error error => ([.active user_id], .error error)
  | .ok none => ([.active user_id], .error (.new .unauthenticated "invalid API key"))
  | .ok (some status) =>
    if status ≠ .active then
      ([.active user_id], .error (.new .permissionDenied
        "account is not active; verify your email or contact the administrator"))
    else
      match read_balance accounts cached user_id with
      | .error error => ([.active user_id, .balance user_id], .error error)
      | .ok balance =>
        ([.active user_id, .balance user_id],
          if balance ≤ 0 then .error (.new .permissionDenied ("insufficient balance: " ++ fixed4 balance))
          else .ok (.from_api_key key))

/-- The checks that a request undergoes, and who makes it. -/
def authenticate (token : Option String) : List Check × Except GatewayError Principal :=
  if self.require_auth = false then ([], .ok (.local_user self.owner_id self.fallback_user_id))
  else
    match token with
    | none => ([], .error (.new .unauthenticated "missing API key; send it as `Authorization: Bearer <key>`"))
    | some token =>
      match accounts.find_by_plaintext token with
      | .error error => ([.key token], .error error)
      | .ok none => ([.key token], .error (.new .unauthenticated "invalid API key"))
      | .ok (some key) =>
        if key.is_usable now = false then
          ([.key token], .error (.new .unauthenticated "API key is disabled, expired, or out of quota"))
        else if key.owner_id ≠ self.owner_id then ([.key token], .error (.new .unauthenticated "invalid API key"))
        else
          let (checks, result) := check_user accounts cached key (key.user_id.getD self.fallback_user_id)
          (.key token :: checks, result)

end SingleUserAuthenticator

/-- The wallet operation of a settled request. A request without a user or
    without cost has none. -/
def wallet_charge (faults : Faults) (user_id : Option Int) (cost : ℚ) (request_id model : String) : Option (Operation ℚ) :=
  match user_id with
  | some user_id => if 0 < cost then some (.apply faults user_id (-cost) .charge (some request_id) model) else none
  | none => none

section Admission

variable {self : SingleUserAuthenticator} {accounts : Accounts} {cached : Int → Option ℚ} {now : Int}

/-- An admitted key was checked for one active user with a positive balance. -/
theorem check_user_ok {key : ApiKey} {user_id : Int} {checks : List Check} {principal : Principal}
    (h : SingleUserAuthenticator.check_user accounts cached key user_id = (checks, .ok principal)) :
    checks = [.active user_id, .balance user_id] ∧ principal = .from_api_key key := by
  unfold SingleUserAuthenticator.check_user at h
  split at h
  · cases h
  · cases h
  · split at h
    · cases h
    · split at h
      · cases h
      · split at h
        · cases h
        · obtain ⟨rfl, hprincipal⟩ := Prod.mk.inj h
          exact ⟨rfl, (Except.ok.inj hprincipal).symm⟩

/-- An admitted request with a key is made by that key's principal. -/
theorem authenticate_ok {token : String} {key : ApiKey} {checks : List Check} {principal : Principal}
    (hrequire : self.require_auth = true) (hkey : accounts.find_by_plaintext token = .ok (some key))
    (h : self.authenticate accounts cached now (some token) = (checks, .ok principal)) :
    checks = [.key token, .active (key.user_id.getD self.fallback_user_id),
        .balance (key.user_id.getD self.fallback_user_id)] ∧ principal = .from_api_key key := by
  unfold SingleUserAuthenticator.authenticate at h
  rw [hrequire, if_neg (by decide)] at h
  simp only [hkey] at h
  split at h
  · cases h
  · split at h
    · cases h
    · obtain ⟨rfl, hresult⟩ := Prod.mk.inj h
      have hadmit : SingleUserAuthenticator.check_user accounts cached key (key.user_id.getD self.fallback_user_id) =
          ((SingleUserAuthenticator.check_user accounts cached key (key.user_id.getD self.fallback_user_id)).1, .ok principal) := by
        rw [← hresult]
      obtain ⟨hchecks, hprincipal⟩ := check_user_ok hadmit
      rw [hchecks]
      exact ⟨rfl, hprincipal⟩

end Admission

/-- One user stands behind a request: it is checked at authentication, its
    channels are the ones the request sees beside the shared ones, and it pays. -/
structure OneIdentity (checks : List Check) (principal : Principal) (u : Int) : Prop where
  active : ∀ v, .active v ∈ checks ↔ v = u
  balance : ∀ v, .balance v ∈ checks ↔ v = u
  visible : ∀ channels channel, channel.visibility = .exclusive →
    (channel ∈ channels_for channels principal.gateway_user_id ↔ channel ∈ channels ∧ channel.user_id = some u)
  charged : ∀ faults cost request_id model, 0 < cost →
    wallet_charge faults principal.user_id cost request_id model =
      some (.apply faults u (-cost) .charge (some request_id) model)

section Identity

variable {self : SingleUserAuthenticator} {accounts : Accounts} {cached : Int → Option ℚ} {now : Int} {token : String}
  {key : ApiKey} {checks : List Check} {principal : Principal}

theorem OneIdentity.user_id {u : Int} (h : OneIdentity checks principal u) : principal.user_id = some u := by
  have hcharge := h.charged (fun _ => none) 1 "" "" zero_lt_one
  cases huser : principal.user_id with
  | none => simp [wallet_charge, huser] at hcharge
  | some v =>
    simp only [wallet_charge, huser, zero_lt_one, if_true, Option.some.injEq] at hcharge
    obtain ⟨-, rfl, -⟩ := Operation.apply.inj hcharge
    rfl

/-- A request that is made with a key has one identity exactly when keys are
    required and the key belongs to a user. -/
theorem one_identity_iff (hkey : accounts.find_by_plaintext token = .ok (some key))
    (hadmitted : self.authenticate accounts cached now (some token) = (checks, .ok principal)) :
    (∃ u, OneIdentity checks principal u) ↔ self.require_auth = true ∧ key.user_id.isSome = true := by
  constructor
  · rintro ⟨u, hidentity⟩
    cases hrequire : self.require_auth with
    | false =>
      simp only [SingleUserAuthenticator.authenticate, hrequire, if_true] at hadmitted
      obtain ⟨rfl, -⟩ := Prod.mk.inj hadmitted
      exact absurd ((hidentity.active u).mpr rfl) (by simp)
    | true =>
      obtain ⟨-, rfl⟩ := authenticate_ok hrequire hkey hadmitted
      have huser : key.user_id = some u := hidentity.user_id
      simp [huser]
  · rintro ⟨hrequire, huser⟩
    obtain ⟨u, hu⟩ := Option.isSome_iff_exists.mp huser
    obtain ⟨rfl, rfl⟩ := authenticate_ok hrequire hkey hadmitted
    refine ⟨u, ?_, ?_, ?_, ?_⟩
    · intro v
      simp [hu]
    · intro v
      simp [hu]
    · intro channels channel hvisibility
      simp [channels_for, Principal.gateway_user_id, Principal.from_api_key, hu, hvisibility]
    · intro faults cost request_id model hcost
      simp [wallet_charge, Principal.from_api_key, hu, hcost]

end Identity

/-- A key with the given user, and a store that holds it and every user as
    active with one unit of credit. -/
def sample_key (user_id : Option Int) : ApiKey where
  id := 1
  owner_id := 1
  user_id := user_id
  name := "default"
  enabled := true
  allowed_models := []
  allowed_tags := []
  quota := 0
  used_quota := 0
  budget := 0
  used_budget := 0
  expires_at := none

def sample_accounts (user_id : Option Int) : Accounts where
  find_by_plaintext _ := .ok (some (sample_key user_id))
  find_by_id _ := .ok (some .active)
  balance _ := .ok 1

def sample_authenticator : SingleUserAuthenticator where
  require_auth := true
  owner_id := 1
  fallback_user_id := 7

theorem sample_authenticate (user_id : Option Int) :
    sample_authenticator.authenticate (sample_accounts user_id) (fun _ => none) 0 (some "rk") =
      ([.key "rk", .active (user_id.getD 7), .balance (user_id.getD 7)], .ok (.from_api_key (sample_key user_id))) := by
  have hbalance : ¬ (1 : ℚ) ≤ 0 := not_le.mpr zero_lt_one
  simp [SingleUserAuthenticator.authenticate, SingleUserAuthenticator.check_user, SingleUserAuthenticator.read_balance,
    sample_authenticator, sample_accounts, sample_key, ApiKey.is_usable, hbalance]

theorem owned_key_one_identity :
    ∃ u, OneIdentity [.key "rk", .active 5, .balance 5] (.from_api_key (sample_key (some 5))) u :=
  (one_identity_iff rfl (sample_authenticate (some 5))).mpr ⟨rfl, rfl⟩

/-- A key without a user is checked for the fallback user, sees the private
    channels of its tenant's number, and nobody pays for it. -/
theorem unowned_key_three_identities :
    sample_authenticator.authenticate (sample_accounts none) (fun _ => none) 0 (some "rk") =
        ([.key "rk", .active 7, .balance 7], .ok (.from_api_key (sample_key none))) ∧
      (Principal.from_api_key (sample_key none)).gateway_user_id = 1 ∧
      (∀ cost request_id, wallet_charge (fun _ => none) (Principal.from_api_key (sample_key none)).user_id cost request_id
        "m" = none) ∧
      ¬ ∃ u, OneIdentity [.key "rk", .active 7, .balance 7] (.from_api_key (sample_key none)) u := by
  refine ⟨sample_authenticate none, rfl, fun _ _ => rfl, ?_⟩
  rintro ⟨u, hidentity⟩
  have huser : (none : Option Int) = some u := hidentity.user_id
  cases huser

end refract.gateway
