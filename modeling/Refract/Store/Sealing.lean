import Refract.Core.Validation
import Refract.Machine.Transaction
import Refract.Store.Crypto
import Refract.Store.Marks
import Refract.Store.Wallet

open refract.core refract.json refract.machine refract.stream

namespace refract.store

/-- The numbers that are drawn for the encryptions of one write. -/
structure Nonces where
  credential : Nonce
  pool : Nat → Nonce
  endpoint : Nat → Nonce

section Seal

variable (cipher : Cipher) (master_key : Option MasterKey)

/-- What is stored of a credential. A text that is encrypted already stays as it
    is. -/
def seal_credential (value : String) (nonce : Nonce) : Except StoreError String :=
  match master_key with
  | some key =>
    if is_encrypted value then .ok value
    else (encrypt_credential cipher value key nonce).mapError fun error => .encryption error.to_string
  | none => .ok value

/-- What is read of a stored text. What cannot be decrypted is passed through. -/
def open_credential (stored : String) : String :=
  match master_key with
  | some key =>
    if is_encrypted stored then
      match decrypt_credential cipher stored key with
      | .ok plain => plain
      | .error _ => stored
    else stored
  | none => stored

def seal_pool (nonces : Nat → Nonce) : List Credential → Except StoreError (List Credential)
  | [] => .ok []
  | c :: credentials => do
    let sealed ← seal_credential cipher master_key c.value (nonces 0)
    let rest ← seal_pool (fun idx => nonces (idx + 1)) credentials
    return ⟨sealed⟩ :: rest

def open_pool (pool : List Credential) : List Credential :=
  (pool.map fun c => ⟨open_credential cipher master_key c.value⟩).filter (!·.is_empty)

def seal_own (credential : Option Credential) (nonce : Nonce) : Except StoreError (Option Credential) :=
  match credential with
  | some c => (seal_credential cipher master_key c.value nonce).map fun stored => some ⟨stored⟩
  | none => .ok none

def seal_endpoints (nonces : Nat → Nonce) : List ChannelEndpoint → Except StoreError (List ChannelEndpoint)
  | [] => .ok []
  | ep :: endpoints => do
    let sealed_credential ← seal_own cipher master_key ep.credential (nonces 0)
    let rest ← seal_endpoints (fun idx => nonces (idx + 1)) endpoints
    return { ep with credential := sealed_credential } :: rest

def load_endpoints (endpoints : List ChannelEndpoint) : List ChannelEndpoint :=
  (sort_by_key (·.order) endpoints).map fun ep =>
    { ep with credential := ep.credential.map fun c => ⟨open_credential cipher master_key c.value⟩ }

/-- A channel as it is stored. -/
def seal_channel (nonces : Nonces) (channel : Channel) : Except StoreError Channel := do
  let sealed_credential ← seal_credential cipher master_key channel.credential.value nonces.credential
  let sealed_pool ← seal_pool cipher master_key nonces.pool channel.credentials
  let sealed_endpoints ← seal_endpoints cipher master_key nonces.endpoint channel.endpoints
  return { channel with credential := ⟨sealed_credential⟩, credentials := sealed_pool, endpoints := sealed_endpoints }

/-- A channel as it is read. -/
def assemble (row : Channel) : Channel :=
  { row with
    credential := ⟨open_credential cipher master_key row.credential.value⟩
    credentials := open_pool cipher master_key row.credentials
    endpoints := load_endpoints cipher master_key row.endpoints }

def validate_channel (channel : Channel) : Except StoreError Unit :=
  channel.validate.mapError fun error => .invalid error.to_string

def seal_channels (nonces : Nat → Nonces) : List Channel → Except StoreError (List Channel)
  | [] => .ok []
  | channel :: channels => do
    let sealed ← seal_channel cipher master_key (nonces 0) channel
    let rest ← seal_channels (fun idx => nonces (idx + 1)) channels
    return sealed :: rest

/-- A transaction on the rows, for channels that are given as they are read. -/
def seal_change (nonces : Nat → Nonces) : ChannelChange → Except StoreError ChannelChange
  | .create channel => do
    validate_channel channel
    return .create (← seal_channel cipher master_key (nonces 0) channel)
  | .replace_all channels => do
    channels.forM validate_channel
    return .replace_all (← seal_channels cipher master_key nonces channels)
  | .update channel => do
    validate_channel channel
    return .update (← seal_channel cipher master_key (nonces 0) channel)
  | change => .ok change

end Seal

/-- The table of channels, and the master key that the gateway was started with. -/
structure SealedRepo where
  repo : ChannelRepo := {}
  master_key : Option MasterKey := none

inductive SealedEvent where
  /-- The gateway is started again, with another configuration. -/
  | configure (master_key : Option MasterKey)
  | write (change : ChannelChange) (nonces : Nat → Nonces)

namespace SealedRepo

variable (cipher : Cipher) (self : SealedRepo)

/-- A channel as an administrator sees it. -/
def get (id : Int) : Option Channel := (self.repo.get id).map (assemble cipher self.master_key)

/-- The table after a transaction, unless it fails. -/
def commit (nonces : Nat → Nonces) (change : ChannelChange) : Option ChannelRepo :=
  match seal_change cipher self.master_key nonces change with
  | .ok sealed => sealed.commit self.repo
  | .error _ => none

def step : SealedEvent → SealedRepo
  | .configure master_key => { self with master_key }
  | .write change nonces => { self with repo := (self.commit cipher nonces change).getD self.repo }

end SealedRepo

/-- A place where a channel has credentials. -/
inductive CredentialSlot where
  | default
  | pool
  | endpoint (protocol : Protocol)
  deriving DecidableEq, Repr

def CredentialSlot.values (channel : Channel) : CredentialSlot → List String
  | .default => [channel.credential.value]
  | .pool => channel.credentials.map (·.value)
  | .endpoint protocol => channel.endpoints.filterMap fun ep => if ep.protocol = protocol then ep.credential.map (·.value) else none

/-- The number that a channel has once it is written. -/
def ChannelChange.written (repo : ChannelRepo) : ChannelChange → Option (Int × Channel)
  | .create channel => some (repo.next_id, channel)
  | .update channel => some (channel.id, channel)
  | _ => none

/-- A text is stored encrypted under the master key, once. Without a key, or if it looks
    encrypted, it is stored as it is. -/
def StoredAs (cipher : Cipher) (master_key : Option MasterKey) (value stored : String) : Prop :=
  (stored = value ∧ (master_key = none ∨ is_encrypted value = true)) ∨
    ∃ key, master_key = some key ∧ is_encrypted value = false ∧ Sealed cipher key value stored

section Writing

variable {cipher : Cipher} {master_key : Option MasterKey} {channel row : Channel}

theorem seal_credential_stored {value stored : String} {nonce : Nonce}
    (hseal : seal_credential cipher master_key value nonce = .ok stored) : StoredAs cipher master_key value stored := by
  unfold seal_credential at hseal
  cases master_key with
  | none => exact .inl ⟨(Except.ok.inj hseal).symm, .inl rfl⟩
  | some key =>
    cases hencrypted : is_encrypted value with
    | true =>
      simp only [hencrypted, if_true, Except.ok.injEq] at hseal
      exact .inl ⟨hseal.symm, .inr hencrypted⟩
    | false =>
      simp only [hencrypted, Bool.false_eq_true, if_false] at hseal
      cases hresult : encrypt_credential cipher value key nonce with
      | error error =>
        rw [hresult] at hseal
        cases hseal
      | ok text =>
        rw [hresult] at hseal
        obtain rfl := Except.ok.inj hseal
        exact .inr ⟨key, rfl, hencrypted, nonce, hresult⟩

theorem seal_pool_stored {nonces : Nat → Nonce} {credentials pool : List Credential}
    (hseal : seal_pool cipher master_key nonces credentials = .ok pool) :
    List.Forall₂ (StoredAs cipher master_key) (credentials.map (·.value)) (pool.map (·.value)) := by
  induction credentials generalizing nonces pool with
  | nil =>
    obtain rfl := Except.ok.inj hseal
    exact .nil
  | cons c credentials ih =>
    obtain ⟨sealed, hsealed, hseal⟩ := bind_eq_ok.mp hseal
    obtain ⟨rest, hrest, hseal⟩ := bind_eq_ok.mp hseal
    obtain rfl := Except.ok.inj hseal
    exact .cons (seal_credential_stored hsealed) (ih hrest)

theorem seal_endpoints_stored {nonces : Nat → Nonce} {endpoints sealed : List ChannelEndpoint}
    (hseal : seal_endpoints cipher master_key nonces endpoints = .ok sealed) (protocol : Protocol) :
    List.Forall₂ (StoredAs cipher master_key)
      (endpoints.filterMap fun ep => if ep.protocol = protocol then ep.credential.map (·.value) else none)
      (sealed.filterMap fun ep => if ep.protocol = protocol then ep.credential.map (·.value) else none) := by
  induction endpoints generalizing nonces sealed with
  | nil =>
    obtain rfl := Except.ok.inj hseal
    exact .nil
  | cons ep endpoints ih =>
    obtain ⟨credential, hcredential, hseal⟩ := bind_eq_ok.mp hseal
    obtain ⟨rest, hrest, hseal⟩ := bind_eq_ok.mp hseal
    obtain rfl := Except.ok.inj hseal
    have hothers := ih hrest
    by_cases hprotocol : ep.protocol = protocol
    · cases hown : ep.credential with
      | none =>
        rw [hown] at hcredential
        obtain rfl := Except.ok.inj hcredential
        simpa [List.filterMap_cons, hprotocol, hown] using hothers
      | some c =>
        rw [hown] at hcredential
        obtain ⟨stored, hstored, rfl⟩ := map_eq_ok.mp hcredential
        simpa [List.filterMap_cons, hprotocol, hown] using ⟨seal_credential_stored hstored, hothers⟩
    · simpa [List.filterMap_cons, hprotocol] using hothers

/-- Every credential of a channel is stored for itself. -/
theorem seal_channel_stored {nonces : Nonces} (hseal : seal_channel cipher master_key nonces channel = .ok row)
    (slot : CredentialSlot) : List.Forall₂ (StoredAs cipher master_key) (slot.values channel) (slot.values row) := by
  obtain ⟨credential, hcredential, hseal⟩ := bind_eq_ok.mp hseal
  obtain ⟨pool, hpool, hseal⟩ := bind_eq_ok.mp hseal
  obtain ⟨endpoints, hendpoints, hseal⟩ := bind_eq_ok.mp hseal
  obtain rfl := Except.ok.inj hseal
  cases slot with
  | default => exact .cons (seal_credential_stored hcredential) .nil
  | pool => exact seal_pool_stored hpool
  | endpoint protocol => exact seal_endpoints_stored hendpoints protocol

end Writing

section Reading

variable {cipher : Cipher} {master_key : Option MasterKey} {key : MasterKey} {row : Channel} {slot : CredentialSlot} {value stored : String}

/-- All stored texts of a place are read, but for the blank ones. -/
theorem mem_values_assemble (hstored : stored ∈ slot.values row) (hblank : trim (open_credential cipher master_key stored) ≠ "") :
    open_credential cipher master_key stored ∈ slot.values (assemble cipher master_key row) := by
  cases slot with
  | default =>
    obtain rfl := List.mem_singleton.mp hstored
    exact .head _
  | pool =>
    obtain ⟨c, hc, rfl⟩ := List.mem_map.mp hstored
    refine List.mem_map.mpr ⟨⟨open_credential cipher master_key c.value⟩, List.mem_filter.mpr ⟨List.mem_map_of_mem hc, ?_⟩, rfl⟩
    simpa [Credential.is_empty] using hblank
  | endpoint protocol =>
    obtain ⟨ep, hep, hvalue⟩ := List.mem_filterMap.mp hstored
    refine List.mem_filterMap.mpr ⟨_, List.mem_map_of_mem ((sort_by_key_perm _ _).mem_iff.mpr hep), ?_⟩
    split at hvalue
    next hprotocol =>
      obtain ⟨c, hc, rfl⟩ := Option.map_eq_some_iff.mp hvalue
      simp [hprotocol, hc]
    · cases hvalue

theorem Sealed.open_own (hcipher : cipher.Correct) (hsealed : Sealed cipher key value stored) :
    open_credential cipher (some key) stored = value := by
  simp only [open_credential, hsealed.encrypted, if_true, hsealed.decrypt hcipher]

/-- Without the key an encrypted text is read as it is. -/
theorem Sealed.open_other (hcipher : cipher.Correct) (hsealed : Sealed cipher key value stored) (hother : master_key ≠ some key) :
    open_credential cipher master_key stored = stored := by
  cases master_key with
  | none => rfl
  | some other =>
    have hne : other ≠ key := fun hsame => hother (congrArg some hsame)
    simp only [open_credential, hsealed.encrypted, if_true, hsealed.decrypt_other hcipher hne]

/-- The step: what is read of an encrypted text is stored as an encryption with the same key
    again, whatever the key of the moment is. -/
theorem Sealed.rewritten (hcipher : cipher.Correct) (hsealed : Sealed cipher key value stored) (hplain : is_encrypted value = false)
    {again : String} (hagain : StoredAs cipher master_key (open_credential cipher master_key stored) again) :
    Sealed cipher key value again := by
  by_cases hkey : master_key = some key
  · subst hkey
    rw [hsealed.open_own hcipher] at hagain
    rcases hagain with ⟨-, hnone | hencrypted⟩ | ⟨other, hother, -, hagain⟩
    · cases hnone
    · cases hplain.symm.trans hencrypted
    · obtain rfl := Option.some.inj hother
      exact hagain
  · rw [hsealed.open_other hcipher hkey] at hagain
    rcases hagain with ⟨rfl, -⟩ | ⟨other, -, hlooks, -⟩
    · exact hsealed
    · cases hlooks.symm.trans hsealed.encrypted

end Reading

section Changes

variable {cipher : Cipher} {master_key : Option MasterKey} {nonces : Nat → Nonces} {change : ChannelChange} {row : Channel}

theorem seal_change_create {channel : Channel} {sealed : ChannelChange}
    (hseal : seal_change cipher master_key nonces (.create channel) = .ok sealed) :
    ∃ row, sealed = .create row ∧ seal_channel cipher master_key (nonces 0) channel = .ok row := by
  obtain ⟨-, -, hseal⟩ := bind_eq_ok.mp hseal
  obtain ⟨row, hrow, hseal⟩ := bind_eq_ok.mp hseal
  exact ⟨row, (Except.ok.inj hseal).symm, hrow⟩

theorem seal_change_update {channel : Channel} {sealed : ChannelChange}
    (hseal : seal_change cipher master_key nonces (.update channel) = .ok sealed) :
    ∃ row, sealed = .update row ∧ seal_channel cipher master_key (nonces 0) channel = .ok row := by
  obtain ⟨-, -, hseal⟩ := bind_eq_ok.mp hseal
  obtain ⟨row, hrow, hseal⟩ := bind_eq_ok.mp hseal
  exact ⟨row, (Except.ok.inj hseal).symm, hrow⟩

/-- Only an update becomes an update. -/
theorem seal_change_eq_update (hseal : seal_change cipher master_key nonces change = .ok (.update row)) :
    ∃ channel, change = .update channel ∧ seal_channel cipher master_key (nonces 0) channel = .ok row := by
  cases change with
  | update channel =>
    obtain ⟨sealed, hsealed, hrow⟩ := seal_change_update hseal
    obtain rfl := ChannelChange.update.inj hsealed
    exact ⟨channel, rfl, hrow⟩
  | create channel =>
    obtain ⟨_, hsealed, -⟩ := seal_change_create hseal
    cases hsealed
  | replace_all channels =>
    obtain ⟨-, -, hseal⟩ := bind_eq_ok.mp hseal
    obtain ⟨_, -, hseal⟩ := bind_eq_ok.mp hseal
    cases hseal
  | _ => cases hseal

theorem seal_channel_id {nonces : Nonces} {channel : Channel} (hseal : seal_channel cipher master_key nonces channel = .ok row) :
    row.id = channel.id := by
  obtain ⟨_, -, hseal⟩ := bind_eq_ok.mp hseal
  obtain ⟨_, -, hseal⟩ := bind_eq_ok.mp hseal
  obtain ⟨_, -, hseal⟩ := bind_eq_ok.mp hseal
  obtain rfl := Except.ok.inj hseal
  rfl

/-- All transactions but updates leave the credentials of a row alone. -/
theorem ChannelChange.rewrite_values (change : ChannelChange) (row : Channel) (slot : CredentialSlot) :
    (∃ channel, change = .update channel ∧ slot.values (change.rewrite row) = slot.values channel) ∨
      slot.values (change.rewrite row) = slot.values row := by
  cases change with
  | update channel => exact .inl ⟨channel, rfl, by cases slot <;> rfl⟩
  | _ => exact .inr (by cases slot <;> rfl)

end Changes

namespace SealedRepo

variable {cipher : Cipher} {self : SealedRepo} {nonces : Nat → Nonces} {change : ChannelChange} {after : ChannelRepo}

theorem commit_eq_some :
    self.commit cipher nonces change = some after ↔
      ∃ sealed, seal_change cipher self.master_key nonces change = .ok sealed ∧ sealed.commit self.repo = some after := by
  unfold commit
  cases seal_change cipher self.master_key nonces change with
  | error => simp
  | ok sealed => simp

theorem numbered_commit (hnumbered : self.repo.Numbered) (hcommit : self.commit cipher nonces change = some after) :
    after.Numbered := by
  obtain ⟨sealed, -, hcommit⟩ := commit_eq_some.mp hcommit
  exact hnumbered.commit hcommit

theorem numbered_step (event : SealedEvent) (hnumbered : self.repo.Numbered) : (self.step cipher event).repo.Numbered := by
  cases event with
  | configure => exact hnumbered
  | write change nonces =>
    cases hcommit : self.commit cipher nonces change with
    | none => simpa [step, hcommit] using hnumbered
    | some after => simpa [step, hcommit] using numbered_commit hnumbered hcommit

/-- What a write leaves of a channel: a row with its number, where every credential is
    stored for itself. -/
theorem commit_written {id : Int} {channel : Channel} (hcommit : self.commit cipher nonces change = some after)
    (hwritten : change.written self.repo = some (id, channel)) :
    ∃ row ∈ after.rows, row.id = id ∧
      ∀ slot : CredentialSlot, List.Forall₂ (StoredAs cipher self.master_key) (slot.values channel) (slot.values row) := by
  obtain ⟨sealed, hseal, hcommit⟩ := commit_eq_some.mp hcommit
  cases change with
  | create written =>
    obtain ⟨rfl, rfl⟩ := Prod.mk.inj (Option.some.inj hwritten)
    obtain ⟨row, rfl, hrow⟩ := seal_change_create hseal
    obtain rfl := Option.some.inj hcommit
    refine ⟨_, ChannelRepo.mem_insert_channel.mpr (.inr rfl), rfl, fun slot => ?_⟩
    have hvalues := seal_channel_stored hrow slot
    cases slot <;> exact hvalues
  | update written =>
    obtain ⟨rfl, rfl⟩ := Prod.mk.inj (Option.some.inj hwritten)
    obtain ⟨row, rfl, hrow⟩ := seal_change_update hseal
    obtain ⟨⟨old, hold, howned⟩, rfl⟩ := ChannelRepo.ensure_affected_eq_some.mp hcommit
    have hid : row.id = written.id := seal_channel_id hrow
    refine ⟨_, ChannelRepo.mem_set_rows.mpr ⟨old, hold, rfl⟩, ?_, fun slot => ?_⟩
    · rw [if_pos howned]
      exact hid
    · rw [if_pos howned]
      have hvalues := seal_channel_stored hrow slot
      cases slot <;> exact hvalues
  | _ => cases hwritten

/-- The channel of a number, if it is still there, holds an encryption of a value. -/
structure Holding (cipher : Cipher) (key : MasterKey) (id : Int) (slot : CredentialSlot) (value : String) (state : SealedRepo) :
    Prop where
  known : id < state.repo.next_id
  sealed : ∀ row ∈ state.repo.rows, ChannelRepo.owned id row = true → ∃ stored ∈ slot.values row, Sealed cipher key value stored

/-- An update of a channel brings what is read of the texts that the key opens to a
    value. -/
def Carries (cipher : Cipher) (key : MasterKey) (id : Int) (slot : CredentialSlot) (value : String) (state : SealedRepo) :
    SealedEvent → Prop
  | .write (.update channel) _ => channel.id = id → ∀ row ∈ state.repo.rows, ChannelRepo.owned id row = true →
    ∀ stored ∈ slot.values row, open_credential cipher (some key) stored = value →
      open_credential cipher state.master_key stored ∈ slot.values channel
  | _ => True

variable {key : MasterKey} {id : Int} {slot : CredentialSlot} {value : String} {channel : Channel}

theorem owned_id {row : Channel} (howned : ChannelRepo.owned id row = true) : row.id = id := by
  simp only [ChannelRepo.owned, Bool.and_eq_true, decide_eq_true_eq] at howned
  exact howned.1

theorem owned_rewrite {sealed : ChannelChange} {row : Channel} (hmeant : sealed.meant row = true)
    (howned : ChannelRepo.owned id (sealed.rewrite row) = true) : ChannelRepo.owned id row = true := by
  rw [ChannelRepo.owned, sealed.rewrite_owner_id, ChannelChange.rewrite_id hmeant] at howned
  exact howned

/-- The step of the credential: it stays where it is, encrypted with its key. -/
theorem Holding.commit (hcipher : cipher.Correct) (hplain : is_encrypted value = false)
    (hholding : Holding cipher key id slot value self) (hcarries : self.Carries cipher key id slot value (.write change nonces))
    (hcommit : self.commit cipher nonces change = some after) :
    Holding cipher key id slot value { self with repo := after } := by
  obtain ⟨sealed, hseal, hcommit⟩ := commit_eq_some.mp hcommit
  refine ⟨hholding.known.trans_le (ChannelRepo.next_id_le_commit hcommit), fun row hrow howned => ?_⟩
  rcases sealed.commit_rows hcommit hrow with ⟨old, hold, rfl⟩ | ⟨hnew, -⟩
  · by_cases hmeant : sealed.meant old = true
    · rw [if_pos hmeant] at howned ⊢
      have hbefore := owned_rewrite hmeant howned
      obtain ⟨stored, hstored, hsealed⟩ := hholding.sealed old hold hbefore
      rcases sealed.rewrite_values old slot with ⟨row, rfl, hvalues⟩ | hvalues
      · obtain ⟨channel, rfl, hrow⟩ := seal_change_eq_update hseal
        have hid : channel.id = id := by
          rw [← seal_channel_id hrow, ← owned_id howned]
          rfl
        have hcarried := hcarries hid old hold hbefore stored hstored (hsealed.open_own hcipher)
        obtain ⟨again, hagain, hstored_as⟩ := exists_of_mem_forall₂ (seal_channel_stored hrow slot) hcarried
        rw [hvalues]
        exact ⟨again, hagain, hsealed.rewritten hcipher hplain hstored_as⟩
      · rw [hvalues]
        exact ⟨stored, hstored, hsealed⟩
    · rw [if_neg hmeant] at howned ⊢
      exact hholding.sealed old hold howned
  · exact absurd hholding.known (not_lt.mpr (owned_id howned ▸ hnew))

theorem Holding.step (hcipher : cipher.Correct) (hplain : is_encrypted value = false) {state : SealedRepo} {event : SealedEvent}
    (hholding : Holding cipher key id slot value state) (hcarries : state.Carries cipher key id slot value event) :
    Holding cipher key id slot value (state.step cipher event) := by
  cases event with
  | configure => exact ⟨hholding.known, hholding.sealed⟩
  | write change nonces =>
    cases hcommit : state.commit cipher nonces change with
    | none => simpa [SealedRepo.step, hcommit] using hholding
    | some after => simpa [SealedRepo.step, hcommit] using hholding.commit hcipher hplain hcarries hcommit

/-- A credential that is written under a key is held. -/
theorem Holding.start (hnumbered : self.repo.Numbered) (hkey : self.master_key = some key) (hplain : is_encrypted value = false)
    (hcommit : self.commit cipher nonces change = some after) (hwritten : change.written self.repo = some (id, channel))
    (hvalue : value ∈ slot.values channel) : Holding cipher key id slot value { self with repo := after } := by
  obtain ⟨row, hrow, hid, hstored⟩ := commit_written hcommit hwritten
  have hafter := numbered_commit hnumbered hcommit
  refine ⟨hid ▸ hafter.below row hrow, fun other hother howned => ?_⟩
  obtain rfl : other = row := List.inj_on_of_nodup_map hafter.nodup hother hrow ((owned_id howned).trans hid.symm)
  obtain ⟨stored, hmem, hstored_as⟩ := exists_of_mem_forall₂ (hstored slot) hvalue
  rcases hstored_as with ⟨-, hnone | hencrypted⟩ | ⟨other, hother, -, hsealed⟩
  · cases hkey.symm.trans hnone
  · cases hplain.symm.trans hencrypted
  · obtain rfl := Option.some.inj (hkey.symm.trans hother)
    exact ⟨stored, hmem, hsealed⟩

/-- What is held is read with its key. -/
theorem Holding.read (hcipher : cipher.Correct) {state : SealedRepo} (hholding : Holding cipher key id slot value state)
    (hblank : trim value ≠ "") (hkey : state.master_key = some key) {read : Channel} (hread : state.get cipher id = some read) :
    value ∈ slot.values read := by
  obtain ⟨row, hrow, rfl⟩ := Option.map_eq_some_iff.mp hread
  obtain ⟨stored, hstored, hsealed⟩ := hholding.sealed row (List.mem_of_find?_eq_some hrow) (List.find?_some hrow)
  have hopens : open_credential cipher state.master_key stored = value := by rw [hkey, hsealed.open_own hcipher]
  exact hopens ▸ mem_values_assemble hstored (hopens ▸ hblank)

end SealedRepo

/-- What becomes of the credentials in a history of writes and configurations. -/
structure CredentialsKept (cipher : Cipher) (events : List SealedEvent) : Prop where
  /-- Every write stores each credential encrypted under the master key, once. Without a
      key, or if it looks encrypted, it is stored as it is. -/
  written : ∀ before change nonces, before ++ [.write change nonces] <+: events →
    ∀ after id channel, (before.foldl (SealedRepo.step cipher) {}).commit cipher nonces change = some after →
      change.written (before.foldl (SealedRepo.step cipher) {}).repo = some (id, channel) →
      ∃ row ∈ after.rows, row.id = id ∧ ∀ slot : CredentialSlot,
        List.Forall₂ (StoredAs cipher (before.foldl (SealedRepo.step cipher) {}).master_key) (slot.values channel) (slot.values row)
  /-- What was written under a key is read whenever the key is there, as long as the updates
      carry it. -/
  kept : ∀ before change nonces rest, events = before ++ .write change nonces :: rest →
    ∀ after id channel key, (before.foldl (SealedRepo.step cipher) {}).commit cipher nonces change = some after →
      change.written (before.foldl (SealedRepo.step cipher) {}).repo = some (id, channel) →
      (before.foldl (SealedRepo.step cipher) {}).master_key = some key →
      ∀ slot value, value ∈ slot.values channel → trim value ≠ "" → is_encrypted value = false →
        Along (SealedRepo.step cipher) (SealedRepo.Carries cipher key id slot value)
          ((before.foldl (SealedRepo.step cipher) {}).step cipher (.write change nonces)) rest →
        Throughout (SealedRepo.step cipher)
          (fun state => state.master_key = some key → ∀ read, state.get cipher id = some read → value ∈ slot.values read)
          ((before.foldl (SealedRepo.step cipher) {}).step cipher (.write change nonces)) rest

/-- No history loses a credential or stores one in the clear under a master key, unless it
    looks encrypted. -/
theorem credentials_kept (cipher : Cipher) (hcipher : cipher.Correct) (events : List SealedEvent) : CredentialsKept cipher events where
  written _ _ _ _ _ _ _ hcommit hwritten := SealedRepo.commit_written hcommit hwritten
  kept before change nonces rest _ after id channel key hcommit hwritten hkey slot value hvalue hblank hplain halong := by
    have hnumbered : (before.foldl (SealedRepo.step cipher) {}).repo.Numbered :=
      List.foldlRecOn before (SealedRepo.step cipher) (motive := fun state => state.repo.Numbered) ChannelRepo.Numbered.empty
        fun _ hnumbered event _ => SealedRepo.numbered_step event hnumbered
    have hstart : SealedRepo.Holding cipher key id slot value
        ((before.foldl (SealedRepo.step cipher) {}).step cipher (.write change nonces)) := by
      simpa [SealedRepo.step, hcommit] using SealedRepo.Holding.start hnumbered hkey hplain hcommit hwritten hvalue
    have hheld := halong.throughout (fun _ _ hholding hcarries => hholding.step hcipher hplain hcarries) hstart
    exact fun earlier hearlier hsame _ hread => (hheld earlier hearlier).read hcipher hblank hsame hread

def first_key : MasterKey := ⟨List.replicate 32 7, rfl⟩

def first_nonce : Nonce := ⟨List.replicate 12 1, rfl⟩

def first_ciphertext : Bytes := [5, 138, 164, 214, 105, 16, 162, 192, 63, 81, 45, 24, 166, 178, 137, 205, 204, 70, 39, 94]

/-- The cipher, for one key, one number and the credential `sk-a`. -/
def single_cipher : Cipher where
  encrypt key nonce plain :=
    if key = first_key ∧ nonce = first_nonce.val ∧ plain = as_bytes "sk-a" then some first_ciphertext else none
  decrypt key nonce sealed :=
    if key = first_key ∧ nonce = first_nonce.val ∧ sealed = first_ciphertext then some (as_bytes "sk-a") else none

theorem single_cipher_correct : single_cipher.Correct where
  opens key nonce plain sealed hencrypt := by
    simp only [single_cipher, Option.ite_none_right_eq_some, Option.some.injEq] at hencrypt ⊢
    obtain ⟨⟨hkey, hnonce, hplain⟩, hsealed⟩ := hencrypt
    exact ⟨⟨hkey, hnonce, hsealed.symm⟩, hplain.symm⟩
  refuses key other nonce plain sealed hencrypt hother := by
    simp only [single_cipher, Option.ite_none_right_eq_some] at hencrypt
    simp only [single_cipher, ite_eq_right_iff]
    exact fun h => absurd (h.1.trans hencrypt.1.1.symm) hother

/-- A channel with one credential. -/
def holder (credential : String) : Channel where
  id := 1
  owner_id := DEFAULT_OWNER_ID
  tags := []
  visibility := .shared
  user_id := none
  name := "main"
  credential := ⟨credential⟩
  endpoints := [{ protocol := .chat }]

def first_nonces (_ : Nat) : Nonces where
  credential := first_nonce
  pool _ := first_nonce
  endpoint _ := first_nonce

/-- A credential is written under a key, and saved again where there is none. -/
def saved_without_key : List SealedEvent :=
  [.configure (some first_key), .write (.create (holder "sk-a")) first_nonces, .configure none,
    .write (.update (holder "refract.v1.AQEBAQEBAQEBAQEBBYqk1mkQosA/US0YprKJzcxGJ14=")) first_nonces, .configure (some first_key)]

theorem saved_without_key_kept : CredentialsKept single_cipher saved_without_key :=
  credentials_kept single_cipher single_cipher_correct saved_without_key

example : (((saved_without_key.foldl (SealedRepo.step single_cipher) {}).get single_cipher 1).map (·.credential.value)) = some "sk-a" := by
  decide +kernel

/-- A credential that begins like an encrypted one is stored in the clear. -/
theorem lookalike_not_sealed :
    ¬∀ after, SealedRepo.commit single_cipher { master_key := some first_key } first_nonces (.create (holder "refract.v1.sk-a")) = some after →
      ∃ row ∈ after.rows, row.id = 1 ∧ ∀ slot : CredentialSlot,
        List.Forall₂ (Sealed single_cipher first_key) (slot.values (holder "refract.v1.sk-a")) (slot.values row) := by
  intro hall
  have hsome : (SealedRepo.commit single_cipher { master_key := some first_key } first_nonces
      (.create (holder "refract.v1.sk-a"))).isSome = true := by decide +kernel
  obtain ⟨after, hcommit⟩ := Option.isSome_iff_exists.mp hsome
  obtain ⟨row, -, -, hsealed⟩ := hall after hcommit
  obtain ⟨stored, -, nonce, hencrypt⟩ := exists_of_mem_forall₂ (hsealed .default) (List.mem_singleton_self "refract.v1.sk-a")
  have hother : as_bytes "refract.v1.sk-a" ≠ as_bytes "sk-a" := by decide +kernel
  simp [encrypt_credential, single_cipher, hother] at hencrypt

end refract.store
