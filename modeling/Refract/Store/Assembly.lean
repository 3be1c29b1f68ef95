import Refract.Store.Sealing

open refract.core refract.json refract.machine

namespace refract.store

/-- Every credential of a channel is of a kind. -/
structure Each (P : String → Prop) (channel : Channel) : Prop where
  credential : P channel.credential.value
  pool : ∀ c ∈ channel.credentials, P c.value
  endpoints : ∀ ep ∈ channel.endpoints, ∀ c, ep.credential = some c → P c.value

/-- No credential of a channel looks encrypted. -/
abbrev Plain (channel : Channel) : Prop := Each (is_encrypted · = false) channel

/-- An endpoint is stored with its credential. -/
def EndpointStored (cipher : Cipher) (master_key : Option MasterKey) (ep row : ChannelEndpoint) : Prop :=
  row = { ep with credential := row.credential } ∧
    Option.Rel (fun c stored => StoredAs cipher master_key c.value stored.value) ep.credential row.credential

/-- An endpoint as it is read. -/
def open_endpoint (cipher : Cipher) (current : Option MasterKey) (row : ChannelEndpoint) : ChannelEndpoint :=
  { row with credential := row.credential.map fun c => ⟨open_credential cipher current c.value⟩ }

/-- A channel as it is read from a row that it was written to. The endpoints are in their
    order, and what the gateway keeps about the channel is the row's. -/
def reread (channel row : Channel) : Channel :=
  { channel with
    id := row.id
    owner_id := row.owner_id
    enabled := row.enabled
    auto_disabled := row.auto_disabled
    balance := row.balance
    endpoints := sort_by_key (·.order) channel.endpoints }

/-- A row stands for a channel that was written to it, under whatever key. -/
def Stands (cipher : Cipher) (channel row : Channel) : Prop :=
  ∃ master_key nonces sealed, seal_channel cipher master_key nonces channel = .ok sealed ∧
    row = { sealed with
      id := row.id
      owner_id := row.owner_id
      enabled := row.enabled
      auto_disabled := row.auto_disabled
      balance := row.balance }

theorem is_encrypted_visible {text : String} (hencrypted : is_encrypted text = true) : trim text ≠ "" := by
  have hbegins : PREFIX.toList <+: text.toList := List.isPrefixOf_iff_prefix.mp hencrypted
  exact trim_ne_empty (hbegins.subset (by decide : 'r' ∈ PREFIX.toList)) (by decide)

section Stored

variable {cipher : Cipher} {master_key current : Option MasterKey} {value stored : String} {channel row : Channel}

/-- What was stored is read under its key, and under every key under which it does not look
    encrypted any more. -/
theorem StoredAs.opened (hcipher : cipher.Correct) (hplain : is_encrypted value = false)
    (hstored : StoredAs cipher master_key value stored)
    (hread : current = master_key ∨ is_encrypted (open_credential cipher current stored) = false) :
    open_credential cipher current stored = value := by
  rcases hstored with ⟨rfl, -⟩ | ⟨key, rfl, -, hsealed⟩
  · cases current with
    | none => rfl
    | some key => simp [open_credential, hplain]
  · by_cases hkey : current = some key
    · rw [hkey, hsealed.open_own hcipher]
    · rw [hsealed.open_other hcipher hkey] at hread
      rcases hread with hsame | hplain
      · exact absurd hsame hkey
      · cases hplain.symm.trans hsealed.encrypted

theorem seal_pool_each {nonces : Nat → Nonce} {credentials pool : List Credential}
    (hseal : seal_pool cipher master_key nonces credentials = .ok pool) :
    List.Forall₂ (fun c stored => StoredAs cipher master_key c.value stored.value) credentials pool := by
  have hvalues := seal_pool_stored hseal
  rwa [List.forall₂_map_left_iff, List.forall₂_map_right_iff] at hvalues

theorem seal_endpoints_each {nonces : Nat → Nonce} {endpoints sealed : List ChannelEndpoint}
    (hseal : seal_endpoints cipher master_key nonces endpoints = .ok sealed) :
    List.Forall₂ (EndpointStored cipher master_key) endpoints sealed := by
  induction endpoints generalizing nonces sealed with
  | nil =>
    obtain rfl := Except.ok.inj hseal
    exact .nil
  | cons ep endpoints ih =>
    obtain ⟨credential, hcredential, hseal⟩ := bind_eq_ok.mp hseal
    obtain ⟨rest, hrest, hseal⟩ := bind_eq_ok.mp hseal
    obtain rfl := Except.ok.inj hseal
    refine .cons ⟨rfl, ?_⟩ (ih hrest)
    cases hown : ep.credential with
    | none =>
      rw [hown] at hcredential
      obtain rfl := Except.ok.inj hcredential
      exact .none
    | some c =>
      rw [hown] at hcredential
      obtain ⟨text, htext, rfl⟩ := map_eq_ok.mp hcredential
      exact .some (seal_credential_stored htext)

/-- The pool of a row is read, if each of its keys is. -/
theorem open_pool_each {credentials pool : List Credential} (hvisible : ∀ c ∈ credentials, c.is_empty = false)
    (hopens : List.Forall₂ (fun c stored => open_credential cipher current stored.value = c.value) credentials pool) :
    open_pool cipher current pool = credentials := by
  induction hopens with
  | nil => rfl
  | cons hfirst _ ih =>
    obtain ⟨hc, hrest⟩ := List.forall_mem_cons.mp hvisible
    unfold open_pool at ih ⊢
    rw [List.map_cons, hfirst, List.filter_cons_of_pos (by simpa using hc), ih hrest]

theorem load_endpoints_eq (endpoints : List ChannelEndpoint) :
    load_endpoints cipher current endpoints = sort_by_key (·.order) (endpoints.map (open_endpoint cipher current)) := by
  have horder : ∀ ep, (open_endpoint cipher current ep).order = ep.order := fun _ => rfl
  exact map_sort_by_key (fun ep : ChannelEndpoint => ep.order) horder endpoints

theorem mem_load_endpoints {endpoints : List ChannelEndpoint} {row : ChannelEndpoint} (hrow : row ∈ endpoints) :
    open_endpoint cipher current row ∈ load_endpoints cipher current endpoints := by
  rw [load_endpoints_eq]
  exact (sort_by_key_perm _ _).mem_iff.mpr (List.mem_map_of_mem hrow)

theorem load_endpoints_each {endpoints sealed : List ChannelEndpoint}
    (hopens : List.Forall₂ (fun ep row => open_endpoint cipher current row = ep) endpoints sealed) :
    load_endpoints cipher current sealed = sort_by_key (·.order) endpoints := by
  have hmap : sealed.map (open_endpoint cipher current) = endpoints := by
    induction hopens with
    | nil => rfl
    | cons hfirst _ ih => rw [List.map_cons, hfirst, ih]
  rw [load_endpoints_eq, hmap]

/-- A blank key does not look encrypted, so that none that does is left out. -/
theorem plain_of_open_pool {pool : List Credential} (hread : ∀ c ∈ open_pool cipher current pool, is_encrypted c.value = false) :
    ∀ stored ∈ pool, is_encrypted (open_credential cipher current stored.value) = false := by
  intro stored hstored
  by_contra hencrypted
  rw [Bool.not_eq_false] at hencrypted
  have hvisible := is_encrypted_visible hencrypted
  have hmem : (⟨open_credential cipher current stored.value⟩ : Credential) ∈ open_pool cipher current pool := by
    refine List.mem_filter.mpr ⟨List.mem_map_of_mem hstored, ?_⟩
    simpa [Credential.is_empty] using hvisible
  cases (hread _ hmem).symm.trans hencrypted

theorem open_endpoint_stored (hcipher : cipher.Correct) {ep endpoint : ChannelEndpoint}
    (hplain : ∀ c, ep.credential = some c → is_encrypted c.value = false) (hstored : EndpointStored cipher master_key ep endpoint)
    (hread : current = master_key ∨ ∀ c, (open_endpoint cipher current endpoint).credential = some c → is_encrypted c.value = false) :
    open_endpoint cipher current endpoint = ep := by
  obtain ⟨hsame, hcredential⟩ := hstored
  have hopened : (endpoint.credential.map fun c => (⟨open_credential cipher current c.value⟩ : Credential)) = ep.credential := by
    cases hown : ep.credential with
    | none =>
      rw [hown] at hcredential
      cases hkept : endpoint.credential with
      | none => rfl
      | some stored =>
        rw [hkept] at hcredential
        cases hcredential
    | some c =>
      rw [hown] at hcredential
      cases hkept : endpoint.credential with
      | none =>
        rw [hkept] at hcredential
        cases hcredential
      | some stored =>
        rw [hkept] at hcredential
        have hstored : StoredAs cipher master_key c.value stored.value := by
          cases hcredential with
          | some h => exact h
        have hvalue := hstored.opened hcipher (hplain c hown) (hread.imp_right fun h => h ⟨_⟩ (by rw [open_endpoint, hkept]; rfl))
        simp [hvalue]
  unfold open_endpoint
  rw [hopened, hsame]

/-- A channel is read from its row under its key, and under every key under which none of its
    credentials looks encrypted. -/
theorem assemble_sealed (hcipher : cipher.Correct) {nonces : Nonces} {sealed : Channel}
    (hvisible : ∀ c ∈ channel.credentials, c.is_empty = false) (hplain : Plain channel)
    (hseal : seal_channel cipher master_key nonces channel = .ok sealed)
    (hread : current = master_key ∨ Plain (assemble cipher current sealed)) :
    assemble cipher current sealed = { channel with endpoints := sort_by_key (·.order) channel.endpoints } := by
  obtain ⟨credential, hcredential, hseal⟩ := bind_eq_ok.mp hseal
  obtain ⟨pool, hpool, hseal⟩ := bind_eq_ok.mp hseal
  obtain ⟨endpoints, hendpoints, hseal⟩ := bind_eq_ok.mp hseal
  obtain rfl := Except.ok.inj hseal
  have hopen_credential : open_credential cipher current credential = channel.credential.value :=
    (seal_credential_stored hcredential).opened hcipher hplain.credential (hread.imp_right (·.credential))
  have hopen_pool : open_pool cipher current pool = channel.credentials := by
    refine open_pool_each hvisible (forall₂_imp_of_mem (seal_pool_each hpool) fun c hc stored hstored hrelated => ?_)
    exact hrelated.opened hcipher (hplain.pool c hc) (hread.imp_right fun h => plain_of_open_pool h.pool stored hstored)
  have hload : load_endpoints cipher current endpoints = sort_by_key (·.order) channel.endpoints := by
    refine load_endpoints_each (forall₂_imp_of_mem (seal_endpoints_each hendpoints) fun ep hep row hrow hrelated => ?_)
    refine open_endpoint_stored hcipher (hplain.endpoints ep hep) hrelated (hread.imp_right fun h => h.endpoints _ ?_)
    exact mem_load_endpoints hrow
  simp only [assemble, hopen_credential, hopen_pool, hload]

/-- What is read of a row that stands for a channel. -/
theorem Stands.assembled (hcipher : cipher.Correct) (hvisible : ∀ c ∈ channel.credentials, c.is_empty = false) (hplain : Plain channel)
    (hstands : Stands cipher channel row) (hread : Plain (assemble cipher current row)) :
    assemble cipher current row = reread channel row := by
  obtain ⟨master_key, nonces, sealed, hseal, hrow⟩ := hstands
  obtain ⟨id, owner_id, enabled, auto_disabled, balance, rfl⟩ : ∃ id owner_id enabled auto_disabled balance,
      row = { sealed with id, owner_id, enabled, auto_disabled, balance } := ⟨_, _, _, _, _, hrow⟩
  have hsealed := assemble_sealed hcipher hvisible hplain hseal (.inr ⟨hread.credential, hread.pool, hread.endpoints⟩)
  have hfields := congrArg (fun read : Channel => { read with id, owner_id, enabled, auto_disabled, balance }) hsealed
  exact hfields

end Stored

section Sorted

variable {channel row : Channel}

/-- The check does not depend on the order of the endpoints. -/
theorem valid_reread (hvalid : channel.Valid) : (reread channel row).Valid where
  name := hvalid.name
  endpoints hnone := by
    have hperm := sort_by_key_perm (fun ep : ChannelEndpoint => ep.order) channel.endpoints
    rw [show sort_by_key (fun ep : ChannelEndpoint => ep.order) channel.endpoints = [] from hnone] at hperm
    exact hvalid.endpoints hperm.nil_eq.symm
  pool := hvalid.pool
  kind native hnative := by
    obtain ⟨ep, hep, hprotocol⟩ := hvalid.kind native hnative
    refine ⟨ep, ?_, hprotocol⟩
    have hperm := sort_by_key_perm (fun ep : ChannelEndpoint => ep.order) channel.endpoints
    rw [hep] at hperm
    exact (congrArg (sort_by_key (fun ep : ChannelEndpoint => ep.order)) hep).trans hperm.eq_singleton
  each ep hep := by
    have hvalid_ep := hvalid.each ep ((sort_by_key_perm _ _).mem_iff.mp hep)
    exact ⟨hvalid_ep.self_transcode, hvalid_ep.credential, hvalid_ep.models, hvalid_ep.address⟩
  distinct := (sort_by_key_perm _ channel.endpoints).symm.pairwise hvalid.distinct fun h => h.symm
  address := hvalid.address
  headers := hvalid.headers
  retry := hvalid.retry

theorem Each.reread {P : String → Prop} (heach : Each P channel) : Each P (reread channel row) :=
  ⟨heach.credential, heach.pool, fun ep hep => heach.endpoints ep ((sort_by_key_perm _ _).mem_iff.mp hep)⟩

theorem Each.imp {P Q : String → Prop} (heach : Each P channel) (himp : ∀ value, P value → Q value) : Each Q channel :=
  ⟨himp _ heach.credential, fun c hc => himp _ (heach.pool c hc), fun ep hep c hc => himp _ (heach.endpoints ep hep c hc)⟩

end Sorted

section Upkeep

variable {P : Channel → Prop} {repo after : ChannelRepo} {change : ChannelChange}

/-- The channels that a transaction writes as they are given. -/
def ChannelChange.saved : ChannelChange → List Channel
  | .create channel | .update channel => [channel]
  | .replace_all channels => channels
  | _ => []

/-- A property of rows that does not depend on what the gateway keeps about a channel. -/
def Kept (P : Channel → Prop) : Prop :=
  ∀ row id owner_id enabled auto_disabled balance, P row → P { row with id, owner_id, enabled, auto_disabled, balance }

theorem forall_foldl_insert (hkept : Kept P) {channels : List Channel} (hrepo : ∀ row ∈ repo.rows, P row)
    (hchannels : ∀ channel ∈ channels, P channel) : ∀ row ∈ (channels.foldl ChannelRepo.insert_channel repo).rows, P row := by
  induction channels generalizing repo with
  | nil => exact hrepo
  | cons channel channels ih =>
    obtain ⟨hchannel, hchannels⟩ := List.forall_mem_cons.mp hchannels
    refine ih (fun row hrow => ?_) hchannels
    rcases ChannelRepo.mem_insert_channel.mp hrow with hold | rfl
    · exact hrepo row hold
    · exact hkept channel _ channel.owner_id channel.enabled _ _ hchannel

theorem forall_set_rows {meant : Channel → Bool} {change : Channel → Channel} (hrepo : ∀ row ∈ repo.rows, P row)
    (hchange : ∀ row, P row → P (change row)) : ∀ row ∈ (repo.set_rows meant change).rows, P row := by
  intro row hrow
  obtain ⟨old, hold, rfl⟩ := ChannelRepo.mem_set_rows.mp hrow
  split
  · exact hchange old (hrepo old hold)
  · exact hrepo old hold

/-- What holds of the rows and of what is written holds of the rows that a transaction
    leaves. -/
theorem ChannelChange.commit_forall (hkept : Kept P) (hcommit : change.commit repo = some after)
    (hsaved : ∀ channel ∈ change.saved, P channel) (hrepo : ∀ row ∈ repo.rows, P row) : ∀ row ∈ after.rows, P row := by
  cases change with
  | create channel =>
    obtain rfl := Option.some.inj hcommit
    exact forall_foldl_insert hkept hrepo hsaved
  | replace_all channels =>
    obtain rfl := Option.some.inj hcommit
    exact forall_foldl_insert hkept (fun row hrow => hrepo row (ChannelRepo.mem_delete_rows.mp hrow).1) hsaved
  | delete_many ids =>
    obtain rfl := Option.some.inj hcommit
    exact fun row hrow => hrepo row (ChannelRepo.mem_delete_rows.mp hrow).1
  | delete id =>
    obtain ⟨-, rfl⟩ := ChannelRepo.ensure_affected_eq_some.mp hcommit
    exact fun row hrow => hrepo row (ChannelRepo.mem_delete_rows.mp hrow).1
  | update channel =>
    obtain ⟨-, rfl⟩ := ChannelRepo.ensure_affected_eq_some.mp hcommit
    have hchannel := hsaved channel (List.mem_singleton_self _)
    exact forall_set_rows hrepo fun row _ => hkept channel channel.id row.owner_id channel.enabled row.auto_disabled row.balance hchannel
  | set_enabled_many ids enabled =>
    obtain rfl := Option.some.inj hcommit
    exact forall_set_rows hrepo fun row hrow => hkept row row.id row.owner_id enabled false row.balance hrow
  | set_enabled id enabled =>
    obtain ⟨-, rfl⟩ := ChannelRepo.ensure_affected_eq_some.mp hcommit
    exact forall_set_rows hrepo fun row hrow => hkept row row.id row.owner_id enabled false row.balance hrow
  | set_balance id balance =>
    obtain ⟨-, rfl⟩ := ChannelRepo.ensure_affected_eq_some.mp hcommit
    exact forall_set_rows hrepo fun row hrow => hkept row row.id row.owner_id row.enabled row.auto_disabled (some balance) hrow
  | set_auto_disabled id =>
    obtain ⟨-, rfl⟩ := ChannelRepo.ensure_affected_eq_some.mp hcommit
    exact forall_set_rows hrepo fun row hrow => hkept row row.id row.owner_id false true row.balance hrow
  | restore_auto_disabled id =>
    obtain ⟨-, rfl⟩ := ChannelRepo.ensure_affected_eq_some.mp hcommit
    exact forall_set_rows hrepo fun row hrow => hkept row row.id row.owner_id true false row.balance hrow

variable {cipher : Cipher} {master_key : Option MasterKey} {nonces : Nat → Nonces}

theorem forM_validate {channels : List Channel} :
    channels.forM validate_channel = .ok () ↔ ∀ channel ∈ channels, channel.validate = .ok () := by
  induction channels with
  | nil => exact iff_of_true rfl (List.forall_mem_nil _)
  | cons channel channels ih =>
    have hfirst : validate_channel channel = .ok () ↔ channel.validate = .ok () := mapError_eq_ok
    rw [List.forall_mem_cons, ← ih, ← hfirst, ← exists_ok_unit, ← bind_eq_ok]
    rfl

theorem mem_seal_channels {channels sealed : List Channel} (hseal : seal_channels cipher master_key nonces channels = .ok sealed)
    {row : Channel} (hrow : row ∈ sealed) : ∃ channel ∈ channels, ∃ nonces, seal_channel cipher master_key nonces channel = .ok row := by
  induction channels generalizing nonces sealed with
  | nil =>
    obtain rfl := Except.ok.inj hseal
    cases hrow
  | cons channel channels ih =>
    obtain ⟨first, hfirst, hseal⟩ := bind_eq_ok.mp hseal
    obtain ⟨rest, hrest, hseal⟩ := bind_eq_ok.mp hseal
    obtain rfl := Except.ok.inj hseal
    rcases List.mem_cons.mp hrow with rfl | hrow
    · exact ⟨channel, .head _, nonces 0, hfirst⟩
    · obtain ⟨other, hother, hsealed⟩ := ih hrest hrow
      exact ⟨other, .tail _ hother, hsealed⟩

/-- What is written was checked and sealed. -/
theorem seal_change_saved {sealed : ChannelChange} (hseal : seal_change cipher master_key nonces change = .ok sealed) {row : Channel}
    (hrow : row ∈ sealed.saved) :
    ∃ channel ∈ change.saved, channel.validate = .ok () ∧ ∃ nonces, seal_channel cipher master_key nonces channel = .ok row := by
  cases change with
  | create channel | update channel =>
    obtain ⟨⟨⟩, hvalid, hseal⟩ := bind_eq_ok.mp hseal
    obtain ⟨stored, hstored, hseal⟩ := bind_eq_ok.mp hseal
    obtain rfl := Except.ok.inj hseal
    obtain rfl := List.mem_singleton.mp hrow
    exact ⟨channel, .head _, mapError_eq_ok.mp hvalid, nonces 0, hstored⟩
  | replace_all channels =>
    obtain ⟨⟨⟩, hvalid, hseal⟩ := bind_eq_ok.mp hseal
    obtain ⟨rows, hrows, hseal⟩ := bind_eq_ok.mp hseal
    obtain rfl := Except.ok.inj hseal
    obtain ⟨channel, hchannel, hsealed⟩ := mem_seal_channels hrows hrow
    exact ⟨channel, hchannel, forM_validate.mp hvalid channel hchannel, hsealed⟩
  | _ =>
    obtain rfl := Except.ok.inj hseal
    cases hrow

end Upkeep

section Total

variable {cipher : Cipher} {master_key : Option MasterKey}

/-- Nothing is too long to be encrypted. -/
def Cipher.Total (cipher : Cipher) : Prop := ∀ key nonce plain, ∃ sealed, cipher.encrypt key nonce plain = some sealed

theorem seal_credential_total (htotal : cipher.Total) (value : String) (nonce : Nonce) :
    ∃ stored, seal_credential cipher master_key value nonce = .ok stored := by
  unfold seal_credential
  cases master_key with
  | none => exact ⟨value, rfl⟩
  | some key =>
    cases hencrypted : is_encrypted value with
    | true => exact ⟨value, by simp⟩
    | false =>
      obtain ⟨sealed, hsealed⟩ := htotal key nonce.val (stream.as_bytes value)
      refine ⟨PREFIX ++ String.ofList (base64.encode (nonce.val ++ sealed)), ?_⟩
      simp [encrypt_credential, hsealed, Except.mapError]

theorem seal_pool_total (htotal : cipher.Total) (nonces : Nat → Nonce) (credentials : List Credential) :
    ∃ pool, seal_pool cipher master_key nonces credentials = .ok pool := by
  induction credentials generalizing nonces with
  | nil => exact ⟨[], rfl⟩
  | cons c credentials ih =>
    obtain ⟨stored, hstored⟩ := @seal_credential_total _ master_key htotal c.value (nonces 0)
    obtain ⟨rest, hrest⟩ := ih fun idx => nonces (idx + 1)
    exact ⟨⟨stored⟩ :: rest, bind_eq_ok.mpr ⟨_, hstored, bind_eq_ok.mpr ⟨_, hrest, rfl⟩⟩⟩

theorem seal_own_total (htotal : cipher.Total) (credential : Option Credential) (nonce : Nonce) :
    ∃ stored, seal_own cipher master_key credential nonce = .ok stored := by
  cases credential with
  | none => exact ⟨none, rfl⟩
  | some c =>
    obtain ⟨stored, hstored⟩ := @seal_credential_total _ master_key htotal c.value nonce
    exact ⟨some ⟨stored⟩, map_eq_ok.mpr ⟨stored, hstored, rfl⟩⟩

theorem seal_endpoints_total (htotal : cipher.Total) (nonces : Nat → Nonce) (endpoints : List ChannelEndpoint) :
    ∃ sealed, seal_endpoints cipher master_key nonces endpoints = .ok sealed := by
  induction endpoints generalizing nonces with
  | nil => exact ⟨[], rfl⟩
  | cons ep endpoints ih =>
    obtain ⟨stored, hstored⟩ := @seal_own_total _ master_key htotal ep.credential (nonces 0)
    obtain ⟨rest, hrest⟩ := ih fun idx => nonces (idx + 1)
    exact ⟨{ ep with credential := stored } :: rest, bind_eq_ok.mpr ⟨_, hstored, bind_eq_ok.mpr ⟨_, hrest, rfl⟩⟩⟩

theorem seal_channel_total (htotal : cipher.Total) (nonces : Nonces) (channel : Channel) :
    ∃ sealed, seal_channel cipher master_key nonces channel = .ok sealed := by
  obtain ⟨stored, hstored⟩ := @seal_credential_total _ master_key htotal channel.credential.value nonces.credential
  obtain ⟨pool, hpool⟩ := @seal_pool_total _ master_key htotal nonces.pool channel.credentials
  obtain ⟨endpoints, hendpoints⟩ := @seal_endpoints_total _ master_key htotal nonces.endpoint channel.endpoints
  refine ⟨{ channel with credential := ⟨stored⟩, credentials := pool, endpoints }, ?_⟩
  exact bind_eq_ok.mpr ⟨stored, hstored, bind_eq_ok.mpr ⟨pool, hpool, bind_eq_ok.mpr ⟨endpoints, hendpoints, rfl⟩⟩⟩

theorem seal_channels_total (htotal : cipher.Total) (nonces : Nat → Nonces) (channels : List Channel) :
    ∃ sealed, seal_channels cipher master_key nonces channels = .ok sealed := by
  induction channels generalizing nonces with
  | nil => exact ⟨[], rfl⟩
  | cons channel channels ih =>
    obtain ⟨sealed, hsealed⟩ := @seal_channel_total _ master_key htotal (nonces 0) channel
    obtain ⟨rest, hrest⟩ := ih fun idx => nonces (idx + 1)
    exact ⟨sealed :: rest, bind_eq_ok.mpr ⟨_, hsealed, bind_eq_ok.mpr ⟨_, hrest, rfl⟩⟩⟩

/-- Channels that pass the checks can be written. -/
theorem seal_replace_total (htotal : cipher.Total) (nonces : Nat → Nonces) {channels : List Channel}
    (hvalid : ∀ channel ∈ channels, channel.Valid) :
    ∃ sealed, seal_channels cipher master_key nonces channels = .ok sealed ∧
      seal_change cipher master_key nonces (.replace_all channels) = .ok (.replace_all sealed) := by
  obtain ⟨sealed, hsealed⟩ := @seal_channels_total _ master_key htotal nonces channels
  have hchecked : channels.forM validate_channel = .ok () :=
    forM_validate.mpr fun channel hchannel => Channel.validate_ok_iff.mpr (hvalid channel hchannel)
  exact ⟨sealed, hsealed, bind_eq_ok.mpr ⟨(), hchecked, bind_eq_ok.mpr ⟨sealed, hsealed, rfl⟩⟩⟩

end Total

end refract.store
