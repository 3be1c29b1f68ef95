import Refract.Gateway.Restore

open refract.core refract.json refract.machine refract.store

namespace refract.gateway

/-- A channel as it is shown. -/
def redact_channel (channel : Channel) : Channel :=
  { channel with
    credential := ⟨channel.credential.masked⟩
    credentials := channel.credentials.map (⟨·.masked⟩)
    endpoints := channel.endpoints.map fun ep => { ep with credential := ep.credential.map (⟨·.masked⟩) } }

/-- The keys that a row of the pool may have shown, the default one first. -/
def secrets (existing : Channel) : List Credential :=
  (if existing.credential.is_empty then [] else [existing.credential]) ++ existing.credentials

/-- What an administrator leaves in a field that showed a key. -/
inductive KeyField where
  | shown (secret : Credential)
  | typed (text : String)

namespace KeyField

/-- What is submitted. -/
def text : KeyField → Credential
  | shown secret => ⟨secret.masked⟩
  | typed text => ⟨text⟩

/-- What is to be stored. -/
def meant : KeyField → Credential
  | shown secret => secret
  | typed text => ⟨text⟩

theorem text_shown (secret : Credential) : (shown secret).text.value = secret.masked := by rw [text]

theorem text_typed (value : String) : (typed value).text = ⟨value⟩ := by rw [text]

end KeyField

/-- A channel in the editor. -/
structure Edited where
  /-- All but the keys. -/
  fields : Channel
  credential : KeyField
  credentials : List KeyField
  endpoints : List (ChannelEndpoint × Option KeyField)

namespace Edited

def filled (self : Edited) (key : KeyField → Credential) : Channel :=
  { self.fields with
    credential := key self.credential
    credentials := self.credentials.map key
    endpoints := self.endpoints.map fun (ep, field) => { ep with credential := field.map key } }

def submitted (self : Edited) : Channel := self.filled KeyField.text

def meant (self : Edited) : Channel := self.filled KeyField.meant

/-- Nothing was edited yet. -/
def put_back (channel : Channel) : Edited where
  fields := channel
  credential := .shown channel.credential
  credentials := channel.credentials.map .shown
  endpoints := channel.endpoints.map fun ep => (ep, ep.credential.map .shown)

theorem put_back_submitted (channel : Channel) : (put_back channel).submitted = redact_channel channel := by
  simp [submitted, put_back, filled, redact_channel, KeyField.text, Function.comp_def]

theorem put_back_meant (channel : Channel) : (put_back channel).meant = channel := by
  simp [meant, put_back, filled, KeyField.meant, Function.comp_def]

/-- The editor was opened for a channel: what is left as it is showed the key of its place, and
    what is typed is another text, without the signs of a mask. -/
structure Of (existing : Channel) (edited : Edited) : Prop where
  default_shown : ∀ c, edited.credential = .shown c → c = existing.credential
  default_typed : ∀ text, edited.credential = .typed text → looks_masked text = false ∧ text ≠ existing.credential.masked
  /-- No other key that comes first has the mask. -/
  pool_shown : ∀ c, .shown c ∈ edited.credentials → (secrets existing).find? (·.masked = c.masked) = some c
  pool_typed : ∀ text, .typed text ∈ edited.credentials → looks_masked text = false
  endpoint_shown : ∀ ep c, (ep, some (.shown c)) ∈ edited.endpoints →
    ∃ old ∈ existing.endpoints, old.protocol = ep.protocol ∧ old.credential = some c
  endpoint_typed : ∀ ep text, (ep, some (.typed text)) ∈ edited.endpoints → looks_masked text = false ∧
    ∀ old ∈ existing.endpoints, old.protocol = ep.protocol → ∀ c, old.credential = some c → text ≠ c.masked

end Edited

section Restored

/-- The mask of a key is known for a mask. -/
theorem looks_masked_masked {c : Credential} (hvisible : c.is_empty = false) : looks_masked c.masked = true := by
  have hchars : (trim c.value).toList.length ≠ 0 := by
    simpa [Credential.is_empty] using hvisible
  unfold Credential.masked
  dsimp only
  rw [if_neg hchars]
  split
  · simp [looks_masked, hchars]
  · simp [looks_masked]

theorem secrets_visible {existing : Channel} (hpool : ∀ c ∈ existing.credentials, c.is_empty = false) {c : Credential}
    (hc : c ∈ secrets existing) : c.is_empty = false := by
  unfold secrets at hc
  rcases List.mem_append.mp hc with hdefault | hc
  · split at hdefault
    · cases hdefault
    next hvisible =>
      obtain rfl := List.mem_singleton.mp hdefault
      simpa using hvisible
  · exact hpool c hc

/-- Among endpoints of different protocols each is found by its protocol. -/
theorem find_endpoint {endpoints : List ChannelEndpoint} (hdistinct : endpoints.Pairwise (·.protocol ≠ ·.protocol))
    {old : ChannelEndpoint} (hold : old ∈ endpoints) : endpoints.find? (·.protocol = old.protocol) = some old :=
  @find?_of_nodup _ _ _ _ (·.protocol) _ (List.pairwise_map.mpr hdistinct) hold

variable {existing : Channel} {edited : Edited}

theorem restored_default (hof : edited.Of existing) :
    (if edited.credential.text.value = existing.credential.masked then existing.credential else edited.credential.text) =
      edited.credential.meant := by
  cases hfield : edited.credential with
  | shown c =>
    obtain rfl := hof.default_shown c hfield
    rw [if_pos (KeyField.text_shown _), KeyField.meant]
  | typed text => rw [KeyField.text_typed, if_neg (hof.default_typed text hfield).2, KeyField.meant]

theorem restored_pool (hof : edited.Of existing) (hpool : ∀ c ∈ existing.credentials, c.is_empty = false) {field : KeyField}
    (hfield : field ∈ edited.credentials) :
    (if looks_masked field.text.value then ((secrets existing).find? (·.masked = field.text.value)).getD field.text else field.text) =
      field.meant := by
  cases field with
  | shown c =>
    have hfound := hof.pool_shown c hfield
    have hmasked := looks_masked_masked (secrets_visible hpool (List.mem_of_find?_eq_some hfound))
    have htext : ∀ value, value = c.masked → looks_masked value = true ∧ (secrets existing).find? (·.masked = value) = some c := by
      intro value hvalue
      rw [hvalue]
      exact ⟨hmasked, hfound⟩
    obtain ⟨hmasked, hfound⟩ := htext _ (KeyField.text_shown c)
    rw [if_pos hmasked, hfound, Option.getD_some, KeyField.meant]
  | typed text => rw [KeyField.text_typed, if_neg (by rw [hof.pool_typed text hfield]; exact Bool.false_ne_true), KeyField.meant]

theorem restored_endpoint (hof : edited.Of existing) (hdistinct : existing.endpoints.Pairwise (·.protocol ≠ ·.protocol))
    {ep : ChannelEndpoint} {field : KeyField} (hfield : (ep, some field) ∈ edited.endpoints) :
    (match (existing.endpoints.find? (·.protocol = ep.protocol)).bind (·.credential) with
      | some old => if field.text.value = old.masked then old else field.text
      | none => field.text) = field.meant := by
  cases field with
  | shown c =>
    obtain ⟨old, hold, hprotocol, hown⟩ := hof.endpoint_shown ep c hfield
    rw [← hprotocol, find_endpoint hdistinct hold, Option.bind_some, hown]
    dsimp only
    rw [if_pos (KeyField.text_shown c), KeyField.meant]
  | typed text =>
    rw [KeyField.text_typed, KeyField.meant]
    cases hfound : existing.endpoints.find? (·.protocol = ep.protocol) with
    | none => rfl
    | some old =>
      rw [Option.bind_some]
      cases hown : old.credential with
      | none => rfl
      | some c =>
        have hprotocol : old.protocol = ep.protocol := by simpa using List.find?_some hfound
        have htext := (hof.endpoint_typed ep text hfield).2 old (List.mem_of_find?_eq_some hfound) hprotocol c hown
        dsimp only
        rw [if_neg htext]

/-- What is put back is what is meant. -/
theorem restore_submitted (hof : edited.Of existing) (hpool : ∀ c ∈ existing.credentials, c.is_empty = false)
    (hdistinct : existing.endpoints.Pairwise (·.protocol ≠ ·.protocol)) :
    restore_unchanged_credentials existing edited.submitted = edited.meant := by
  have hcredentials : (edited.credentials.map KeyField.text).map (fun credential =>
      if looks_masked credential.value then ((secrets existing).find? (·.masked = credential.value)).getD credential
      else credential) = edited.credentials.map KeyField.meant := by
    rw [List.map_map]
    exact List.map_congr_left fun field hfield => restored_pool hof hpool hfield
  have hendpoints : (edited.submitted.endpoints.map fun endpoint =>
      { endpoint with
        credential := endpoint.credential.map fun credential =>
          match (existing.endpoints.find? (·.protocol = endpoint.protocol)).bind (·.credential) with
          | some old => if credential.value = old.masked then old else credential
          | none => credential }) = edited.meant.endpoints := by
    unfold Edited.submitted Edited.meant Edited.filled
    rw [List.map_map]
    refine List.map_congr_left fun (ep, field) hfield => ?_
    cases field with
    | none => rfl
    | some field =>
      have hrestored := restored_endpoint hof hdistinct hfield
      simp only [Function.comp_apply, Option.map_some]
      exact congrArg (fun credential => ({ ep with credential := some credential } : ChannelEndpoint)) hrestored
  have hfilled : ∀ credential credentials endpoints, credential = edited.credential.meant →
      credentials = edited.credentials.map KeyField.meant → endpoints = edited.meant.endpoints →
        ({ edited.fields with credential, credentials, endpoints } : Channel) = edited.meant := by
    rintro _ _ _ rfl rfl rfl
    rfl
  exact hfilled _ _ _ (restored_default hof) hcredentials hendpoints

end Restored

section Shown

variable {cipher : Cipher} {current : Option MasterKey} {channel row : Channel}

/-- An encrypted text is no mask. -/
theorem looks_masked_sealed {key : MasterKey} {value stored : String} (hsealed : Sealed cipher key value stored) :
    looks_masked stored = false := by
  obtain ⟨nonce, hencrypt⟩ := hsealed
  unfold encrypt_credential at hencrypt
  split at hencrypt
  · cases hencrypt
  next ciphertext _ =>
    obtain rfl := Except.ok.inj hencrypt
    have hplain : ∀ c ∈ (PREFIX ++ String.ofList (base64.encode (nonce.val ++ ciphertext))).toList, c ∈ PREFIX.toList ++ '=' :: base64.alphabet := by
      intro c hc
      rw [String.toList_append, String.toList_ofList] at hc
      rcases List.mem_append.mp hc with hc | hc
      · exact List.mem_append_left _ hc
      · exact List.mem_append_right _ (base64.mem_encode hc)
    have hdots : '…' ∉ PREFIX.toList ++ '=' :: base64.alphabet := by decide
    have hbullet : '•' ∉ PREFIX.toList ++ '=' :: base64.alphabet := by decide
    rw [looks_masked, Bool.or_eq_false_iff, ← Bool.not_eq_true, ← Bool.not_eq_true, List.contains_iff_mem, List.contains_iff_mem]
    exact ⟨fun hc => hdots (hplain _ hc), fun hc => hbullet (hplain _ hc)⟩

/-- What is read of a stored key is no mask, also if it cannot be decrypted. -/
theorem open_unmasked (hcipher : cipher.Correct) {master_key : Option MasterKey} {value stored : String} (hgenuine : Genuine value)
    (hstored : StoredAs cipher master_key value stored) : looks_masked (open_credential cipher current stored) = false := by
  rcases hstored with ⟨rfl, -⟩ | ⟨key, rfl, -, hsealed⟩
  · have hopen : open_credential cipher current stored = stored := by
      cases current with
      | none => rfl
      | some key => simp [open_credential, hgenuine.1]
    rw [hopen]
    exact hgenuine.2
  · by_cases hkey : current = some key
    · rw [hkey, hsealed.open_own hcipher]
      exact hgenuine.2
    · rw [hsealed.open_other hcipher hkey]
      exact looks_masked_sealed hsealed

/-- What is shown of a sound row is made of keys, and of endpoints of different protocols. -/
theorem assemble_shown (hcipher : cipher.Correct) (hsound : Sound cipher row) :
    Unmasked (assemble cipher current row) ∧ (assemble cipher current row).endpoints.Pairwise (·.protocol ≠ ·.protocol) := by
  obtain ⟨channel, hvalid, hgenuine, master_key, nonces, sealed, hseal, hrow⟩ := hsound
  obtain ⟨credential, hcredential, hseal⟩ := bind_eq_ok.mp hseal
  obtain ⟨pool, hpool, hseal⟩ := bind_eq_ok.mp hseal
  obtain ⟨endpoints, hendpoints, hseal⟩ := bind_eq_ok.mp hseal
  obtain rfl := Except.ok.inj hseal
  have hstored := seal_endpoints_each hendpoints
  rw [hrow]
  refine ⟨⟨?_, fun c hc => ?_, fun ep hep c hc => ?_⟩, ?_⟩
  · exact open_unmasked hcipher hgenuine.credential (seal_credential_stored hcredential)
  · obtain ⟨stored, hstored, rfl⟩ := List.mem_map.mp (List.mem_of_mem_filter hc)
    obtain ⟨given, hgiven, hrelated⟩ := exists_of_mem_forall₂ (seal_pool_each hpool).flip hstored
    exact open_unmasked hcipher (hgenuine.pool given hgiven) hrelated
  · change ep ∈ load_endpoints cipher current endpoints at hep
    rw [load_endpoints_eq] at hep
    obtain ⟨stored, hmem, rfl⟩ := List.mem_map.mp ((sort_by_key_perm _ _).mem_iff.mp hep)
    obtain ⟨given, hgiven, -, hrelated⟩ := exists_of_mem_forall₂ hstored.flip hmem
    obtain ⟨text, htext, rfl⟩ := Option.map_eq_some_iff.mp hc
    rw [htext] at hrelated
    cases hown : given.credential with
    | none =>
      rw [hown] at hrelated
      cases hrelated
    | some own =>
      rw [hown] at hrelated
      cases hrelated with
      | some hrelated => exact open_unmasked hcipher (hgenuine.endpoints given hgiven own hown) hrelated
  · change (load_endpoints cipher current endpoints).Pairwise _
    rw [load_endpoints_eq]
    refine (sort_by_key_perm _ _).symm.pairwise ?_ fun h => h.symm
    refine List.pairwise_map.mpr (pairwise_of_forall₂ hstored hvalid.distinct (List.pairwise_of_forall fun _ _ => True.intro) ?_)
    rintro a b c d ⟨hab, -⟩ ⟨hcd, -⟩ hdistinct -
    rw [hab, hcd]
    exact hdistinct

end Shown

section Saved

variable {cipher : Cipher} {self : SealedRepo} {id : Int} {user_id : Option Int} {existing : Channel} {edited : Edited}

theorem get_view (cipher : Cipher) (self : SealedRepo) (id : Int) : (view cipher self).get id = self.get cipher id := by
  change (self.repo.rows.map (assemble cipher self.master_key)).find? (ChannelRepo.owned id) = _
  rw [List.find?_map]
  rfl

/-- The checks do not depend on whose a channel is. -/
theorem valid_kept_private {channel : Channel} (hvalid : channel.Valid) (id : Int) (user_id : Option Int) :
    (kept_private { channel with id, owner_id := DEFAULT_OWNER_ID } user_id).Valid := by
  have hsame : ∀ (visibility : ChannelVisibility) (owner : Option Int),
      ({ channel with id, owner_id := DEFAULT_OWNER_ID, visibility, user_id := owner } : Channel).Valid := by
    intro visibility owner
    refine ⟨hvalid.name, hvalid.endpoints, hvalid.pool, hvalid.kind, fun ep hep => ?_, hvalid.distinct, hvalid.address, hvalid.headers,
      hvalid.retry⟩
    have hendpoint := hvalid.each ep hep
    exact ⟨hendpoint.self_transcode, hendpoint.credential, hendpoint.models, hendpoint.address⟩
  cases user_id with
  | none => exact hsame channel.visibility channel.user_id
  | some uid => exact hsame .exclusive (some uid)

theorem kept_private_submitted (edited : Edited) (id : Int) (user_id : Option Int) :
    ∃ fields, kept_private { edited.submitted with id, owner_id := DEFAULT_OWNER_ID } user_id = { edited with fields }.submitted ∧
      kept_private { edited.meant with id, owner_id := DEFAULT_OWNER_ID } user_id = { edited with fields }.meant := by
  cases user_id with
  | none => exact ⟨{ edited.fields with id, owner_id := DEFAULT_OWNER_ID }, rfl, rfl⟩
  | some uid =>
    exact ⟨{ edited.fields with id, owner_id := DEFAULT_OWNER_ID, visibility := .exclusive, user_id := some uid }, rfl, rfl⟩

/-- No key that is meant is a mask. -/
theorem meant_unmasked (hof : edited.Of existing) (hexisting : Unmasked existing) : Unmasked edited.meant where
  credential := by
    change looks_masked edited.credential.meant.value = false
    cases hfield : edited.credential with
    | shown c => exact hof.default_shown c hfield ▸ hexisting.credential
    | typed text => exact (hof.default_typed text hfield).1
  pool c hc := by
    obtain ⟨field, hfield, rfl⟩ := List.mem_map.mp hc
    cases field with
    | shown c =>
      have hmem := List.mem_of_find?_eq_some (hof.pool_shown c hfield)
      rcases List.mem_append.mp hmem with hdefault | hpool
      · split at hdefault
        · cases hdefault
        · obtain rfl := List.mem_singleton.mp hdefault
          exact hexisting.credential
      · exact hexisting.pool c hpool
    | typed text => exact hof.pool_typed text hfield
  endpoints ep hep c hc := by
    obtain ⟨⟨given, field⟩, hfield, rfl⟩ := List.mem_map.mp hep
    obtain ⟨field, rfl, rfl⟩ := Option.map_eq_some_iff.mp hc
    cases field with
    | shown c =>
      obtain ⟨old, hold, -, hown⟩ := hof.endpoint_shown given c hfield
      exact hexisting.endpoints old hold c hown
    | typed text => exact (hof.endpoint_typed given text hfield).1

theorem reject_masked_credentials_passes {channel : Channel} (hunmasked : Unmasked channel) (next : Work) :
    reject_masked_credentials channel next = next := by
  obtain ⟨hpool, hendpoints⟩ := any_unmasked hunmasked
  rw [reject_masked_credentials, hunmasked.credential, hpool, hendpoints]
  rfl

/-- A channel that passes the checks is written in place of its row. -/
theorem run_update (htotal : cipher.Total) {channel row : Channel} {nonces : Nat → Nat → Nonces} (hrow : self.repo.get id = some row)
    (hid : channel.id = id) (hvalid : channel.Valid) (next : ChannelRepo → Work) (hnext : ∀ repo nonces after, (next repo).run cipher nonces after = after) :
    ∃ sealed, seal_channel cipher self.master_key (nonces 0 0) channel = .ok sealed ∧
      ((Work.write (.update channel) next).run cipher nonces self).master_key = self.master_key ∧
      ((Work.write (.update channel) next).run cipher nonces self).repo.get id =
        some { sealed with owner_id := row.owner_id, auto_disabled := row.auto_disabled, balance := row.balance } := by
  obtain ⟨sealed, hsealed⟩ := @seal_channel_total cipher self.master_key htotal (nonces 0 0) channel
  have hsealed_id : sealed.id = id := (seal_channel_id hsealed).trans hid
  have howned : ChannelRepo.owned id row = true := List.find?_some hrow
  have hany : self.repo.rows.any (ChannelRepo.owned id) = true :=
    List.any_eq_true.mpr ⟨row, List.mem_of_find?_eq_some hrow, howned⟩
  have hcommit : self.commit cipher (nonces 0) (.update channel) = some (self.repo.set_rows (ChannelRepo.owned id) fun row =>
      { sealed with owner_id := row.owner_id, auto_disabled := row.auto_disabled, balance := row.balance }) := by
    refine SealedRepo.commit_eq_some.mpr ⟨.update sealed, ?_, ?_⟩
    · have hchecked : validate_channel channel = .ok () := mapError_eq_ok.mpr (Channel.validate_ok_iff.mpr hvalid)
      exact bind_eq_ok.mpr ⟨(), hchecked, bind_eq_ok.mpr ⟨sealed, hsealed, rfl⟩⟩
    · change ChannelRepo.ensure_affected _ (ChannelRepo.owned sealed.id) _ = _
      rw [hsealed_id, ChannelRepo.ensure_affected, if_pos hany]
  refine ⟨sealed, hsealed, Work.run_master_key _ _ _, ?_⟩
  rw [Work.run, hcommit]
  dsimp only
  rw [hnext]
  -- The row that is found is the row that was written.
  have hkept : ∀ other, ChannelRepo.owned id (if ChannelRepo.owned id other then
      { sealed with owner_id := other.owner_id, auto_disabled := other.auto_disabled, balance := other.balance } else other) =
        ChannelRepo.owned id other := by
    intro other
    split
    next hmeant =>
      rw [hmeant]
      simp only [ChannelRepo.owned, Bool.and_eq_true, decide_eq_true_eq] at hmeant ⊢
      exact ⟨hsealed_id, hmeant.2⟩
    · rfl
  change List.find? _ (List.map _ _) = _
  rw [List.find?_map, show (ChannelRepo.owned id ∘ _) = ChannelRepo.owned id from funext hkept,
    show self.repo.rows.find? (ChannelRepo.owned id) = some row from hrow, Option.map_some, if_pos howned]

theorem run_read_back (id : Int) (nonces : Nat → Nat → Nonces) (self : SealedRepo) :
    (Work.get id fun _ => .commit_channels).run cipher nonces self = self := by
  change (((view cipher self).get id).elim Work.refuse fun _ => .commit_channels).run cipher nonces self = self
  cases (view cipher self).get id <;> rfl

end Saved

/-- A channel with a default key and a pool. -/
def pooled (credential : String) (pool : List String) : Channel where
  id := 1
  owner_id := DEFAULT_OWNER_ID
  tags := []
  visibility := .shared
  user_id := none
  name := "main"
  credential := ⟨credential⟩
  credentials := pool.map (⟨·⟩)
  endpoints := [{ protocol := .chat }]

def stored_pool : Channel := pooled "sk-default-1" ["sk-first-0001", "sk-other-0002"]

/-- The pool is turned around, with a new key in between. -/
def turned_pool : Edited where
  fields := { stored_pool with note := some "turned" }
  credential := .shown ⟨"sk-default-1"⟩
  credentials := [.shown ⟨"sk-other-0002"⟩, .typed "sk-third-0003", .shown ⟨"sk-first-0001"⟩]
  endpoints := [({ protocol := .chat }, none)]

theorem stored_pool_sound : Sound backup.open_cipher stored_pool := by
  refine ⟨stored_pool, Channel.validate_ok_iff.mp (by decide +kernel), ⟨?_, ?_, ?_⟩, none, first_nonces 0, stored_pool, rfl, rfl⟩
  · exact ⟨by decide +kernel, by decide +kernel⟩
  · have hall : ∀ c ∈ stored_pool.credentials, is_encrypted c.value = false ∧ looks_masked c.value = false := by decide +kernel
    exact hall
  · intro ep hep c hc
    obtain rfl := List.mem_singleton.mp hep
    cases hc

theorem turned_pool_of : turned_pool.Of (assemble backup.open_cipher none stored_pool) where
  default_shown c hc := (KeyField.shown.inj hc).symm
  default_typed text htext := by cases htext
  pool_shown c hc := by
    simp only [turned_pool, List.mem_cons, KeyField.shown.injEq, reduceCtorEq, List.not_mem_nil, or_false, false_or] at hc
    rcases hc with rfl | rfl
    · decide +kernel
    · decide +kernel
  pool_typed text htext := by
    simp only [turned_pool, List.mem_cons, KeyField.typed.injEq, reduceCtorEq, List.not_mem_nil, or_false, false_or] at htext
    subst htext
    decide +kernel
  endpoint_shown ep c hc := by
    cases List.mem_singleton.mp hc
  endpoint_typed ep text htext := by
    cases List.mem_singleton.mp htext

def own_key : Channel :=
  { pooled "sk-default-1" ["aaaa", "bbbb"] with endpoints := [{ protocol := .chat, credential := some ⟨"sk-endpoint-1"⟩ }] }

end refract.gateway
