import Refract.Gateway.Backup
import Refract.Gateway.Upkeep
import Refract.Machine.Interleaving

open refract.core refract.json refract.machine refract.store

namespace refract.gateway.backup

/-- A gateway: its tables, and the policies that it works with. -/
structure Instance where
  database : Database := {}
  policy : RoutingPolicy := {}
  empty_response_retry : EmptyResponseRetryPolicy := {}

/-- What happens to a gateway. -/
inductive Event where
  | channels (request : AdminRequest) (nonces : Nat → Nat → Nonces)
  | keys (change : KeyChange)
  | settings (change : SettingChange)
  | users (users : List User)
  | import_config (admin_id : Int) (nonces : Nat → Nonces) (request : ImportRequest) (faults : List (Option ImportError))
  /-- The gateway is started again, with another configuration. -/
  | configure (master_key : Option MasterKey)
  | reload_policy
  | reload_empty_response_retry

namespace Database

variable (cipher : Cipher) (self : Database)

/-- The channels in the order in which they are listed. -/
def list : List Channel := self.channels.repo.list.map (assemble cipher self.channels.master_key)

def email (id : Int) : Option String := (self.users.find? (·.id = id)).map (·.email)

def exported_channel (channel : Channel) : ExportedChannel where
  channel := { channel with user_id := none }
  user_email := channel.user_id.bind self.email

def exported_key (key : ExportedApiKey) : ExportedKey where
  key := { key with user_id := none }
  user_email := key.user_id.bind self.email

end Database

namespace Instance

variable (cipher : Cipher) (hash : String → String) (self : Instance)

/-- The settings that are backed up. Two of them are those that the gateway works with. -/
def exported_settings : ExportedSettings :=
  { self.database.settings.read with routing_policy := self.policy, empty_response_retry := self.empty_response_retry }

def export_config : ExportDocument where
  version := 2
  channels := (self.database.list cipher).map self.database.exported_channel
  keys := self.database.keys.export_all.map self.database.exported_key
  settings := self.exported_settings

def step : Event → Instance
  | .channels request nonces =>
    { self with database := { self.database with channels := request.work.run cipher nonces self.database.channels } }
  | .keys change =>
    match change.commit hash self.database.keys with
    | .ok keys => { self with database := { self.database with keys } }
    | .error _ => self
  | .settings change =>
    match self.database.settings.set change with
    | .ok settings => { self with database := { self.database with settings } }
    | .error _ => self
  | .users users => { self with database := { self.database with users } }
  | .import_config admin_id nonces request faults =>
    { self with database := ((import_document admin_id cipher nonces request).run self.database faults).2 }
  | .configure master_key =>
    { self with database := { self.database with channels := { self.database.channels with master_key } } }
  | .reload_policy => { self with policy := self.database.settings.read.routing_policy }
  | .reload_empty_response_retry => { self with empty_response_retry := self.database.settings.read.empty_response_retry }

/-- No submitted credential looks encrypted. Where an administrator changes a channel, all
    that are there can be read. -/
def Readable : Event → Prop
  | .channels request _ => request.Plain ∧ ∀ channel ∈ (view cipher self.database.channels).rows, Plain channel
  | .import_config _ _ request _ => ∀ exported ∈ request.data.channels, Plain exported.channel
  | _ => True

end Instance

/-- What holds of the tables of a gateway. -/
structure Database.Fit (cipher : Cipher) (database : Database) : Prop where
  channels : ∀ row ∈ database.channels.repo.rows, Sound cipher row
  keys : database.keys.Fit
  settings : database.settings.read.Valid

structure Instance.Fit (cipher : Cipher) (inst : Instance) : Prop where
  database : inst.database.Fit cipher
  policy : inst.policy.validate = .ok ()
  empty_response_retry : inst.empty_response_retry.validate = .ok ()

section Fit

variable {cipher : Cipher} {before after : Database}

theorem masked_place_eq_none {channel : Channel} : masked_place channel = none ↔ Unmasked channel := by
  unfold masked_place
  constructor
  · intro hnone
    split at hnone
    · cases hnone
    next hcredential =>
      split at hnone
      · cases hnone
      next hpool =>
        rw [Option.map_eq_none_iff, List.find?_eq_none] at hnone
        refine ⟨by simpa using hcredential, fun c hc => ?_, fun ep hep c hc => ?_⟩
        · simpa using List.any_eq_false.mp (by simpa using hpool) c hc
        · simpa [hc] using hnone ep hep
  · intro hunmasked
    obtain ⟨hpool, hendpoints⟩ := any_unmasked hunmasked
    rw [if_neg (by simp [hunmasked.credential]), if_neg (by simp [hpool]), Option.map_eq_none_iff, List.find?_eq_none]
    exact List.any_eq_false.mp hendpoints

theorem imported_channel_valid {channel : Channel} (hvalid : channel.Valid) (v1 : Bool) (user_id : Int) :
    (imported_channel v1 user_id channel).Valid := by
  unfold imported_channel
  dsimp only
  have hfields : ∀ visibility user_id, Channel.Valid
      { channel with id := 0, owner_id := DEFAULT_OWNER_ID, visibility := visibility, user_id := user_id } := fun _ _ =>
    ⟨hvalid.name, hvalid.endpoints, hvalid.pool, hvalid.kind,
      fun ep hep => ⟨(hvalid.each ep hep).self_transcode, (hvalid.each ep hep).credential, (hvalid.each ep hep).models,
        (hvalid.each ep hep).address⟩,
      hvalid.distinct, hvalid.address, hvalid.headers, hvalid.retry⟩
  split
  · exact hfields _ _
  · split
    · exact hfields _ _
    · exact hfields _ _

theorem imported_channel_each {P : String → Prop} {channel : Channel} (heach : Each P channel) (v1 : Bool) (user_id : Int) :
    Each P (imported_channel v1 user_id channel) := by
  unfold imported_channel
  dsimp only
  split
  · exact ⟨heach.credential, heach.pool, heach.endpoints⟩
  · split
    · exact ⟨heach.credential, heach.pool, heach.endpoints⟩
    · exact ⟨heach.credential, heach.pool, heach.endpoints⟩

theorem imported_channels_genuine {request : ImportRequest} (haccepted : request.data.Accepted)
    (hplain : ∀ exported ∈ request.data.channels, Plain exported.channel) (admin_id : Int) :
    ∀ channel ∈ imported_channels admin_id request before, channel.Valid ∧ Each Genuine channel := by
  intro channel hchannel
  obtain ⟨exported, hexported, rfl⟩ := List.mem_map.mp hchannel
  have hvalid := Channel.validate_ok_iff.mp (haccepted.valid exported hexported)
  have hunmasked := masked_place_eq_none.mp (haccepted.unmasked exported hexported)
  exact ⟨imported_channel_valid hvalid _ _, imported_channel_each (Each.genuine (hplain exported hexported) hunmasked) _ _⟩

/-- A stage that writes some channels leaves sound rows. -/
theorem Database.Fit.channels_written {kept channels : List Channel} (hfit : before.Fit cipher)
    (hkept : kept ⊆ before.channels.repo.rows) (hchannels : ∀ channel ∈ channels, channel.Valid ∧ Each Genuine channel)
    (hwritten : ChannelsWritten cipher kept channels before after) : after.Fit cipher := by
  obtain ⟨repo, rows, rfl, hrows, hall⟩ := hwritten
  refine ⟨fun row hrow => ?_, hfit.keys, hfit.settings⟩
  change row ∈ repo.rows at hrow
  rw [hrows] at hrow
  rcases List.mem_append.mp hrow with hold | hnew
  · exact hfit.channels row (hkept hold)
  · obtain ⟨channel, hchannel, nonces, sealed, hseal, hsame⟩ := exists_of_mem_forall₂ hall.flip hnew
    obtain ⟨hvalid, hgenuine⟩ := hchannels channel hchannel
    refine ⟨channel, hvalid, hgenuine, before.channels.master_key, nonces, sealed, hseal, ?_⟩
    rw [hsame]

/-- Every stage of an import keeps what holds of the tables. -/
theorem stages_fit {request : ImportRequest} {start : Database} (haccepted : request.data.Accepted)
    (hplain : ∀ exported ∈ request.data.channels, Plain exported.channel) (admin_id : Int) :
    ∀ stage ∈ stages cipher admin_id request start, ∀ before after, stage before after → before.Fit cipher → after.Fit cipher := by
  have hgenuine : ∀ channel ∈ imported_channels admin_id request start, channel.Valid ∧ Each Genuine channel :=
    imported_channels_genuine haccepted hplain admin_id
  intro stage hstage before after hmade hfit
  rcases List.mem_append.mp hstage with hstage | hstage
  · cases hmode : request.mode with
    | replace =>
      rw [hmode] at hstage
      rcases List.mem_cons.mp hstage with rfl | hstage
      · exact hfit.channels_written (List.filter_subset_self _) hgenuine hmade
      · obtain rfl := List.mem_singleton.mp hstage
        obtain ⟨repo, rfl, hadds⟩ := hmade
        exact ⟨hfit.channels, (hfit.keys.filter _).adds hadds, hfit.settings⟩
    | merge =>
      rw [hmode] at hstage
      rcases List.mem_append.mp hstage with hstage | hstage
      · obtain ⟨channel, hchannel, rfl⟩ := List.mem_map.mp hstage
        have hone := hgenuine channel (List.mem_filter.mp hchannel).1
        exact hfit.channels_written (List.Subset.refl _) (List.forall_mem_singleton.mpr hone) hmade
      · obtain ⟨key, -, rfl⟩ := List.mem_map.mp hstage
        obtain ⟨repo, rfl, hadds⟩ := hmade
        exact ⟨hfit.channels, hfit.keys.adds hadds, hfit.settings⟩
  · obtain rfl := List.mem_singleton.mp hstage
    obtain ⟨repo, rfl, hread, hvalid⟩ := hmade
    refine ⟨hfit.channels, hfit.keys, ?_⟩
    change repo.read.Valid
    rw [hread]
    exact hvalid

/-- An import keeps what holds of the tables, however it ends. -/
theorem import_fit {request : ImportRequest} (hplain : ∀ exported ∈ request.data.channels, Plain exported.channel)
    (hfit : before.Fit cipher) (admin_id : Int) (nonces : Nat → Nonces) (faults : List (Option ImportError)) :
    ((import_document admin_id cipher nonces request).run before faults).2.Fit cipher := by
  have hends := import_document_ends cipher admin_id nonces request before faults
  rcases hresult : (import_document admin_id cipher nonces request).run before faults with ⟨error | report, after⟩
  · rw [hresult] at hends
    by_cases haccepted : request.data.Accepted
    · exact hends.1.keeps (stages_fit haccepted hplain admin_id) hfit
    · exact hends.2 haccepted ▸ hfit
  · rw [hresult] at hends
    exact hends.2.keeps (stages_fit hends.1 hplain admin_id) hfit

variable {hash : String → String} {self : Instance}

/-- The step: what happens to a gateway keeps what holds of its tables. -/
theorem Instance.Fit.step (hcipher : cipher.Correct) (hvisible : ∀ plaintext, trim (hash plaintext) ≠ "") (hfit : self.Fit cipher)
    {event : Event} (hreadable : self.Readable cipher event) : (self.step cipher hash event).Fit cipher := by
  cases event with
  | channels request nonces =>
    refine ⟨⟨?_, hfit.database.keys, hfit.database.settings⟩, hfit.policy, hfit.empty_response_retry⟩
    exact Work.run_sound (request.saves hreadable.1) (view_genuine hcipher hfit.database.channels hreadable.2) hfit.database.channels
  | keys change =>
    unfold Instance.step
    dsimp only
    split
    next keys hcommit =>
      exact ⟨⟨hfit.database.channels, hfit.database.keys.commit hvisible hcommit, hfit.database.settings⟩, hfit.policy,
        hfit.empty_response_retry⟩
    · exact hfit
  | settings change =>
    unfold Instance.step
    dsimp only
    split
    next settings hset =>
      exact ⟨⟨hfit.database.channels, hfit.database.keys, SettingsRepo.set_valid hfit.database.settings hset⟩, hfit.policy,
        hfit.empty_response_retry⟩
    · exact hfit
  | users users =>
    exact ⟨⟨hfit.database.channels, hfit.database.keys, hfit.database.settings⟩, hfit.policy, hfit.empty_response_retry⟩
  | import_config admin_id nonces request faults =>
    exact ⟨import_fit hreadable hfit.database admin_id nonces faults, hfit.policy, hfit.empty_response_retry⟩
  | configure master_key =>
    exact ⟨⟨hfit.database.channels, hfit.database.keys, hfit.database.settings⟩, hfit.policy, hfit.empty_response_retry⟩
  | reload_policy => exact { hfit with policy := hfit.database.settings.routing_policy }
  | reload_empty_response_retry => exact { hfit with empty_response_retry := hfit.database.settings.empty_response_retry }

theorem Instance.Fit.fresh : Instance.Fit cipher {} where
  database := ⟨List.forall_mem_nil _, ⟨List.forall_mem_nil _, List.nodup_nil⟩, SettingsRepo.read_empty_valid⟩
  policy := by decide
  empty_response_retry := by decide

/-- The run: what holds of a fresh gateway holds after everything that happens to it. -/
theorem Instance.Fit.run (hcipher : cipher.Correct) (hvisible : ∀ plaintext, trim (hash plaintext) ≠ "") {events : List Event}
    (halong : Along (Instance.step cipher hash) (Instance.Readable cipher) {} events) :
    (events.foldl (Instance.step cipher hash) {}).Fit cipher :=
  (halong.throughout (fun _ _ hfit hreadable => hfit.step hcipher hvisible hreadable) Instance.Fit.fresh).finish

end Fit

section Completion

variable {cipher : Cipher} {admin_id : Int} {before : Database} {v1 : Bool}

theorem resolve_user_completes (user_email : Option String) :
    Access.Completes (resolve_user admin_id v1 user_email) before (imported_user v1 admin_id before user_email) before := by
  unfold resolve_user imported_user
  split
  · exact Access.completes_pure
  · unfold resolve_import_user_id Database.owner
    cases (user_email.map normalize_email).filter (· ≠ "") with
    | none => exact Access.completes_pure
    | some email => exact Access.completes_query

theorem prepare_channels_completes {exported : List ExportedChannel} (hunmasked : ∀ e ∈ exported, masked_place e.channel = none) :
    Access.Completes (prepare_channels admin_id v1 exported) before
      (exported.map fun e => imported_channel v1 (imported_user v1 admin_id before e.user_email) e.channel) before := by
  induction exported with
  | nil => exact Access.completes_pure
  | cons first rest ih =>
    obtain ⟨hfirst, hrest⟩ := List.forall_mem_cons.mp hunmasked
    have hcheck : reject_masked_credentials first.channel = .ok () := by
      unfold reject_masked_credentials
      rw [hfirst]
    have hone : Access.Completes (prepare_imported_channel admin_id v1 first) before
        (imported_channel v1 (imported_user v1 admin_id before first.user_email) first.channel) before :=
      (Access.completes_check hcheck).bind ((resolve_user_completes first.user_email).bind Access.completes_pure)
    exact hone.bind ((ih hrest).bind Access.completes_pure)

theorem prepare_keys_completes (exported : List ExportedKey) :
    Access.Completes (prepare_keys admin_id v1 exported) before
      (exported.map fun e => { e.key with user_id := some (imported_user v1 admin_id before e.user_email) }) before := by
  induction exported with
  | nil => exact Access.completes_pure
  | cons first rest ih =>
    have hone : Access.Completes (prepare_imported_key admin_id v1 first) before
        { first.key with user_id := some (imported_user v1 admin_id before first.user_email) } before :=
      (resolve_user_completes first.user_email).bind Access.completes_pure
    exact hone.bind (ih.bind Access.completes_pure)

theorem reload_completes : Access.Completes reload before () before :=
  Access.completes_query.bind (Access.completes_query.bind (Access.completes_query.bind
    (Access.completes_query.bind Access.completes_query)))

/-- The channels of a backup instead of those that are there. -/
theorem replace_channels_completes (htotal : cipher.Total) (nonces : Nat → Nonces) {channels : List Channel}
    (hvalid : ∀ channel ∈ channels, channel.Valid) :
    ∃ repo rows, Access.Completes (write_channels cipher nonces (.replace_all channels)) before ()
        { before with channels := { before.channels with repo } } ∧
      repo.rows = before.channels.repo.rows.filter (·.owner_id ≠ DEFAULT_OWNER_ID) ++ rows ∧
      List.Forall₂ (Written cipher before.channels.master_key) channels rows ∧ rows.Pairwise (·.id < ·.id) := by
  obtain ⟨sealed, hsealed, hchange⟩ := @seal_replace_total _ before.channels.master_key htotal nonces channels hvalid
  obtain ⟨rows, hrows, hwritten, hascending, -⟩ :=
    insert_channels_written hsealed (before.channels.repo.delete_rows (·.owner_id = DEFAULT_OWNER_ID))
  refine ⟨sealed.foldl ChannelRepo.insert_channel (before.channels.repo.delete_rows (·.owner_id = DEFAULT_OWNER_ID)), rows,
    Access.completes_transaction ?_, ?_, hwritten, hascending⟩
  · exact bind_eq_ok.mpr ⟨_, mapError_eq_ok.mpr hchange, rfl⟩
  · rw [hrows]
    simp [ChannelRepo.delete_rows]

/-- What a gateway with the tables of a backup has instead of its own. -/
structure Replaced (cipher : Cipher) (admin_id : Int) (request : ImportRequest) (before after : Database) : Prop where
  users : after.users = before.users
  master_key : after.channels.master_key = before.channels.master_key
  channels : ∃ rows, after.channels.repo.rows = before.channels.repo.rows.filter (·.owner_id ≠ DEFAULT_OWNER_ID) ++ rows ∧
    List.Forall₂ (Written cipher before.channels.master_key) (imported_channels admin_id request before) rows ∧
    rows.Pairwise (·.id < ·.id)
  keys : List.Forall₂ (fun key row => row = key.row row.id) (imported_keys admin_id request before) after.keys.rows
  settings : after.settings.read = request.data.settings

/-- Without errors of the database an import comes to its end. -/
theorem import_document_completes (htotal : cipher.Total) (nonces : Nat → Nonces) {request : ImportRequest}
    (hmode : request.mode = .replace) (haccepted : request.data.Accepted) (hsettings : request.data.settings.Valid)
    (hvisible : ∀ exported ∈ request.data.keys, trim exported.key.name ≠ "" ∧ trim exported.key.key_hash ≠ "")
    (hunique : (request.data.keys.map (·.key.key_hash)).Nodup) (howned : ∀ row ∈ before.keys.rows, row.owner_id = DEFAULT_OWNER_ID) :
    ∃ report after, Access.Completes (import_document admin_id cipher nonces request) before report after ∧
      Replaced cipher admin_id request before after := by
  have hversion : check_version request.data.version = .ok () := by
    rcases haccepted.version with h | h <;> rw [h] <;> rfl
  have hchecked : request.data.channels.forM check_channel = .ok () := forM_check.mpr haccepted.valid
  have hchannels : ∀ channel ∈ imported_channels admin_id request before, channel.Valid := by
    intro channel hchannel
    obtain ⟨exported, hexported, rfl⟩ := List.mem_map.mp hchannel
    exact imported_channel_valid (Channel.validate_ok_iff.mp (haccepted.valid exported hexported)) _ _
  obtain ⟨repo, rows, hwrite, hrows, hwritten, hascending⟩ :=
    @replace_channels_completes cipher before htotal nonces _ hchannels
  have hcleared : before.keys.rows.filter (!KeyRepo.owned ·) = [] :=
    List.filter_eq_nil_iff.mpr fun row hrow => by simp [KeyRepo.owned, howned row hrow]
  have hkeys : ∀ key ∈ imported_keys admin_id request before, trim key.name ≠ "" ∧ trim key.key_hash ≠ "" := by
    intro key hkey
    obtain ⟨exported, hexported, rfl⟩ := List.mem_map.mp hkey
    exact hvisible exported hexported
  have hhashes : ((imported_keys admin_id request before).map (·.key_hash)).Nodup := by
    unfold imported_keys
    rw [List.map_map]
    exact hunique
  have hfresh : ∀ key ∈ imported_keys admin_id request before,
      KeyRepo.has_hash { before.keys with rows := before.keys.rows.filter (!KeyRepo.owned ·) } key.key_hash = false := by
    intro key _
    rw [KeyRepo.has_hash, hcleared]
    rfl
  obtain ⟨⟨imported, skipped⟩, keys, restored, hall, hrestored, hmatch⟩ := KeyRepo.insert_all_fresh hkeys hhashes hfresh
  obtain ⟨settings, himport⟩ := SettingsRepo.import_settings_valid hsettings
  let report : ImportReport :=
    { channels_imported := (imported_channels admin_id request before).length, keys_imported := imported, skipped_channels := [],
      skipped_keys := skipped }
  have hreplace : Access.Completes (write_config cipher nonces (imported_channels admin_id request before)
      (imported_keys admin_id request before) request.mode) before report
      { before with channels := { before.channels with repo }, keys } := by
    rw [hmode]
    refine hwrite.bind (Access.Completes.bind (a := (imported, skipped)) (Access.completes_transaction ?_) Access.completes_pure)
    exact bind_eq_ok.mpr ⟨_, mapError_eq_ok.mpr hall, rfl⟩
  refine ⟨report, { before with channels := { before.channels with repo }, keys, settings }, ?_, ?_⟩
  · refine (Access.completes_check hversion).bind ((Access.completes_check hchecked).bind ?_)
    refine (prepare_channels_completes haccepted.unmasked).bind ((prepare_keys_completes request.data.keys).bind ?_)
    refine hreplace.bind (Access.Completes.bind (a := ()) (Access.completes_transaction ?_)
      (reload_completes.bind Access.completes_pure))
    exact bind_eq_ok.mpr ⟨_, mapError_eq_ok.mpr himport, rfl⟩
  · refine ⟨rfl, rfl, ⟨rows, hrows, hwritten, hascending⟩, ?_, (SettingsRepo.import_settings_ok himport).1⟩
    change List.Forall₂ _ _ keys.rows
    rw [hrestored, hcleared]
    exact hmatch

end Completion

end refract.gateway.backup
