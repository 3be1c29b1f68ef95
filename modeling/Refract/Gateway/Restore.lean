import Refract.Gateway.Recovery

open refract.core refract.json refract.machine refract.store

namespace refract.gateway.backup

/-- A channel after its backup was restored. Its number is another one, and a private channel has
    the user with the address of its user, or the first administrator. -/
structure ChannelCarried (source target : Database) (admin_id : Int) (channel carried : Channel) : Prop where
  fields : { carried with
    id := channel.id, auto_disabled := channel.auto_disabled, balance := channel.balance, user_id := channel.user_id } = channel
  shared : channel.visibility ≠ .exclusive → carried.user_id = none
  exclusive : channel.visibility = .exclusive → carried.user_id = some (target.owner admin_id (channel.user_id.bind source.email))

/-- A key after its backup was restored. -/
def KeyCarried (source target : Database) (admin_id : Int) (key carried : ExportedApiKey) : Prop :=
  carried = { key with user_id := some (target.owner admin_id (key.user_id.bind source.email)) }

namespace ExportDocument

variable (self : ExportDocument)

/-- A document but for the numbers of its channels, and for what a gateway found out about
    them. -/
def configuration : ExportDocument :=
  { self with
    channels := self.channels.map fun exported =>
      { exported with channel := { exported.channel with id := 0, auto_disabled := false, balance := none } } }

/-- A document with the addresses of the users that its parts get. -/
def readdressed (target : Database) (admin_id : Int) : ExportDocument :=
  { self with
    channels := self.channels.map fun exported =>
      { exported with
        user_email :=
          if exported.channel.visibility = .exclusive then target.email (target.owner admin_id exported.user_email) else none }
    keys := self.keys.map fun exported => { exported with user_email := target.email (target.owner admin_id exported.user_email) } }

end ExportDocument

/-- The users of a database have numbers and addresses of their own. -/
structure Database.Indexed (database : Database) : Prop where
  ids : (database.users.map (·.id)).Nodup
  emails : (database.users.map (·.email.toLower)).Nodup

/-- A database has a user for an address. -/
structure Database.Knows (database : Database) (email : String) : Prop where
  visible : email ≠ ""
  trimmed : trim email = email
  user : ∃ user ∈ database.users, user.email = email

/-- What a document names has a user that the database knows. -/
structure ExportDocument.Known (document : ExportDocument) (target : Database) : Prop where
  channels : ∀ exported ∈ document.channels,
    if exported.channel.visibility = .exclusive then ∃ email, exported.user_email = some email ∧ target.Knows email
    else exported.user_email = none
  keys : ∀ exported ∈ document.keys, ∃ email, exported.user_email = some email ∧ target.Knows email

/-- A gateway that a backup was restored into. -/
structure Restored (cipher : Cipher) (admin_id : Int) (source target after : Instance) : Prop where
  channels : List.Forall₂ (ChannelCarried source.database target.database admin_id)
    (source.database.list cipher) (after.database.list cipher)
  keys : List.Forall₂ (KeyCarried source.database target.database admin_id)
    source.database.keys.export_all after.database.keys.export_all
  settings : after.database.settings.read = source.exported_settings
  policies : after.exported_settings = source.exported_settings
  /-- The backup of the gateway is the one that was restored, with the addresses of the users that its
      parts got. -/
  document : (after.export_config cipher).configuration =
    (source.export_config cipher).configuration.readdressed target.database admin_id

/-- Replaces what a gateway has by a backup. The policies are read again at the end. -/
def restoring (admin_id : Int) (nonces : Nat → Nonces) (document : ExportDocument) : List Event :=
  [.import_config admin_id nonces { mode := .replace, data := document } [], .reload_policy, .reload_empty_response_retry]

section Addresses

variable {database : Database} {admin_id : Int} {email : String}

theorem toLower_char (c : Char) : c.toLower.toLower = c.toLower := by
  unfold Char.toLower
  split
  next h =>
    rw [dif_neg]
    rintro ⟨-, hle⟩
    simp only [UInt32.le_iff_toNat_le, UInt32.toNat_add] at h hle
    grind
  · rfl

theorem toList_toLower (text : String) : text.toLower.toList = text.toList.map Char.toLower := String.toList_map

theorem toLower_toLower (text : String) : text.toLower.toLower = text.toLower := by
  refine String.toList_injective ?_
  rw [toList_toLower, toList_toLower, List.map_map]
  exact List.map_congr_left fun c _ => toLower_char c

theorem toLower_eq_empty {text : String} (hlower : text.toLower = "") : text = "" := by
  have hchars : text.toList.map Char.toLower = [] := by rw [← toList_toLower, hlower, String.toList_empty]
  exact String.toList_injective (List.map_eq_nil_iff.mp hchars)

/-- A user is found by the address, which is found by the user. -/
theorem Database.Indexed.email_owner (hindexed : database.Indexed) (hknows : database.Knows email) :
    database.email (database.owner admin_id (some email)) = some email := by
  obtain ⟨user, huser, rfl⟩ := hknows.user
  have hnormal : normalize_email user.email = user.email.toLower := by rw [normalize_email, hknows.trimmed]
  have hvisible : user.email.toLower ≠ "" := fun hempty => hknows.visible (toLower_eq_empty hempty)
  have hfind : database.find_by_email user.email.toLower = some user.id := by
    rw [Database.find_by_email, toLower_toLower]
    rw [@find?_of_nodup _ _ _ _ (fun u : User => u.email.toLower) _ hindexed.emails huser]
    rfl
  have howner : database.owner admin_id (some user.email) = user.id := by
    unfold Database.owner
    rw [Option.map_some, hnormal, Option.filter_some, if_pos (by simpa using hvisible)]
    dsimp only
    rw [hfind]
    rfl
  rw [howner, Database.email, @find?_of_nodup _ _ _ _ (fun u : User => u.id) _ hindexed.ids huser]
  rfl

end Addresses

section Channels

variable {cipher : Cipher} {source target : Database} {admin_id : Int}

/-- A channel as an administrator sees it. -/
structure Listed (channel : Channel) : Prop where
  valid : channel.Valid
  genuine : Each Genuine channel
  endpoints : channel.endpoints.Pairwise fun a b => a.order ≤ b.order
  owner : channel.owner_id = DEFAULT_OWNER_ID

theorem Database.Fit.listed (hcipher : cipher.Correct) (hfit : source.Fit cipher) (hread : ∀ channel ∈ source.list cipher, Plain channel) :
    ∀ channel ∈ source.list cipher, Listed channel := by
  intro channel hchannel
  have hplain := hread channel hchannel
  obtain ⟨row, hrow, rfl⟩ := List.mem_map.mp hchannel
  obtain ⟨hall, howner⟩ := List.mem_filter.mp hrow
  have hmem : row ∈ source.channels.repo.rows := (sort_by_key_perm _ _).mem_iff.mp hall
  obtain ⟨original, hvalid, hgenuine, hstands⟩ := hfit.channels row hmem
  rw [hstands.assembled hcipher hvalid.pool (hgenuine.imp fun _ h => h.1) hplain]
  exact ⟨valid_reread hvalid, hgenuine.reread, sort_by_key_sorted _ _, of_decide_eq_true howner⟩

/-- Larger priorities come first. -/
theorem Database.list_sorted : (source.list cipher).Pairwise fun a b => b.priority ≤ a.priority := by
  have hsorted := sort_by_key_sorted (fun channel : Channel => toLex (OrderDual.toDual channel.priority, channel.id)) source.channels.repo.rows
  rw [Database.list, List.pairwise_map]
  refine (List.Pairwise.filter _ hsorted).imp fun {a b} hle => ?_
  exact OrderDual.toDual_le_toDual.mp (Prod.Lex.monotone_fst _ _ hle)

/-- A channel without what belongs to its gateway only. -/
def carried_channel (source target : Database) (admin_id : Int) (channel : Channel) : Channel :=
  imported_channel false (target.owner admin_id (channel.user_id.bind source.email)) { channel with user_id := none }

/-- What is read of a row that was just written. -/
theorem Written.assembled (hcipher : cipher.Correct) {master_key : Option MasterKey} {channel row : Channel}
    (hwritten : Written cipher master_key channel row) (hvisible : ∀ c ∈ channel.credentials, c.is_empty = false) (hplain : Plain channel) :
    assemble cipher master_key row =
      { channel with
        id := row.id, auto_disabled := false, balance := none, endpoints := sort_by_key (·.order) channel.endpoints } := by
  obtain ⟨nonces, sealed, hseal, hrow⟩ := hwritten
  have hsealed := assemble_sealed hcipher hvisible hplain hseal (.inl rfl)
  have hfields := congrArg (fun read : Channel => { read with id := row.id, auto_disabled := false, balance := none }) hsealed
  rw [hrow]
  exact hfields

theorem Listed.carried (hcipher : cipher.Correct) {master_key : Option MasterKey} {channel row : Channel} (hlisted : Listed channel)
    (hwritten : Written cipher master_key (carried_channel source target admin_id channel) row) :
    ChannelCarried source target admin_id channel (assemble cipher master_key row) := by
  have hsorted : sort_by_key (fun ep : ChannelEndpoint => ep.order) channel.endpoints = channel.endpoints :=
    sort_by_key_of_sorted _ hlisted.endpoints
  have hplain : Each (is_encrypted · = false) channel := hlisted.genuine.imp fun _ h => h.1
  have howner := hlisted.owner
  have hpool := hlisted.valid.pool
  unfold carried_channel imported_channel at hwritten
  dsimp only at hwritten
  rw [if_neg Bool.false_ne_true] at hwritten
  split at hwritten
  next hexclusive =>
    rw [hwritten.assembled hcipher hpool ⟨hplain.credential, hplain.pool, hplain.endpoints⟩]
    refine ⟨?_, fun hnot => absurd hexclusive hnot, fun _ => rfl⟩
    dsimp only
    rw [hsorted, ← howner]
  next hshared =>
    rw [hwritten.assembled hcipher hpool ⟨hplain.credential, hplain.pool, hplain.endpoints⟩]
    refine ⟨?_, fun _ => rfl, fun hexclusive => absurd hexclusive hshared⟩
    dsimp only
    rw [hsorted, ← howner]

theorem ChannelCarried.priority {channel carried : Channel} (hcarried : ChannelCarried source target admin_id channel carried) :
    carried.priority = channel.priority :=
  (congrArg (fun read : Channel => read.priority) hcarried.fields :)

theorem ChannelCarried.owner {channel carried : Channel} (hcarried : ChannelCarried source target admin_id channel carried) :
    carried.owner_id = channel.owner_id :=
  (congrArg (fun read : Channel => read.owner_id) hcarried.fields :)

/-- The channels are listed in the order in which they were. -/
theorem carried_list {kept rows : List Channel} {after : Database} (hlisted : ∀ channel ∈ source.list cipher, Listed channel)
    (hrows : after.channels.repo.rows = kept.filter (·.owner_id ≠ DEFAULT_OWNER_ID) ++ rows) (hascending : rows.Pairwise (·.id < ·.id))
    (hcarried : List.Forall₂ (fun channel row => ChannelCarried source target admin_id channel (assemble cipher after.channels.master_key row))
      (source.list cipher) rows) :
    after.list cipher = rows.map (assemble cipher after.channels.master_key) := by
  have howned : ∀ row ∈ rows, row.owner_id = DEFAULT_OWNER_ID := by
    intro row hrow
    obtain ⟨channel, hchannel, hrelated⟩ := exists_of_mem_forall₂ hcarried.flip hrow
    exact hrelated.owner.trans (hlisted channel hchannel).owner
  have hown : after.channels.repo.rows.filter (fun row => decide (row.owner_id = DEFAULT_OWNER_ID)) = rows := by
    have hothers : (kept.filter (·.owner_id ≠ DEFAULT_OWNER_ID)).filter (fun row => decide (row.owner_id = DEFAULT_OWNER_ID)) = [] := by
      rw [List.filter_filter]
      exact List.filter_eq_nil_iff.mpr fun row _ => by simp
    have hnew : rows.filter (fun row => decide (row.owner_id = DEFAULT_OWNER_ID)) = rows :=
      List.filter_eq_self.mpr fun row hrow => decide_eq_true (howned row hrow)
    rw [hrows, List.filter_append, hothers, hnew, List.nil_append]
  have hsorted : rows.Pairwise fun a b =>
      toLex (OrderDual.toDual a.priority, a.id) ≤ toLex (OrderDual.toDual b.priority, b.id) := by
    refine pairwise_of_forall₂ hcarried source.list_sorted hascending fun first a second b hfirst hsecond hpriority hless => ?_
    rw [← hfirst.priority, ← hsecond.priority] at hpriority
    rcases hpriority.lt_or_eq with hlt | heq
    · exact Prod.Lex.toLex_le_toLex.mpr (.inl hlt)
    · exact Prod.Lex.toLex_le_toLex.mpr (.inr ⟨congrArg OrderDual.toDual heq.symm, hless.le⟩)
  unfold Database.list ChannelRepo.list ChannelRepo.list_all
  rw [filter_sort_of_sorted _ (by rw [hown]; exact hsorted), hown]

end Channels

section Keys

variable {source target after : Database} {admin_id : Int}

/-- A key that meets the rules is restored as it is. -/
theorem exported_row {row : StoredApiKey} (hfit : row.Fit) (user_id : Option Int) (id : Int) :
    (ExportedApiKey.row { row.exported with user_id } id).exported = { row.exported with user_id } := by
  simp only [ExportedApiKey.row, StoredApiKey.exported, hfit.trimmed, max_eq_left hfit.rpm_limit, max_eq_left hfit.tpm_limit,
    max_eq_left hfit.budget, max_eq_left hfit.used_budget]

theorem carried_keys (hfit : source.keys.Fit)
    (hrows : List.Forall₂ (fun key row => row = key.row row.id)
      (source.keys.export_all.map fun key =>
        { key with user_id := some (target.owner admin_id (key.user_id.bind source.email)) }) after.keys.rows) :
    List.Forall₂ (KeyCarried source target admin_id) source.keys.export_all after.keys.export_all := by
  have hall : after.keys.rows.filter KeyRepo.owned = after.keys.rows := by
    refine List.filter_eq_self.mpr fun row hrow => ?_
    obtain ⟨key, -, hsame⟩ := exists_of_mem_forall₂ hrows.flip hrow
    rw [hsame]
    rfl
  rw [List.forall₂_map_left_iff] at hrows
  unfold KeyRepo.export_all at hrows ⊢
  rw [hall, List.forall₂_map_right_iff]
  refine forall₂_imp_of_mem hrows fun key hkey row _ hsame => ?_
  obtain ⟨original, horiginal, rfl⟩ := List.mem_map.mp hkey
  rw [KeyCarried, hsame]
  exact exported_row (hfit.rows original (List.mem_filter.mp horiginal).1) _ _

end Keys

section Document

variable {cipher : Cipher} {source target after : Instance} {admin_id : Int}

theorem imported_channels_export :
    imported_channels admin_id { mode := .replace, data := source.export_config cipher } target.database =
      (source.database.list cipher).map (carried_channel source.database target.database admin_id) := by
  simp only [imported_channels, Instance.export_config, List.map_map]
  rfl

theorem imported_keys_export :
    imported_keys admin_id { mode := .replace, data := source.export_config cipher } target.database =
      source.database.keys.export_all.map fun key =>
        { key with user_id := some (target.database.owner admin_id (key.user_id.bind source.database.email)) } := by
  simp only [imported_keys, Instance.export_config, List.map_map]
  rfl

theorem exported_settings_valid (hfit : source.Fit cipher) : source.exported_settings.Valid :=
  { hfit.database.settings with routing_policy := hfit.policy, empty_response_retry := hfit.empty_response_retry }

/-- What is exported can be imported. -/
theorem export_accepted (hlisted : ∀ channel ∈ source.database.list cipher, Listed channel) : (source.export_config cipher).Accepted where
  version := .inr rfl
  valid exported hexported := by
    obtain ⟨channel, hchannel, rfl⟩ := List.mem_map.mp hexported
    have hvalid := (hlisted channel hchannel).valid
    exact Channel.validate_ok_iff.mpr
      ⟨hvalid.name, hvalid.endpoints, hvalid.pool, hvalid.kind,
        fun ep hep => ⟨(hvalid.each ep hep).self_transcode, (hvalid.each ep hep).credential, (hvalid.each ep hep).models,
          (hvalid.each ep hep).address⟩,
        hvalid.distinct, hvalid.address, hvalid.headers, hvalid.retry⟩
  unmasked exported hexported := by
    obtain ⟨channel, hchannel, rfl⟩ := List.mem_map.mp hexported
    have hgenuine := (hlisted channel hchannel).genuine
    exact masked_place_eq_none.mpr
      ⟨hgenuine.credential.2, fun c hc => (hgenuine.pool c hc).2, fun ep hep c hc => (hgenuine.endpoints ep hep c hc).2⟩

/-- The backup of a gateway that a backup was restored into. -/
theorem carried_document (husers : after.database.users = target.database.users)
    (hchannels : List.Forall₂ (ChannelCarried source.database target.database admin_id)
      (source.database.list cipher) (after.database.list cipher))
    (hkeys : List.Forall₂ (KeyCarried source.database target.database admin_id)
      source.database.keys.export_all after.database.keys.export_all)
    (hsettings : after.exported_settings = source.exported_settings) :
    (after.export_config cipher).configuration =
      (source.export_config cipher).configuration.readdressed target.database admin_id := by
  have hemail : after.database.email = target.database.email := by
    funext id
    rw [Database.email, Database.email, husers]
  simp only [Instance.export_config, ExportDocument.configuration, ExportDocument.readdressed, List.map_map, hsettings]
  congr 1
  · refine map_eq_of_forall₂ hchannels fun channel carried hcarried => ?_
    have hfields := hcarried.fields
    have hchannel := congrArg
      (fun read : Channel => { read with user_id := none, id := 0, auto_disabled := false, balance := none }) hfields
    dsimp only at hchannel
    simp only [Function.comp_apply, Database.exported_channel, hemail, hchannel]
    congr 1
    by_cases hexclusive : channel.visibility = .exclusive
    · rw [hcarried.exclusive hexclusive, Option.bind_some]
      exact (if_pos hexclusive).symm
    · rw [hcarried.shared hexclusive, Option.bind_none]
      exact (if_neg hexclusive).symm
  · refine map_eq_of_forall₂ hkeys fun key carried hcarried => ?_
    rw [hcarried]
    simp only [Function.comp_apply, Database.exported_key, hemail, Option.bind_some]

/-- A document whose users are known keeps its addresses. -/
theorem readdressed_of_known {document : ExportDocument} {target : Database} (hindexed : target.Indexed) (hknown : document.Known target) :
    document.readdressed target admin_id = document := by
  have hchannels : document.channels.map (fun exported =>
      { exported with
        user_email :=
          if exported.channel.visibility = .exclusive then target.email (target.owner admin_id exported.user_email) else none }) =
      document.channels := by
    refine (List.map_congr_left fun exported hexported => ?_).trans (List.map_id _)
    have h := hknown.channels exported hexported
    split at h
    next hexclusive =>
      obtain ⟨email, hemail, hknows⟩ := h
      rw [if_pos hexclusive, hemail, hindexed.email_owner hknows, ← hemail]
      rfl
    next hshared =>
      rw [if_neg hshared, ← h]
      rfl
  have hkeys : document.keys.map (fun exported =>
      { exported with user_email := target.email (target.owner admin_id exported.user_email) }) = document.keys := by
    refine (List.map_congr_left fun exported hexported => ?_).trans (List.map_id _)
    obtain ⟨email, hemail, hknows⟩ := hknown.keys exported hexported
    rw [hemail, hindexed.email_owner hknows, ← hemail]
    rfl
  rw [ExportDocument.readdressed, hchannels, hkeys]

end Document

section Run

variable {cipher : Cipher} {hash : String → String} {source target : Instance}

/-- What is restored, if both gateways are fit and the backup can be read. -/
theorem Instance.Fit.restored (hcipher : cipher.Correct) (htotal : cipher.Total) (hsource : source.Fit cipher) (htarget : target.Fit cipher)
    (hread : ∀ channel ∈ source.database.list cipher, Plain channel) (admin_id : Int) (nonces : Nat → Nonces) :
    Restored cipher admin_id source target
      ((restoring admin_id nonces (source.export_config cipher)).foldl (Instance.step cipher hash) target) := by
  have hlisted := hsource.database.listed hcipher hread
  have hnames : ∀ exported ∈ (source.export_config cipher).keys, trim exported.key.name ≠ "" ∧ trim exported.key.key_hash ≠ "" := by
    intro exported hexported
    obtain ⟨key, hkey, rfl⟩ := List.mem_map.mp hexported
    obtain ⟨row, hrow, rfl⟩ := List.mem_map.mp hkey
    have hfit := hsource.database.keys.rows row (List.mem_filter.mp hrow).1
    exact ⟨hfit.named, hfit.hashed⟩
  have hhashes : ((source.export_config cipher).keys.map (·.key.key_hash)).Nodup := by
    have hsame : (source.export_config cipher).keys.map (·.key.key_hash) =
        (source.database.keys.rows.filter KeyRepo.owned).map (·.key_hash) := by
      simp only [Instance.export_config, KeyRepo.export_all, List.map_map]
      rfl
    rw [hsame]
    exact hsource.database.keys.unique.sublist (List.filter_sublist.map _)
  obtain ⟨report, after, hcompletes, hreplaced⟩ := @import_document_completes cipher admin_id target.database htotal nonces
    { mode := .replace, data := source.export_config cipher } rfl (export_accepted hlisted) (exported_settings_valid hsource) hnames hhashes
    fun row hrow => (htarget.database.keys.rows row hrow).owner
  have hrun : (restoring admin_id nonces (source.export_config cipher)).foldl (Instance.step cipher hash) target =
      { database := after, policy := after.settings.read.routing_policy, empty_response_retry := after.settings.read.empty_response_retry } := by
    have hafter : ((import_document admin_id cipher nonces { mode := .replace, data := source.export_config cipher }).run
        target.database []).2 = after := by
      rw [Access.run, hcompletes]
    simp only [restoring, List.foldl_cons, List.foldl_nil, Instance.step, hafter]
  obtain ⟨rows, hrows, hwritten, hascending⟩ := hreplaced.channels
  rw [imported_channels_export, List.forall₂_map_left_iff, ← hreplaced.master_key] at hwritten
  have hcarried := forall₂_imp_of_mem hwritten fun channel hchannel row _ hrow => (hlisted channel hchannel).carried hcipher hrow
  have hlist := carried_list hlisted hrows hascending hcarried
  have hchannels : List.Forall₂ (ChannelCarried source.database target.database admin_id) (source.database.list cipher) (after.list cipher) := by
    rw [hlist, List.forall₂_map_right_iff]
    exact hcarried
  have hkeys := hreplaced.keys
  rw [imported_keys_export] at hkeys
  have hkeys := carried_keys hsource.database.keys hkeys
  have hpolicies : Instance.exported_settings
      { database := after, policy := after.settings.read.routing_policy, empty_response_retry := after.settings.read.empty_response_retry } =
      source.exported_settings := hreplaced.settings
  rw [hrun]
  exact ⟨hchannels, hkeys, hreplaced.settings, hpolicies, carried_document hreplaced.users hchannels hkeys hpolicies⟩

theorem ExportDocument.Known.configuration {document : ExportDocument} {database : Database} (hknown : document.Known database) :
    document.configuration.Known database where
  channels exported hexported := by
    obtain ⟨original, horiginal, rfl⟩ := List.mem_map.mp hexported
    exact hknown.channels original horiginal
  keys := hknown.keys

/-- A backup of one gateway, restored into another: the channels, the keys and the settings are
    those of the backup. Where the users are known, the next backup is the same. -/
theorem backup_restored (hcipher : cipher.Correct) (htotal : cipher.Total) (hvisible : ∀ plaintext, trim (hash plaintext) ≠ "")
    {events target_events : List Event} (halong : Along (Instance.step cipher hash) (Instance.Readable cipher) {} events)
    (htarget : Along (Instance.step cipher hash) (Instance.Readable cipher) {} target_events)
    (hread : ∀ channel ∈ (events.foldl (Instance.step cipher hash) {}).database.list cipher, Plain channel) (admin_id : Int)
    (nonces : Nat → Nonces) :
    let source := events.foldl (Instance.step cipher hash) {}
    let target := target_events.foldl (Instance.step cipher hash) {}
    let document := source.export_config cipher
    let after := (restoring admin_id nonces document).foldl (Instance.step cipher hash) target
    Restored cipher admin_id source target after ∧
      (target.database.Indexed → document.Known target.database →
        (after.export_config cipher).configuration = document.configuration) := by
  intro source target document after
  have hrestored : Restored cipher admin_id source target after :=
    (Instance.Fit.run hcipher hvisible halong).restored hcipher htotal (Instance.Fit.run hcipher hvisible htarget) hread admin_id nonces
  refine ⟨hrestored, fun hindexed hknown => ?_⟩
  rw [hrestored.document]
  exact readdressed_of_known hindexed hknown.configuration

end Run

/-- A cipher that writes the key before the text, but for the credential `sk-a`. -/
def open_cipher : Cipher where
  encrypt key nonce plain :=
    if key = first_key ∧ nonce = first_nonce.val ∧ plain = stream.as_bytes "sk-a" then some first_ciphertext else some (key.val ++ plain)
  decrypt key nonce sealed :=
    if key = first_key ∧ nonce = first_nonce.val ∧ sealed = first_ciphertext then some (stream.as_bytes "sk-a")
    else if key.val <+: sealed then some (sealed.drop 32) else none

theorem open_cipher_total : open_cipher.Total := by
  intro key nonce plain
  unfold open_cipher
  dsimp only
  split
  · exact ⟨_, rfl⟩
  · exact ⟨_, rfl⟩

theorem first_ciphertext_keyless (key : MasterKey) : ¬key.val <+: first_ciphertext := by
  intro hbegins
  have hle := hbegins.length_le
  rw [key.property] at hle
  exact absurd hle (by decide)

theorem open_cipher_correct : open_cipher.Correct where
  opens key nonce plain sealed hencrypt := by
    simp only [open_cipher] at hencrypt ⊢
    split at hencrypt
    next h =>
      obtain rfl := Option.some.inj hencrypt
      rw [if_pos ⟨h.1, h.2.1, rfl⟩, h.2.2]
    next h =>
      obtain rfl := Option.some.inj hencrypt
      rw [if_neg, if_pos (List.prefix_append _ _), List.drop_left' key.property]
      rintro ⟨-, -, hsame⟩
      exact first_ciphertext_keyless key (hsame ▸ List.prefix_append _ _)
  refuses key other nonce plain sealed hencrypt hother := by
    simp only [open_cipher] at hencrypt ⊢
    split at hencrypt
    next h =>
      obtain rfl := Option.some.inj hencrypt
      rw [if_neg fun hsame => hother (hsame.1.trans h.1.symm), if_neg (first_ciphertext_keyless other)]
    next h =>
      obtain rfl := Option.some.inj hencrypt
      rw [if_neg, if_neg]
      · intro hbegins
        have hsame := List.prefix_of_prefix_length_le hbegins (List.prefix_append key.val plain)
          (other.property.trans key.property.symm).le
        exact hother (Subtype.ext (hsame.eq_of_length (other.property.trans key.property.symm)))
      · rintro ⟨-, -, hsame⟩
        exact first_ciphertext_keyless key (hsame ▸ List.prefix_append _ _)

/-- A gateway with one channel of a user. -/
def private_channel : List Event :=
  [.users [⟨7, "user@example.com"⟩], .channels (.create_channel (holder "sk-a") (some 7)) fun _ => first_nonces]

abbrev private_source : Instance := private_channel.foldl (Instance.step open_cipher fun _ => "h") {}

/-- A gateway that does not know the user. -/
def other_users : List Event := [.users [⟨1, "admin@localhost"⟩], .configure (some first_key)]

abbrev keyed_target : Instance := other_users.foldl (Instance.step open_cipher fun _ => "h") {}

def private_row : Channel := { holder "sk-a" with visibility := .exclusive, user_id := some 7 }

theorem private_source_rows : private_source.database.channels.repo.rows = [private_row] := rfl

theorem private_row_plain : Plain (assemble open_cipher none private_row) where
  credential := by decide +kernel
  pool := List.forall_mem_nil _
  endpoints ep hep c hc := by
    obtain rfl : ep = { protocol := .chat } := by simpa [assemble, private_row, holder, load_endpoints_eq, sort_by_key, open_endpoint] using hep
    cases hc

theorem private_source_list : private_source.database.list open_cipher = [assemble open_cipher none private_row] := by
  rw [Database.list, ChannelRepo.list, ChannelRepo.list_all, private_source_rows, sort_by_key_of_sorted _ (List.pairwise_singleton _ _)]
  rfl

theorem private_channel_along : Along (Instance.step open_cipher fun _ => "h") (Instance.Readable open_cipher) {} private_channel :=
  ⟨trivial, ⟨⟨by decide +kernel, List.forall_mem_nil _, fun ep hep c hc => by
    obtain rfl := List.mem_singleton.mp hep
    cases hc⟩, List.forall_mem_nil _⟩, trivial⟩

theorem other_users_along : Along (Instance.step open_cipher fun _ => "h") (Instance.Readable open_cipher) {} other_users :=
  ⟨trivial, trivial, trivial⟩

theorem backup_restored_of_private_channel :
    let document := private_source.export_config open_cipher
    let after := (restoring 1 first_nonces document).foldl (Instance.step open_cipher fun _ => "h") keyed_target
    Restored open_cipher 1 private_source keyed_target after ∧
      (keyed_target.database.Indexed → document.Known keyed_target.database →
        (after.export_config open_cipher).configuration = document.configuration) :=
  backup_restored open_cipher_correct open_cipher_total (fun _ => by decide +kernel) private_channel_along other_users_along
    (private_source_list ▸ List.forall_mem_singleton.mpr private_row_plain) 1 first_nonces

/-- The channel goes to the first administrator. -/
theorem unknown_user_not_restored :
    ¬∀ events target_events : List Event,
      Along (Instance.step open_cipher fun _ => "h") (Instance.Readable open_cipher) {} events →
      Along (Instance.step open_cipher fun _ => "h") (Instance.Readable open_cipher) {} target_events →
      let source := events.foldl (Instance.step open_cipher fun _ => "h") {}
      let target := target_events.foldl (Instance.step open_cipher fun _ => "h") {}
      let after := (restoring 1 first_nonces (source.export_config open_cipher)).foldl (Instance.step open_cipher fun _ => "h") target
      List.Forall₂ (fun channel restored => restored.user_id.bind target.database.email = channel.user_id.bind source.database.email)
        (source.database.list open_cipher) (after.database.list open_cipher) := by
  intro hall
  have hsame : List.Forall₂ (fun channel restored : Channel =>
      restored.user_id.bind keyed_target.database.email = channel.user_id.bind private_source.database.email)
      (private_source.database.list open_cipher)
      (((restoring 1 first_nonces (private_source.export_config open_cipher)).foldl
        (Instance.step open_cipher fun _ => "h") keyed_target).database.list open_cipher) :=
    hall private_channel other_users private_channel_along other_users_along
  have hsource : private_source.Fit open_cipher := Instance.Fit.run open_cipher_correct (fun _ => by decide +kernel) private_channel_along
  have htarget : keyed_target.Fit open_cipher :=
    Instance.Fit.run open_cipher_correct (fun _ => by decide +kernel) other_users_along
  have hrestored := @Instance.Fit.restored _ (fun _ => "h") _ _ open_cipher_correct open_cipher_total hsource htarget
    (private_source_list ▸ List.forall_mem_singleton.mpr private_row_plain) 1 first_nonces
  have hcarried := hrestored.channels
  rw [private_source_list] at hcarried hsame
  cases hlist : (((restoring 1 first_nonces (private_source.export_config open_cipher)).foldl
      (Instance.step open_cipher fun _ => "h") keyed_target).database.list open_cipher) with
  | nil =>
    rw [hlist] at hcarried
    cases hcarried
  | cons restored rest =>
    rw [hlist] at hcarried hsame
    cases hcarried with
    | cons hfirst _ =>
      cases hsame with
      | cons hemail _ =>
        rw [hfirst.exclusive rfl] at hemail
        revert hemail
        decide +kernel

end refract.gateway.backup
