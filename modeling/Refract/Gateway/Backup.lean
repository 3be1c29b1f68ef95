import Refract.Gateway.Admin
import Refract.Machine.Transaction
import Refract.Store.KeyRepo
import Refract.Store.Sealing
import Refract.Store.Settings

open refract.core refract.json refract.machine refract.store

namespace refract.gateway.backup

/-- A user, as far as a backup names it. -/
structure User where
  id : Int
  email : String

/-- The tables that are backed up, and the users that they belong to. -/
structure Database where
  channels : SealedRepo := {}
  keys : KeyRepo := {}
  settings : SettingsRepo := {}
  users : List User := []

/-- A channel of a backup. Its user is named by the e-mail address. -/
structure ExportedChannel where
  channel : Channel
  user_email : Option String := none

structure ExportedKey where
  key : ExportedApiKey
  user_email : Option String := none

structure ExportDocument where
  version : Nat
  channels : List ExportedChannel := []
  keys : List ExportedKey := []
  settings : ExportedSettings

structure ImportRequest where
  mode : ImportMode := .merge
  data : ExportDocument

inductive ImportError where
  | invalid_request (message : String)
  | store (error : StoreError)
  deriving DecidableEq, Repr

def normalize_email (email : String) : String := (trim email).toLower

namespace Database

variable (self : Database)

/-- Addresses differ by more than their case. -/
def find_by_email (email : String) : Option Int := (self.users.find? (·.email.toLower = email.toLower)).map (·.id)

/-- The user of an address. What belongs to none belongs to the first administrator. -/
def owner (admin_id : Int) (user_email : Option String) : Int :=
  match (user_email.map normalize_email).filter (· ≠ "") with
  | some email => (self.find_by_email email).getD admin_id
  | none => admin_id

end Database

/-- Where a channel has a masked key. -/
def masked_place (channel : Channel) : Option String :=
  if looks_masked channel.credential.value then some "渠道默认"
  else if channel.credentials.any (looks_masked ·.value) then some "密钥池"
  else (channel.endpoints.find? (·.credential.any (looks_masked ·.value))).map fun ep => ep.protocol.as_str ++ " 端点"

def reject_masked_credentials (channel : Channel) : Except ImportError Unit :=
  match masked_place channel with
  | some place =>
    .error (.invalid_request (place ++ "密钥是脱敏占位符（含 … 或 •）。修改协议或复制配置后，请重新输入真实密钥"))
  | none => .ok ()

def check_version (version : Nat) : Except ImportError Unit :=
  if version = 1 || version = 2 then .ok ()
  else
    .error (.invalid_request
      ("unsupported backup version " ++ toString version ++ "; this build accepts versions 1 and 2"))

def check_channel (exported : ExportedChannel) : Except ImportError Unit :=
  exported.channel.validate.mapError fun error =>
    .invalid_request ("channel `" ++ exported.channel.name ++ "` in the backup is invalid: " ++ error.to_string)

/-- A channel with its user. In the first version of backups channels had none. -/
def imported_channel (v1 : Bool) (user_id : Int) (channel : Channel) : Channel :=
  let channel := { channel with id := 0, owner_id := DEFAULT_OWNER_ID }
  if v1 then { channel with visibility := .shared, user_id := none }
  else if channel.visibility = .exclusive then { channel with user_id := some user_id }
  else { channel with user_id := none }

/-- An access that leaves everything as it is. -/
def access : Access Database ImportError Unit := .query fun _ => ()

section Import

variable (admin_id : Int)

def resolve_import_user_id (user_email : Option String) : Access Database ImportError Int :=
  match (user_email.map normalize_email).filter (· ≠ "") with
  | some email => .query fun database => (database.find_by_email email).getD admin_id
  | none => pure admin_id

/-- In the first version of backups everything belonged to the first administrator. -/
def resolve_user (v1 : Bool) (user_email : Option String) : Access Database ImportError Int :=
  if v1 then pure admin_id else resolve_import_user_id admin_id user_email

def prepare_imported_channel (v1 : Bool) (exported : ExportedChannel) : Access Database ImportError Channel := do
  .check (reject_masked_credentials exported.channel)
  let uid ← resolve_user admin_id v1 exported.user_email
  return imported_channel v1 uid exported.channel

def prepare_imported_key (v1 : Bool) (exported : ExportedKey) : Access Database ImportError ExportedApiKey := do
  let uid ← resolve_user admin_id v1 exported.user_email
  return { exported.key with user_id := some uid }

def prepare_channels (v1 : Bool) : List ExportedChannel → Access Database ImportError (List Channel)
  | [] => pure []
  | exported :: rest => do
    let channel ← prepare_imported_channel admin_id v1 exported
    let channels ← prepare_channels v1 rest
    return channel :: channels

def prepare_keys (v1 : Bool) : List ExportedKey → Access Database ImportError (List ExportedApiKey)
  | [] => pure []
  | exported :: rest => do
    let key ← prepare_imported_key admin_id v1 exported
    let keys ← prepare_keys v1 rest
    return key :: keys

variable (cipher : Cipher)

/-- A transaction on the channels. -/
def write_channels (nonces : Nat → Nonces) (change : ChannelChange) : Access Database ImportError Unit :=
  .transaction fun database => do
    let sealed ← (seal_change cipher database.channels.master_key nonces change).mapError .store
    match sealed.commit database.channels.repo with
    | some repo => return ((), { database with channels := { database.channels with repo } })
    | none => throw (.store (.not_found "channel" 0))

/-- The channels of a backup one after another, but for those whose names are there already.
    A new row is read back. -/
def create_channels (existing_names : List String) :
    (Nat → Nonces) → List Channel → Access Database ImportError (Nat × List String)
  | _, [] => pure (0, [])
  | nonces, channel :: channels =>
    if existing_names.contains channel.name then do
      let (imported, skipped) ← create_channels existing_names nonces channels
      return (imported, channel.name :: skipped)
    else do
      write_channels cipher nonces (.create channel)
      access
      let (imported, skipped) ← create_channels existing_names (fun idx => nonces (idx + 1)) channels
      return (imported + 1, skipped)

def restore_keys : List ExportedApiKey → Access Database ImportError (Nat × List String)
  | [] => pure (0, [])
  | key :: keys => do
    let inserted ← .transaction fun database => do
      let (inserted, keys) ← (database.keys.insert_restored key).mapError .store
      return (inserted, { database with keys })
    let (imported, skipped) ← restore_keys keys
    return if inserted then (imported + 1, skipped) else (imported, key.name :: skipped)

structure ImportReport where
  channels_imported : Nat
  keys_imported : Nat
  skipped_channels : List String
  skipped_keys : List String

/-- Instead of what is there: the channels in one transaction, the keys in another. -/
def replace_config (nonces : Nat → Nonces) (channels : List Channel) (keys : List ExportedApiKey) :
    Access Database ImportError ImportReport := do
  write_channels cipher nonces (.replace_all channels)
  let (keys_imported, skipped_keys) ← .transaction fun database => do
    let (report, keys) ← (database.keys.replace_all keys).mapError .store
    return (report, { database with keys })
  return { channels_imported := channels.length, keys_imported, skipped_channels := [], skipped_keys }

/-- Besides what is there: each channel and each key in a transaction of its own. -/
def merge_config (nonces : Nat → Nonces) (channels : List Channel) (keys : List ExportedApiKey) :
    Access Database ImportError ImportReport := do
  let existing_names ← .query fun database => database.channels.repo.list.map (·.name)
  let (channels_imported, skipped_channels) ← create_channels cipher existing_names nonces channels
  let (keys_imported, skipped_keys) ← restore_keys keys
  return { channels_imported, keys_imported, skipped_channels, skipped_keys }

def write_config (nonces : Nat → Nonces) (channels : List Channel) (keys : List ExportedApiKey) :
    ImportMode → Access Database ImportError ImportReport
  | .replace => replace_config cipher nonces channels keys
  | .merge => merge_config cipher nonces channels keys

def import_settings (settings : ExportedSettings) : Access Database ImportError Unit :=
  .transaction fun database => do
    let settings ← (SettingsRepo.import_settings settings).mapError .store
    return ((), { database with settings })

/-- The gateway reads again what was written. -/
def reload : Access Database ImportError Unit := do
  access -- the channels
  access -- the routing policy
  access -- the breaker policy
  access -- the prices
  access -- the policy for empty answers

/-- Everything is checked before the first write. -/
def import_document (nonces : Nat → Nonces) (request : ImportRequest) : Access Database ImportError ImportReport := do
  .check (check_version request.data.version)
  .check (request.data.channels.forM check_channel)
  let v1 := request.data.version = 1
  let channels ← prepare_channels admin_id v1 request.data.channels
  let keys ← prepare_keys admin_id v1 request.data.keys
  let report ← write_config cipher nonces channels keys request.mode
  import_settings request.data.settings
  reload
  return report

end Import

/-- The user that a row of a backup gets. -/
def imported_user (v1 : Bool) (admin_id : Int) (before : Database) (user_email : Option String) : Int :=
  if v1 then admin_id else before.owner admin_id user_email

/-- A document that passes the checks before the first write. -/
structure ExportDocument.Accepted (data : ExportDocument) : Prop where
  version : data.version = 1 ∨ data.version = 2
  valid : ∀ exported ∈ data.channels, exported.channel.validate = .ok ()
  unmasked : ∀ exported ∈ data.channels, masked_place exported.channel = none

section Stages

variable (cipher : Cipher)

/-- The row that was written for a channel. What the gateway found out about it is not
    there. -/
def Written (master_key : Option MasterKey) (channel row : Channel) : Prop :=
  ∃ nonces sealed, seal_channel cipher master_key nonces channel = .ok sealed ∧
    row = { sealed with id := row.id, auto_disabled := false, balance := none }

/-- Rows are written for some channels. -/
def ChannelsWritten (kept : List Channel) (channels : List Channel) (before after : Database) : Prop :=
  ∃ repo rows, after = { before with channels := { before.channels with repo } } ∧ repo.rows = kept ++ rows ∧
    List.Forall₂ (Written cipher before.channels.master_key) channels rows

def ChannelsReplaced (channels : List Channel) (before after : Database) : Prop :=
  ChannelsWritten cipher (before.channels.repo.rows.filter (·.owner_id ≠ DEFAULT_OWNER_ID)) channels before after

def ChannelAdded (channel : Channel) (before after : Database) : Prop :=
  ChannelsWritten cipher before.channels.repo.rows [channel] before after

def KeysReplaced (keys : List ExportedApiKey) (before after : Database) : Prop :=
  ∃ repo, after = { before with keys := repo } ∧
    KeyRepo.Adds { before.keys with rows := before.keys.rows.filter (!KeyRepo.owned ·) } keys repo

def KeyRestored (key : ExportedApiKey) (before after : Database) : Prop :=
  ∃ repo, after = { before with keys := repo } ∧ before.keys.Adds [key] repo

def SettingsApplied (settings : ExportedSettings) (before after : Database) : Prop :=
  ∃ repo, after = { before with settings := repo } ∧ repo.read = settings ∧ settings.Valid

variable (admin_id : Int) (request : ImportRequest) (before : Database)

/-- The channels of a document, with the users that their addresses belong to. -/
def imported_channels : List Channel :=
  request.data.channels.map fun exported =>
    imported_channel (request.data.version = 1)
      (imported_user (request.data.version = 1) admin_id before exported.user_email) exported.channel

def imported_keys : List ExportedApiKey :=
  request.data.keys.map fun exported =>
    { exported.key with user_id := some (imported_user (request.data.version = 1) admin_id before exported.user_email) }

/-- The channels whose names are not there yet. -/
def new_channels : List Channel :=
  (imported_channels admin_id request before).filter fun channel =>
    !(before.channels.repo.list.map (·.name)).contains channel.name

/-- What an import does, in its order. -/
def stages : List (Database → Database → Prop) :=
  (match request.mode with
    | .replace =>
      [ChannelsReplaced cipher (imported_channels admin_id request before), KeysReplaced (imported_keys admin_id request before)]
    | .merge =>
      (new_channels admin_id request before).map (ChannelAdded cipher) ++
        (imported_keys admin_id request before).map KeyRestored) ++
    [SettingsApplied request.data.settings]

/-- What an import leaves that comes to its end. -/
structure Imported (after : Database) : Prop where
  users : after.users = before.users
  channels : ∃ kept channels rows, after.channels.repo.rows = kept ++ rows ∧
    List.Forall₂ (Written cipher before.channels.master_key) channels rows ∧
    match request.mode with
    | .replace =>
      kept = before.channels.repo.rows.filter (·.owner_id ≠ DEFAULT_OWNER_ID) ∧
        channels = imported_channels admin_id request before
    | .merge => kept = before.channels.repo.rows ∧ channels = new_channels admin_id request before
  keys : ∃ kept : KeyRepo, kept.Adds (imported_keys admin_id request before) after.keys ∧
    match request.mode with
    | .replace => kept.rows = before.keys.rows.filter (!KeyRepo.owned ·)
    | .merge => kept = before.keys
  settings : after.settings.read = request.data.settings

/-- What an import keeps to, whatever the database does. -/
structure ImportKept (outcome : Except ImportError ImportReport × Database) : Prop where
  /-- A document that is not accepted changes nothing. -/
  refused : ¬request.data.Accepted → (∃ error, outcome.1 = .error error) ∧ outcome.2 = before
  /-- An error comes between two stages. -/
  failed : ∀ error, outcome.1 = .error error → Stops (stages cipher admin_id request before) before outcome.2
  done : ∀ report, outcome.1 = .ok report → Imported cipher admin_id request before outcome.2

end Stages

section Reading

variable {admin_id : Int} {before : Database} {v1 : Bool}

theorem resolve_import_user_id_reads (user_email : Option String) :
    Access.Reads (resolve_import_user_id admin_id user_email) before (· = before.owner admin_id user_email) := by
  unfold resolve_import_user_id Database.owner
  cases (user_email.map normalize_email).filter (· ≠ "") with
  | none => exact Access.reads_pure rfl
  | some email => exact Access.reads_query

theorem resolve_user_reads (user_email : Option String) :
    Access.Reads (resolve_user admin_id v1 user_email) before (· = imported_user v1 admin_id before user_email) := by
  unfold resolve_user imported_user
  split
  · exact Access.reads_pure rfl
  · exact resolve_import_user_id_reads user_email

theorem prepare_imported_channel_reads (exported : ExportedChannel) :
    Access.Reads (prepare_imported_channel admin_id v1 exported) before fun channel =>
      masked_place exported.channel = none ∧
        channel = imported_channel v1 (imported_user v1 admin_id before exported.user_email) exported.channel := by
  refine Access.reads_check.bind_reads fun _ hcheck => ?_
  have hunmasked : masked_place exported.channel = none := by
    unfold reject_masked_credentials at hcheck
    cases hplace : masked_place exported.channel with
    | none => rfl
    | some place => simp [hplace] at hcheck
  refine (resolve_user_reads exported.user_email).bind_reads fun uid huid => ?_
  exact Access.reads_pure ⟨hunmasked, congrArg (imported_channel v1 · exported.channel) huid⟩

theorem prepare_channels_reads (exported : List ExportedChannel) :
    Access.Reads (prepare_channels admin_id v1 exported) before fun channels =>
      (∀ e ∈ exported, masked_place e.channel = none) ∧
        channels = exported.map fun e => imported_channel v1 (imported_user v1 admin_id before e.user_email) e.channel := by
  induction exported with
  | nil => exact Access.reads_pure ⟨List.forall_mem_nil _, rfl⟩
  | cons first rest ih =>
    refine (prepare_imported_channel_reads first).bind_reads fun channel hchannel => ?_
    refine ih.bind_reads fun channels hchannels => ?_
    refine Access.reads_pure ⟨List.forall_mem_cons.mpr ⟨hchannel.1, hchannels.1⟩, ?_⟩
    rw [hchannel.2, hchannels.2, List.map_cons]

theorem prepare_imported_key_reads (exported : ExportedKey) :
    Access.Reads (prepare_imported_key admin_id v1 exported) before
      (· = { exported.key with user_id := some (imported_user v1 admin_id before exported.user_email) }) := by
  refine (resolve_user_reads exported.user_email).bind_reads fun uid huid => ?_
  exact Access.reads_pure (by rw [huid])

theorem prepare_keys_reads (exported : List ExportedKey) :
    Access.Reads (prepare_keys admin_id v1 exported) before
      (· = exported.map fun e => { e.key with user_id := some (imported_user v1 admin_id before e.user_email) }) := by
  induction exported with
  | nil => exact Access.reads_pure rfl
  | cons first rest ih =>
    refine (prepare_imported_key_reads first).bind_reads fun key hkey => ?_
    refine ih.bind_reads fun keys hkeys => ?_
    refine Access.reads_pure ?_
    rw [hkey, hkeys, List.map_cons]

end Reading

section Writing

variable {cipher : Cipher} {admin_id : Int} {before : Database} {nonces : Nat → Nonces}

theorem written_row {master_key : Option MasterKey} {channel row : Channel} {nonces : Nonces}
    (hrow : seal_channel cipher master_key nonces channel = .ok row) (id : Int) :
    Written cipher master_key channel { row with id, auto_disabled := false, balance := none } :=
  ⟨nonces, row, hrow, rfl⟩

/-- The rows that are inserted for some channels. -/
theorem insert_channels_written {master_key : Option MasterKey} {channels sealed : List Channel}
    (hseal : seal_channels cipher master_key nonces channels = .ok sealed) (repo : ChannelRepo) :
    ∃ rows, (sealed.foldl ChannelRepo.insert_channel repo).rows = repo.rows ++ rows ∧
      List.Forall₂ (Written cipher master_key) channels rows ∧ rows.Pairwise (·.id < ·.id) ∧ ∀ row ∈ rows, repo.next_id ≤ row.id := by
  induction channels generalizing nonces sealed repo with
  | nil =>
    obtain rfl := Except.ok.inj hseal
    exact ⟨[], (List.append_nil _).symm, .nil, .nil, List.forall_mem_nil _⟩
  | cons channel channels ih =>
    obtain ⟨row, hrow, hseal⟩ := bind_eq_ok.mp hseal
    obtain ⟨rest, hrest, hseal⟩ := bind_eq_ok.mp hseal
    obtain rfl := Except.ok.inj hseal
    obtain ⟨rows, hrows, hwritten, hascending, hlater⟩ := ih hrest (repo.insert_channel row)
    have hnext : repo.next_id < (repo.insert_channel row).next_id := Int.lt_succ repo.next_id
    refine ⟨_ :: rows, ?_, .cons (written_row hrow repo.next_id) hwritten, List.pairwise_cons.mpr ⟨fun other hother => ?_, hascending⟩,
      List.forall_mem_cons.mpr ⟨le_rfl, fun other hother => hnext.le.trans (hlater other hother)⟩⟩
    · rw [List.foldl_cons, hrows]
      exact List.append_assoc _ [_] rows
    · exact hnext.trans_le (hlater other hother)

theorem create_channel_makes (channel : Channel) :
    Access.Makes (write_channels cipher nonces (.create channel)) before [ChannelAdded cipher channel] := by
  refine Access.makes_transaction fun _ after hwork => ?_
  obtain ⟨sealed, hseal, hwork⟩ := bind_eq_ok.mp hwork
  obtain ⟨row, rfl, hrow⟩ := seal_change_create (mapError_eq_ok.mp hseal)
  obtain ⟨-, rfl⟩ := Prod.mk.inj (Except.ok.inj hwork)
  exact ⟨before.channels.repo.insert_channel row, [_], rfl, rfl, .cons (written_row hrow _) .nil⟩

theorem replace_channels_makes (channels : List Channel) :
    Access.Makes (write_channels cipher nonces (.replace_all channels)) before [ChannelsReplaced cipher channels] := by
  refine Access.makes_transaction fun _ after hwork => ?_
  obtain ⟨sealed, hseal, hwork⟩ := bind_eq_ok.mp hwork
  obtain ⟨⟨⟩, -, hseal⟩ := bind_eq_ok.mp (mapError_eq_ok.mp hseal)
  obtain ⟨rows, hrows, hseal⟩ := bind_eq_ok.mp hseal
  obtain rfl := Except.ok.inj hseal
  obtain ⟨-, rfl⟩ := Prod.mk.inj (Except.ok.inj hwork)
  obtain ⟨written, hwritten, hall, -, -⟩ :=
    insert_channels_written hrows (before.channels.repo.delete_rows (·.owner_id = DEFAULT_OWNER_ID))
  refine ⟨_, written, rfl, hwritten.trans ?_, hall⟩
  simp [ChannelRepo.delete_rows]

theorem access_makes : Access.Makes access before [] := Access.makes_query

theorem create_channels_makes (existing_names : List String) (channels : List Channel) :
    Access.Makes (create_channels cipher existing_names nonces channels) before
      ((channels.filter fun channel => !existing_names.contains channel.name).map (ChannelAdded cipher)) := by
  induction channels generalizing nonces before with
  | nil => exact Access.makes_pure
  | cons channel channels ih =>
    unfold create_channels
    split
    next hexists =>
      rw [List.filter_cons_of_neg (by simpa using hexists)]
      exact ih.bind_last fun _ _ => Access.makes_pure
    next hnew =>
      rw [List.filter_cons_of_pos (by simpa using hnew)]
      refine (create_channel_makes channel).bind fun _ mid => ?_
      refine access_makes.bind fun _ mid => ?_
      exact ih.bind_last fun _ _ => Access.makes_pure

theorem restore_keys_makes (keys : List ExportedApiKey) : Access.Makes (restore_keys keys) before (keys.map KeyRestored) := by
  induction keys generalizing before with
  | nil => exact Access.makes_pure
  | cons key keys ih =>
    have hfirst : ∀ {work : Database → Except ImportError (Bool × Database)},
        (∀ inserted after, work before = .ok (inserted, after) → KeyRestored key before after) →
        Access.Makes (.transaction work) before [KeyRestored key] := Access.makes_transaction
    refine (hfirst fun inserted after hwork => ?_).bind fun inserted mid => ?_
    · obtain ⟨⟨inserted, repo⟩, hinsert, hwork⟩ := bind_eq_ok.mp hwork
      obtain ⟨-, rfl⟩ := Prod.mk.inj (Except.ok.inj hwork)
      exact ⟨repo, rfl, KeyRepo.insert_restored_adds (mapError_eq_ok.mp hinsert)⟩
    · exact ih.bind_last fun _ _ => Access.makes_pure

theorem replace_config_makes (channels : List Channel) (keys : List ExportedApiKey) :
    Access.Makes (replace_config cipher nonces channels keys) before [ChannelsReplaced cipher channels, KeysReplaced keys] := by
  refine (replace_channels_makes channels).bind fun _ mid => ?_
  refine (Access.makes_transaction fun report after hwork => ?_).bind_last fun _ _ => Access.makes_pure
  obtain ⟨⟨report, repo⟩, hreplace, hwork⟩ := bind_eq_ok.mp hwork
  obtain ⟨-, rfl⟩ := Prod.mk.inj (Except.ok.inj hwork)
  exact ⟨repo, rfl, KeyRepo.insert_all_adds (mapError_eq_ok.mp hreplace)⟩

theorem merge_config_makes (channels : List Channel) (keys : List ExportedApiKey) :
    Access.Makes (merge_config cipher nonces channels keys) before
      ((channels.filter fun channel => !(before.channels.repo.list.map (·.name)).contains channel.name).map (ChannelAdded cipher) ++
        keys.map KeyRestored) := by
  refine Access.Reads.bind Access.reads_query (fun names hnames => ?_) fun _ => stops_self
  subst hnames
  refine (create_channels_makes _ channels).bind fun _ _ => ?_
  exact (restore_keys_makes keys).bind_last fun _ _ => Access.makes_pure

theorem write_config_makes (request : ImportRequest) :
    Access.Makes
      (write_config cipher nonces (imported_channels admin_id request before) (imported_keys admin_id request before) request.mode)
      before
      (match request.mode with
        | .replace =>
          [ChannelsReplaced cipher (imported_channels admin_id request before), KeysReplaced (imported_keys admin_id request before)]
        | .merge =>
          (new_channels admin_id request before).map (ChannelAdded cipher) ++
            (imported_keys admin_id request before).map KeyRestored) := by
  cases request.mode with
  | replace => exact replace_config_makes _ _
  | merge => exact merge_config_makes _ _

theorem import_settings_makes (settings : ExportedSettings) :
    Access.Makes (import_settings settings) before [SettingsApplied settings] := by
  refine Access.makes_transaction fun _ after hwork => ?_
  obtain ⟨repo, himport, hwork⟩ := bind_eq_ok.mp hwork
  obtain ⟨-, rfl⟩ := Prod.mk.inj (Except.ok.inj hwork)
  exact ⟨repo, rfl, SettingsRepo.import_settings_ok (mapError_eq_ok.mp himport)⟩

theorem reload_makes : Access.Makes reload before [] := by
  refine access_makes.bind fun _ _ => ?_
  refine access_makes.bind fun _ _ => ?_
  refine access_makes.bind fun _ _ => ?_
  exact access_makes.bind fun _ _ => access_makes

theorem reaches_channels {channels : List Channel} {after : Database}
    (hreaches : Reaches (channels.map (ChannelAdded cipher)) before after) :
    ChannelsWritten cipher before.channels.repo.rows channels before after := by
  induction channels generalizing before with
  | nil =>
    obtain rfl := hreaches
    exact ⟨after.channels.repo, [], rfl, (List.append_nil _).symm, .nil⟩
  | cons channel channels ih =>
    obtain ⟨_, ⟨repo, first, rfl, hrepo, hfirst⟩, hrest⟩ := hreaches
    obtain ⟨last, rows, rfl, hlast, hwritten⟩ := ih hrest
    refine ⟨last, first ++ rows, rfl, ?_, List.rel_append hfirst hwritten⟩
    rw [hlast, hrepo, List.append_assoc]

theorem reaches_keys {keys : List ExportedApiKey} {after : Database} (hreaches : Reaches (keys.map KeyRestored) before after) :
    ∃ repo, after = { before with keys := repo } ∧ before.keys.Adds keys repo := by
  induction keys generalizing before with
  | nil =>
    obtain rfl := hreaches
    exact ⟨after.keys, rfl, .nil⟩
  | cons key keys ih =>
    obtain ⟨_, ⟨repo, rfl, hfirst⟩, hrest⟩ := hreaches
    obtain ⟨last, rfl, hadds⟩ := ih hrest
    exact ⟨last, rfl, hfirst.append hadds⟩

/-- All stages together are the whole import. -/
theorem reaches_imported {request : ImportRequest} {after : Database}
    (hreaches : Reaches (stages cipher admin_id request before) before after) : Imported cipher admin_id request before after := by
  obtain ⟨written, hwritten, _, ⟨settings, rfl, hsettings, -⟩, rfl⟩ := reaches_append.mp hreaches
  cases hmode : request.mode with
  | replace =>
    rw [hmode] at hwritten
    obtain ⟨_, ⟨repo, rows, rfl, hrows, hall⟩, _, ⟨keys, rfl, hkeys⟩, rfl⟩ := hwritten
    exact ⟨rfl, ⟨_, _, rows, hrows, hall, by simp [hmode]⟩, ⟨_, hkeys, by simp [hmode]⟩, hsettings⟩
  | merge =>
    rw [hmode] at hwritten
    obtain ⟨mid, hchannels, hkeys⟩ := reaches_append.mp hwritten
    obtain ⟨repo, rows, rfl, hrows, hall⟩ := reaches_channels hchannels
    obtain ⟨keys, rfl, hadds⟩ := reaches_keys hkeys
    exact ⟨rfl, ⟨_, _, rows, hrows, hall, by simp [hmode]⟩, ⟨_, hadds, by simp [hmode]⟩, hsettings⟩

end Writing

section Import

variable (cipher : Cipher) (admin_id : Int) (nonces : Nat → Nonces) (request : ImportRequest) (before : Database)

theorem forM_check {exported : List ExportedChannel} :
    exported.forM check_channel = .ok () ↔ ∀ e ∈ exported, e.channel.validate = .ok () := by
  induction exported with
  | nil => exact iff_of_true rfl (List.forall_mem_nil _)
  | cons first rest ih =>
    have hfirst : check_channel first = .ok () ↔ first.channel.validate = .ok () := mapError_eq_ok
    rw [List.forall_mem_cons, ← ih, ← hfirst, ← exists_ok_unit, ← bind_eq_ok]
    rfl

/-- After the checks an import goes through its stages. -/
theorem import_document_ends :
    (import_document admin_id cipher nonces request).Ends before
      (fun _ after => request.data.Accepted ∧ Reaches (stages cipher admin_id request before) before after)
      (fun _ after => Stops (stages cipher admin_id request before) before after ∧ (¬request.data.Accepted → after = before)) := by
  have hstart : ∀ _ : ImportError, Stops (stages cipher admin_id request before) before before ∧ (¬request.data.Accepted → before = before) :=
    fun _ => ⟨stops_self, fun _ => rfl⟩
  refine Access.reads_check.bind (fun _ hversion => ?_) hstart
  refine Access.reads_check.bind (fun _ hvalid => ?_) hstart
  refine (prepare_channels_reads request.data.channels).bind (fun channels hchannels => ?_) hstart
  refine (prepare_keys_reads request.data.keys).bind (fun keys hkeys => ?_) hstart
  have haccepted : request.data.Accepted := by
    refine ⟨?_, forM_check.mp hvalid, hchannels.1⟩
    unfold check_version at hversion
    split at hversion
    next hknown => simpa using hknown
    · cases hversion
  have hmakes : Access.Makes
      (do
        let report ← write_config cipher nonces channels keys request.mode
        import_settings request.data.settings
        reload
        return report)
      before (stages cipher admin_id request before) := by
    rw [hchannels.2, hkeys]
    refine (write_config_makes request).bind fun report mid => ?_
    refine (import_settings_makes request.data.settings).bind fun _ mid => ?_
    exact reload_makes.bind fun _ _ => Access.makes_pure
  exact hmakes.imp (fun _ _ hreaches => ⟨haccepted, hreaches⟩) fun _ _ hstops => ⟨hstops, fun hnot => absurd haccepted hnot⟩

/-- An import is refused as a whole, or goes through its stages, each of which is made whole or
    not at all. -/
theorem import_kept (faults : List (Option ImportError)) :
    ImportKept cipher admin_id request before ((import_document admin_id cipher nonces request).run before faults) := by
  have hends := import_document_ends cipher admin_id nonces request before faults
  rcases hresult : (import_document admin_id cipher nonces request).run before faults with ⟨error | report, after⟩
  · rw [hresult] at hends
    exact ⟨fun hnot => ⟨⟨error, rfl⟩, hends.2 hnot⟩, fun _ _ => hends.1, nofun⟩
  · rw [hresult] at hends
    exact ⟨fun hnot => absurd hends.1 hnot, nofun, fun _ _ => reaches_imported hends.2⟩

end Import

/-- A backup of a channel, and of a key without a name. -/
def nameless_key : ImportRequest where
  mode := .replace
  data :=
    { version := 2
      channels := [{ channel := holder "sk-a" }]
      keys := [{ key := { name := " ", key_hash := "h", key_prefix := "rk-", enabled := true } }]
      settings := { routing_policy := {}, log_retention_days := 30 } }

/-- The import fails after the channels were replaced. -/
theorem nameless_key_not_undone :
    ¬∀ error, ((import_document 1 single_cipher first_nonces nameless_key).run {} []).1 = .error error →
      ((import_document 1 single_cipher first_nonces nameless_key).run {} []).2 = {} := by
  intro hall
  have hfails : ((import_document 1 single_cipher first_nonces nameless_key).run {} []).1.isOk = false := by decide +kernel
  have hwritten : ((import_document 1 single_cipher first_nonces nameless_key).run {} []).2.channels.repo.rows.length = 1 := by
    decide +kernel
  cases hresult : ((import_document 1 single_cipher first_nonces nameless_key).run {} []).1 with
  | error error =>
    rw [hall error hresult] at hwritten
    cases hwritten
  | ok report =>
    rw [hresult] at hfails
    cases hfails

end refract.gateway.backup
