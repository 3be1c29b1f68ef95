import Refract.Store.Channels

open refract.core refract.store

namespace refract.gateway

/-- What is left to do for an administrator: queries and transactions, each
    followed by what depends on it. -/
inductive Work where
  /-- The operation fails. -/
  | refuse
  /-- Everything is written, and is to be seen. -/
  | commit_channels
  | query (next : ChannelRepo → Work)
  /-- Goes on with the table that the transaction leaves. -/
  | write (change : ChannelChange) (next : ChannelRepo → Work)

namespace Work

/-- A query that has nothing to do with channels. -/
def access (next : Work) : Work := .query fun _ => next

def get (id : Int) (next : Channel → Work) : Work := .query fun repo => (repo.get id).elim .refuse next

/-- Reads the new row back. -/
def create (channel : Channel) (next : Work) : Work :=
  .write (.create channel) fun after => .get (after.next_id - 1) fun _ => next

/-- The operation cannot take its next step. -/
def fails (repo : ChannelRepo) : Work → Bool
  | .refuse => true
  | .write change _ => (change.commit repo).isNone
  | .query _ | .commit_channels => false

end Work

/-- A key that was masked by the gateway itself. -/
def looks_masked (value : String) : Bool := value.toList.contains '…' || value.toList.contains '•'

/-- No masked key is stored. -/
def reject_masked_credentials (channel : Channel) (next : Work) : Work :=
  if looks_masked channel.credential.value || channel.credentials.any (looks_masked ·.value) ||
      channel.endpoints.any (·.credential.any (looks_masked ·.value)) then .refuse
  else next

/-- Puts the keys back that a client returns as they were shown to it. -/
def restore_unchanged_credentials (existing incoming : Channel) : Channel :=
  let restore_from := (if existing.credential.is_empty then [] else [existing.credential]) ++ existing.credentials
  { incoming with
    credential := if incoming.credential.value = existing.credential.masked then existing.credential else incoming.credential
    credentials := incoming.credentials.map fun credential =>
      if looks_masked credential.value then (restore_from.find? (·.masked = credential.value)).getD credential
      else credential
    endpoints := incoming.endpoints.map fun endpoint =>
      { endpoint with
        credential := endpoint.credential.map fun credential =>
          match (existing.endpoints.find? (·.protocol = endpoint.protocol)).bind (·.credential) with
          | some old => if credential.value = old.masked then old else credential
          | none => credential } }

def require_owned_channel (id : Int) (user_id : Option Int) (next : Channel → Work) : Work :=
  .get id fun channel => if user_id.all (channel.user_id = some ·) then next channel else .refuse

/-- What a user creates or changes stays with the user. -/
def kept_private (channel : Channel) : Option Int → Channel
  | some uid => { channel with visibility := .exclusive, user_id := some uid }
  | none => channel

def create_channel_impl (channel : Channel) (user_id : Option Int) : Work :=
  let channel := kept_private { channel with owner_id := DEFAULT_OWNER_ID, id := 0 } user_id
  reject_masked_credentials channel (.create channel .commit_channels)

def duplicate_channel (id : Int) : Work :=
  .get id fun channel =>
    .create { channel with id := 0, name := channel.name ++ " 副本", enabled := false } .commit_channels

def update_channel_impl (id : Int) (channel : Channel) (user_id : Option Int) : Work :=
  require_owned_channel id user_id fun existing =>
    let channel := kept_private { channel with id, owner_id := DEFAULT_OWNER_ID } user_id
    let channel := restore_unchanged_credentials existing channel
    reject_masked_credentials channel (.write (.update channel) fun _ => .get id fun _ => .commit_channels)

def delete_channel_impl (id : Int) (user_id : Option Int) : Work :=
  require_owned_channel id user_id fun _ => .write (.delete id) fun _ => .commit_channels

def toggle_channel_impl (id : Int) (enabled : Bool) (user_id : Option Int) : Work :=
  require_owned_channel id user_id fun _ => .write (.set_enabled id enabled) fun _ => .commit_channels

/-- The amount is what the upstream answered. -/
def get_channel_balance (id : Int) (amount : Rat) : Work :=
  .get id fun channel =>
    if channel.endpoints.any fun ep => ep.enabled && (ep.protocol = .chat || ep.protocol = .responses) then
      .write (.set_balance id amount) fun _ => .commit_channels
    else .refuse

inductive BulkAction where
  | enable
  | disable
  | delete
  deriving DecidableEq, Repr

def BulkAction.change (ids : List Int) : BulkAction → ChannelChange
  | .enable => .set_enabled_many ids true
  | .disable => .set_enabled_many ids false
  | .delete => .delete_many ids

def bulk_channels (action : BulkAction) (ids : List Int) : Work := .write (action.change ids) fun _ => .commit_channels

inductive ImportMode where
  | merge
  | replace
  deriving DecidableEq, Repr

/-- A channel of a backup, with the user that its address belongs to. -/
structure ExportedChannel where
  channel : Channel
  user : Option Int

def prepare_imported_channel (v1 : Bool) (admin_id : Int) (exported : ExportedChannel) : Channel :=
  let channel := { exported.channel with id := 0, owner_id := DEFAULT_OWNER_ID }
  if v1 then { channel with visibility := .shared, user_id := none }
  else if channel.visibility = .exclusive then { channel with user_id := some (exported.user.getD admin_id) }
  else { channel with user_id := none }

/-- Creates the channels whose names are new. -/
def merge_channels (existing_names : List String) (rest : Work) : List Channel → Work
  | [] => rest
  | channel :: channels =>
    if existing_names.contains channel.name then merge_channels existing_names rest channels
    else .create channel (merge_channels existing_names rest channels)

/-- The keys of a backup are written after its channels, and its settings last. -/
def import_document (mode : ImportMode) (v1 : Bool) (admin_id : Int) (exported : List ExportedChannel) (keys : Nat) : Work :=
  let channels := exported.map (prepare_imported_channel v1 admin_id)
  channels.foldr reject_masked_credentials <|
    match mode with
    | .replace => .write (.replace_all channels) fun _ => .access (.access .commit_channels)
    | .merge => .query fun repo =>
      merge_channels (repo.list.map (·.name)) (Nat.repeat .access keys (.access .commit_channels)) channels

def auto_disable (channel_id : Int) : Work := .write (.set_auto_disabled channel_id) fun _ => .commit_channels

/-- A channel that was taken out of service passed its test. -/
def auto_retest (channel_id : Int) : Work := .write (.restore_auto_disabled channel_id) fun _ => .commit_channels

/-- What changes channels, and what has them read again. -/
inductive AdminRequest where
  | create_channel (channel : Channel) (user_id : Option Int)
  | duplicate_channel (id : Int)
  | update_channel (id : Int) (channel : Channel) (user_id : Option Int)
  | delete_channel (id : Int) (user_id : Option Int)
  | toggle_channel (id : Int) (enabled : Bool) (user_id : Option Int)
  | get_channel_balance (id : Int) (amount : Rat)
  | bulk_channels (action : BulkAction) (ids : List Int)
  | import_document (mode : ImportMode) (v1 : Bool) (admin_id : Int) (exported : List ExportedChannel) (keys : Nat)
  | auto_disable (channel_id : Int)
  | auto_retest (channel_id : Int)
  | reload_master_key

def AdminRequest.work : AdminRequest → Work
  | .create_channel channel user_id => create_channel_impl channel user_id
  | .duplicate_channel id => gateway.duplicate_channel id
  | .update_channel id channel user_id => update_channel_impl id channel user_id
  | .delete_channel id user_id => delete_channel_impl id user_id
  | .toggle_channel id enabled user_id => toggle_channel_impl id enabled user_id
  | .get_channel_balance id amount => gateway.get_channel_balance id amount
  | .bulk_channels action ids => gateway.bulk_channels action ids
  | .import_document mode v1 admin_id exported keys => gateway.import_document mode v1 admin_id exported keys
  | .auto_disable channel_id => gateway.auto_disable channel_id
  | .auto_retest channel_id => gateway.auto_retest channel_id
  | .reload_master_key => .access .commit_channels

end refract.gateway
