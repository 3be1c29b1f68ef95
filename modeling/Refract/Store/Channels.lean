import Mathlib.Data.Prod.Lex
import Mathlib.Order.OrderDual
import Refract.Core.Channel
import Refract.Machine.Vec

open refract.core refract.machine

namespace refract.store

def DEFAULT_OWNER_ID : Int := 1

/-- The table of channels, with their endpoints, in the order of their numbers. -/
structure ChannelRepo where
  rows : List Channel := []
  /-- Numbers are never given twice. -/
  next_id : Int := 1

namespace ChannelRepo

variable (self : ChannelRepo)

/-- The channels that an operation of the owner means. -/
def owned (id : Int) (channel : Channel) : Bool := channel.id = id && channel.owner_id = DEFAULT_OWNER_ID

def list_all : List Channel := sort_by_key (fun channel => toLex (OrderDual.toDual channel.priority, channel.id)) self.rows

def list : List Channel := self.list_all.filter (·.owner_id = DEFAULT_OWNER_ID)

def get (id : Int) : Option Channel := self.rows.find? (owned id)

/-- A new row. What the gateway found out about a channel is not copied. -/
def insert_channel (channel : Channel) : ChannelRepo where
  rows := self.rows ++ [{ channel with id := self.next_id, auto_disabled := false, balance := none }]
  next_id := self.next_id + 1

/-- Changes the rows that are meant. -/
def set_rows (meant : Channel → Bool) (change : Channel → Channel) : ChannelRepo :=
  { self with rows := self.rows.map fun row => if meant row then change row else row }

/-- Removes the rows that are meant. -/
def delete_rows (meant : Channel → Bool) : ChannelRepo := { self with rows := self.rows.filter (!meant ·) }

/-- Goes on only if a row is meant. -/
def ensure_affected (meant : Channel → Bool) (after : ChannelRepo) : Option ChannelRepo :=
  if self.rows.any meant then some after else none

def create (channel : Channel) : Option ChannelRepo := some (self.insert_channel channel)

def replace_all (channels : List Channel) : Option ChannelRepo :=
  some (channels.foldl insert_channel (self.delete_rows (·.owner_id = DEFAULT_OWNER_ID)))

def set_enabled_many (ids : List Int) (enabled : Bool) : Option ChannelRepo :=
  some (self.set_rows (fun row => ids.contains row.id && row.owner_id = DEFAULT_OWNER_ID)
    ({ · with enabled, auto_disabled := false }))

def delete_many (ids : List Int) : Option ChannelRepo :=
  some (self.delete_rows fun row => ids.contains row.id && row.owner_id = DEFAULT_OWNER_ID)

def update (channel : Channel) : Option ChannelRepo :=
  self.ensure_affected (owned channel.id) (self.set_rows (owned channel.id) fun row =>
    { channel with owner_id := row.owner_id, auto_disabled := row.auto_disabled, balance := row.balance })

def delete (id : Int) : Option ChannelRepo := self.ensure_affected (owned id) (self.delete_rows (owned id))

def set_enabled (id : Int) (enabled : Bool) : Option ChannelRepo :=
  self.ensure_affected (owned id) (self.set_rows (owned id) ({ · with enabled, auto_disabled := false }))

def set_balance (id : Int) (balance : Rat) : Option ChannelRepo :=
  self.ensure_affected (owned id) (self.set_rows (owned id) ({ · with balance := some balance }))

def set_auto_disabled (id : Int) : Option ChannelRepo :=
  self.ensure_affected (owned id) (self.set_rows (owned id) ({ · with enabled := false, auto_disabled := true }))

/-- Puts a channel back into service, if the gateway took it out. -/
def restore_auto_disabled (id : Int) : Option ChannelRepo :=
  let meant := fun row => owned id row && row.auto_disabled
  self.ensure_affected meant (self.set_rows meant ({ · with enabled := true, auto_disabled := false }))

/-- The numbers of the channels that are gone. -/
def removed (after : ChannelRepo) : List Int := (self.rows.map (·.id)).filter fun id => !after.rows.any (·.id = id)

@[simp] theorem removed_self : self.removed self = [] := by
  refine List.filter_eq_nil_iff.mpr fun id hid => ?_
  obtain ⟨row, hrow, rfl⟩ := List.mem_map.mp hid
  simpa using ⟨row, hrow, rfl⟩

end ChannelRepo

/-- A transaction on the channels. -/
inductive ChannelChange where
  | create (channel : Channel)
  | replace_all (channels : List Channel)
  | set_enabled_many (ids : List Int) (enabled : Bool)
  | delete_many (ids : List Int)
  | update (channel : Channel)
  | delete (id : Int)
  | set_enabled (id : Int) (enabled : Bool)
  | set_balance (id : Int) (balance : Rat)
  | set_auto_disabled (id : Int)
  | restore_auto_disabled (id : Int)

/-- The table after a transaction, unless there is no row for it. -/
def ChannelChange.commit (repo : ChannelRepo) : ChannelChange → Option ChannelRepo
  | .create channel => repo.create channel
  | .replace_all channels => repo.replace_all channels
  | .set_enabled_many ids enabled => repo.set_enabled_many ids enabled
  | .delete_many ids => repo.delete_many ids
  | .update channel => repo.update channel
  | .delete id => repo.delete id
  | .set_enabled id enabled => repo.set_enabled id enabled
  | .set_balance id balance => repo.set_balance id balance
  | .set_auto_disabled id => repo.set_auto_disabled id
  | .restore_auto_disabled id => repo.restore_auto_disabled id

end refract.store
