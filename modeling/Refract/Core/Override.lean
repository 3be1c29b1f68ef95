import Refract.Core.Channel
import Refract.Json.WellFormed
import Refract.Machine.Transaction

open refract.json

namespace refract.core

namespace Protocol

def ALL : List Protocol := [.chat, .responses, .messages, .gemini]

/-- Reads a protocol, also under an alias. -/
def from_str : String → Option Protocol
  | "chat" => some .chat
  | "responses" | "res" => some .responses
  | "messages" | "message" => some .messages
  | "gemini" => some .gemini
  | _ => none

/-- Reads the name a protocol is stored under. -/
def deserialize : String → Option Protocol
  | "chat" => some .chat
  | "responses" => some .responses
  | "messages" => some .messages
  | "gemini" => some .gemini
  | _ => none

end Protocol

/-- What stored overrides may be rejected for. -/
inductive OverrideError where
  | not_an_object
  | common
  | protocols
  | protocol (key : String)
  deriving DecidableEq, Repr

namespace ParamOverride

def set_group (self : ParamOverride) (protocol : Protocol) (group : Map) : ParamOverride :=
  { self with protocols := fun other => if other = protocol then some group else self.protocols other }

/-- Reads the flat shape of former versions: an object under the name of a protocol
    is its group. -/
def from_legacy (map : Map) : ParamOverride :=
  map.foldl (fun self (key, value) =>
    match value.as_object, Protocol.from_str key with
    | some group, some protocol => self.set_group protocol group
    | _, _ => { self with common := self.common.insert key value }) {}

/-- Reads one group of the explicit shape. -/
def read_group (self : ParamOverride) (entry : String × Value) : Except OverrideError ParamOverride :=
  match Protocol.deserialize entry.1, entry.2.as_object with
  | some protocol, some group => .ok (self.set_group protocol group)
  | _, _ => .error (.protocol entry.1)

def read_groups (groups : Map) : Except OverrideError ParamOverride := groups.foldlM read_group {}

/-- Reads a field of the explicit shape, which may be missing. -/
def read_field (map : Map) (key : String) (error : OverrideError) : Except OverrideError Map :=
  match map.get key with
  | none => .ok []
  | some (.object fields) => .ok fields
  | some _ => .error error

/-- Reads the explicit shape. -/
def from_shape (map : Map) : Except OverrideError ParamOverride :=
  (read_field map "common" .common).bind fun common =>
    (read_field map "protocols" .protocols).bind fun groups =>
      (read_groups groups).map fun self => { self with common := common }

/-- Reads stored overrides, of which nothing but the two explicit keys tells the
    shape. -/
def deserialize (value : Value) : Except OverrideError ParamOverride :=
  match value with
  | .object map =>
    if map.all fun entry => entry.1 = "common" ∨ entry.1 = "protocols" then from_shape map
    else .ok (from_legacy map)
  | _ => .error .not_an_object

/-- The groups in the order of the protocols. -/
def groups (self : ParamOverride) : Map :=
  Protocol.ALL.filterMap fun protocol => (self.protocols protocol).map fun group => (protocol.as_str, .object group)

/-- Overrides are stored in the explicit shape, without what is empty. -/
def serialize (self : ParamOverride) : Value :=
  .object ((if self.common.isEmpty then [] else [("common", .object self.common)]) ++
    if self.groups.isEmpty then [] else [("protocols", .object self.groups)])

end ParamOverride

section RoundTrip

/-- Overrides as they are held: no field is in them twice. -/
structure ParamOverride.WellFormed (overrides : ParamOverride) : Prop where
  common : (Value.object overrides.common).WellFormed
  groups : ∀ protocol group, overrides.protocols protocol = some group → (Value.object group).WellFormed

namespace ParamOverride

theorem deserialize_as_str (protocol : Protocol) : Protocol.deserialize protocol.as_str = some protocol := by
  cases protocol <;> rfl

theorem read_group_as_str (self : ParamOverride) (protocol : Protocol) (group : Map) :
    read_group self (protocol.as_str, .object group) = .ok (self.set_group protocol group) := by
  rw [read_group, deserialize_as_str]
  rfl

/-- The groups of some protocols are read back over what was read before. -/
theorem read_groups_from (self : ParamOverride) (protocols : List Protocol) (before : ParamOverride) :
    (protocols.filterMap fun protocol => (self.protocols protocol).map fun group => (protocol.as_str, Value.object group)).foldlM
        read_group before =
      .ok { before with protocols := fun protocol =>
        if protocol ∈ protocols then (self.protocols protocol).or (before.protocols protocol) else before.protocols protocol } := by
  induction protocols generalizing before with
  | nil => simp; rfl
  | cons protocol protocols ih =>
    have hsame : ∀ left right : Protocol → Option Map, (∀ other, left other = right other) →
        (Except.ok { before with protocols := left } : Except OverrideError ParamOverride) =
          .ok { before with protocols := right } := fun left right h => by rw [funext h]
    cases hgroup : self.protocols protocol with
    | none =>
      rw [List.filterMap_cons_none (by rw [hgroup]; rfl), ih before]
      refine hsame _ _ fun other => ?_
      by_cases hother : other = protocol
      · subst hother
        simp [hgroup]
      · simp [hother]
    | some group =>
      rw [List.filterMap_cons_some (by rw [hgroup]; rfl), List.foldlM_cons, read_group_as_str]
      refine (ih (before.set_group protocol group)).trans (hsame _ _ fun other => ?_)
      by_cases hother : other = protocol
      · subst hother
        simp [set_group, hgroup]
      · simp [set_group, hother]

theorem read_groups_groups (self : ParamOverride) : read_groups self.groups = .ok { self with common := [] } := by
  refine (read_groups_from self Protocol.ALL {}).trans ?_
  have hall : ∀ protocol, protocol ∈ Protocol.ALL := by
    intro protocol
    cases protocol <;> decide
  have hprotocols : (fun protocol => if protocol ∈ Protocol.ALL then (self.protocols protocol).or none else none) = self.protocols :=
    funext fun protocol => by rw [if_pos (hall protocol), Option.or_none]
  exact congrArg (fun protocols => (Except.ok { common := [], protocols := protocols } : Except OverrideError ParamOverride)) hprotocols

/-- What is stored is read back. -/
theorem deserialize_serialize (self : ParamOverride) : deserialize self.serialize = .ok self := by
  have hgroups := read_groups_groups self
  have hkeys : ∀ entry ∈ (if self.common.isEmpty then [] else [("common", Value.object self.common)]) ++
      (if self.groups.isEmpty then [] else [("protocols", Value.object self.groups)]),
      entry.1 = "common" ∨ entry.1 = "protocols" := by
    intro entry hentry
    rcases List.mem_append.mp hentry with hentry | hentry
    · split at hentry
      · cases hentry
      · exact .inl (congrArg Prod.fst (List.mem_singleton.mp hentry))
    · split at hentry
      · cases hentry
      · exact .inr (congrArg Prod.fst (List.mem_singleton.mp hentry))
  rw [serialize, deserialize, if_pos (List.all_eq_true.mpr fun entry hentry => decide_eq_true (hkeys entry hentry))]
  have hshape : ∀ map : Map, read_field map "common" .common = .ok self.common → read_field map "protocols" .protocols = .ok self.groups →
      from_shape map = .ok self := by
    intro map hcommon hprotocols
    rw [from_shape, hcommon, hprotocols]
    change (read_groups self.groups).map _ = _
    rw [hgroups]
    rfl
  refine hshape _ ?_ ?_
  · cases hcommon : self.common with
    | nil => cases hgroup : self.groups <;> rfl
    | cons => rfl
  · cases hcommon : self.common with
    | nil => cases hgroup : self.groups <;> rfl
    | cons => cases hgroup : self.groups <;> rfl

theorem groups_wellFormed {self : ParamOverride} (h : self.WellFormed) : (Value.object self.groups).WellFormed := by
  have hkeys : self.groups.map Prod.fst = Protocol.ALL.filterMap fun protocol => (self.protocols protocol).map fun _ => protocol.as_str := by
    rw [groups, List.map_filterMap]
    refine List.filterMap_congr fun protocol _ => ?_
    cases self.protocols protocol <;> rfl
  rw [Value.wellFormed_object, hkeys]
  constructor
  · refine List.Nodup.filterMap ?_ (by decide)
    intro protocol other key hkey hother
    obtain ⟨-, -, rfl⟩ := Option.map_eq_some_iff.mp hkey
    obtain ⟨-, -, hsame⟩ := Option.map_eq_some_iff.mp hother
    have hread := deserialize_as_str protocol
    rw [← hsame, deserialize_as_str] at hread
    exact (Option.some.inj hread).symm
  · intro entry hentry
    obtain ⟨protocol, -, hentry⟩ := List.mem_filterMap.mp hentry
    obtain ⟨group, hgroup, rfl⟩ := Option.map_eq_some_iff.mp hentry
    exact h.groups protocol group hgroup

theorem serialize_wellFormed {self : ParamOverride} (h : self.WellFormed) : self.serialize.WellFormed := by
  have hgroups := groups_wellFormed h
  have hcommon := h.common
  rw [serialize, Value.wellFormed_object]
  constructor
  · split <;> split <;> simp
  · intro entry hentry
    rcases List.mem_append.mp hentry with hentry | hentry
    · split at hentry
      · cases hentry
      · obtain rfl := List.mem_singleton.mp hentry
        exact hcommon
    · split at hentry
      · cases hentry
      · obtain rfl := List.mem_singleton.mp hentry
        exact hgroups

/-- What is stored as text is read back. -/
theorem deserialize_to_string {serde : Serde} (hserde : serde.Lawful) {self : ParamOverride} (h : self.WellFormed) :
    (serde.from_str (serde.to_string self.serialize)).map deserialize = some (.ok self) := by
  rw [hserde.from_str_to_string _ (serialize_wellFormed h), Option.map_some, deserialize_serialize]

/-- A new group keeps the overrides well-formed. -/
theorem set_group_wellFormed {self : ParamOverride} (h : self.WellFormed) (protocol : Protocol) {group : Map}
    (hgroup : (Value.object group).WellFormed) : (self.set_group protocol group).WellFormed where
  common := h.common
  groups other fields hfields := by
    unfold set_group at hfields
    dsimp only at hfields
    split at hfields
    · obtain rfl := Option.some.inj hfields
      exact hgroup
    · exact h.groups other fields hfields

theorem empty_wellFormed : ({} : ParamOverride).WellFormed where
  common := by simp
  groups _ _ h := by cases h

theorem from_legacy_wellFormed {map : Map} (hmap : ∀ entry ∈ map, entry.2.WellFormed) : (from_legacy map).WellFormed := by
  have hfold : ∀ before : ParamOverride, before.WellFormed → (map.foldl (fun self (key, value) =>
      match value.as_object, Protocol.from_str key with
      | some group, some protocol => self.set_group protocol group
      | _, _ => { self with common := self.common.insert key value }) before).WellFormed := by
    induction map with
    | nil => exact fun _ h => h
    | cons entry map ih =>
      intro before hbefore
      rw [List.forall_mem_cons] at hmap
      rw [List.foldl_cons]
      refine ih hmap.2 _ ?_
      obtain ⟨key, value⟩ := entry
      dsimp only
      split
      next group protocol hgroup hprotocol =>
        obtain rfl : value = .object group := by
          cases value with
          | object fields => exact congrArg Value.object (Option.some.inj hgroup)
          | _ => cases hgroup
        exact set_group_wellFormed hbefore protocol hmap.1
      · exact ⟨Value.wellFormed_object_insert hbefore.common hmap.1, hbefore.groups⟩
  exact hfold {} empty_wellFormed

theorem read_groups_wellFormed {groups : Map} (hgroups : ∀ entry ∈ groups, entry.2.WellFormed) {self read : ParamOverride}
    (h : self.WellFormed) (hread : groups.foldlM read_group self = .ok read) : read.WellFormed := by
  induction groups generalizing self with
  | nil => exact Except.ok.inj hread ▸ h
  | cons entry groups ih =>
    rw [List.forall_mem_cons] at hgroups
    rw [List.foldlM_cons] at hread
    obtain ⟨next, hnext, hread⟩ := machine.bind_eq_ok.mp hread
    refine ih hgroups.2 ?_ hread
    rw [read_group] at hnext
    split at hnext
    next protocol group _ hgroup =>
      obtain rfl := Except.ok.inj hnext
      refine set_group_wellFormed h protocol ?_
      cases hvalue : entry.2 with
      | object fields =>
        rw [hvalue] at hgroup
        rw [← Option.some.inj hgroup, ← hvalue]
        exact hgroups.1
      | _ => rw [hvalue] at hgroup; cases hgroup
    · cases hnext

theorem read_field_wellFormed {map : Map} (hmap : (Value.object map).WellFormed) {key : String} {error : OverrideError} {fields : Map}
    (hread : read_field map key error = .ok fields) : (Value.object fields).WellFormed := by
  unfold read_field at hread
  split at hread
  · rw [← Except.ok.inj hread]
    simp
  next value hget =>
    rw [← Except.ok.inj hread]
    exact Value.wellFormed_of_get hmap hget
  · cases hread

/-- Overrides that are read from a document are well-formed, whatever its shape. -/
theorem deserialize_wellFormed {document : Value} (hdocument : document.WellFormed) {self : ParamOverride}
    (hread : deserialize document = .ok self) : self.WellFormed := by
  unfold deserialize at hread
  split at hread
  next map =>
    split at hread
    · obtain ⟨common, hcommon, hread⟩ := machine.bind_eq_ok.mp hread
      obtain ⟨groups, hgroups, hread⟩ := machine.bind_eq_ok.mp hread
      obtain ⟨read, hgroups', rfl⟩ := machine.map_eq_ok.mp hread
      have hfields := (Value.wellFormed_object groups).mp (read_field_wellFormed hdocument hgroups)
      exact ⟨read_field_wellFormed hdocument hcommon, (read_groups_wellFormed hfields.2 empty_wellFormed hgroups').groups⟩
    · rw [← Except.ok.inj hread]
      exact from_legacy_wellFormed ((Value.wellFormed_object map).mp hdocument).2
  · cases hread

end ParamOverride

end RoundTrip

end refract.core
