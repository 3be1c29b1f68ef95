import Mathlib.Order.Fin.Basic
import Mathlib.Data.List.Nodup
import Mathlib.Tactic.Common

namespace refract.json

/-- A machine `u64`. Arithmetic on it wraps, as an optimized build does. -/
abbrev U64 := Fin 18446744073709551616

instance instNeZeroU64 : @NeZero Nat Zero.ofOfNat0 18446744073709551616 := ⟨Nat.succ_ne_zero 18446744073709551615⟩

/-- A JSON number: an integer literal, or the exact decimal
    `mantissa * 10 ^ exponent` of any other literal. Binary rounding of such a
    literal is not modelled. -/
inductive Number where
  | int (i : Int)
  | float (mantissa exponent : Int)
  deriving DecidableEq, Repr

/-- A JSON document. An object keeps its members in insertion order. -/
inductive Value where
  | null
  | bool (b : Bool)
  | number (n : Number)
  | string (s : String)
  | array (items : List Value)
  | object (map : List (String × Value))

/-- The members of an object, in insertion order. -/
abbrev Map := List (String × Value)

/-- The value stored under a key. -/
def Map.get (map : Map) (key : String) : Option Value := map.lookup key

/-- Replaces the value of a present key in place, and appends an absent one. -/
def Map.insert : Map → String → Value → Map
  | [], key, value => [(key, value)]
  | (k, v) :: map, key, value => if k = key then (key, value) :: map else (k, v) :: Map.insert map key value

/-- Removes a key. The last member moves into its place. -/
def Map.swap_remove (map : Map) (key : String) : Map :=
  match map.getLast? with
  | none => []
  | some last =>
    if last.1 = key then map.dropLast
    else if (map.get key).isSome then map.dropLast.map fun entry => if entry.1 = key then last else entry
    else map

def Map.contains_key (map : Map) (key : String) : Bool := (map.get key).isSome

namespace Value

/-- Member access; every document but an object has no members. -/
def get : Value → String → Option Value
  | .object map, key => Map.get map key
  | _, _ => none

def as_str : Value → Option String
  | .string s => some s
  | _ => none

def as_bool : Value → Option Bool
  | .bool b => some b
  | _ => none

def as_array : Value → Option (List Value)
  | .array items => some items
  | _ => none

def as_object : Value → Option Map
  | .object map => some map
  | _ => none

/-- The number as a `u64`; a negative, fractional or oversized one is none. -/
def as_u64 : Value → Option U64
  | .number (.int i) => if h : 0 ≤ i ∧ i < 18446744073709551616 then some ⟨i.toNat, by omega⟩ else none
  | _ => none

/-- The number as an `i64`. -/
def as_i64 : Value → Option Int
  | .number (.int i) => if -9223372036854775808 ≤ i ∧ i < 9223372036854775808 then some i else none
  | _ => none

/-- The member under a key, when it is a string. -/
def get_str (v : Value) (key : String) : Option String := (v.get key).bind as_str

def is_null : Value → Bool
  | .null => true
  | _ => false

def is_object : Value → Bool
  | .object _ => true
  | _ => false

/-- The JSON number of a machine integer. -/
def nat (n : Nat) : Value := .number (.int n)

/-- No object of the document repeats a key. Every document a parser builds
    has this shape, since a map cannot hold a key twice. -/
inductive WellFormed : Value → Prop where
  | null : WellFormed .null
  | bool (b : Bool) : WellFormed (.bool b)
  | number (n : Number) : WellFormed (.number n)
  | string (s : String) : WellFormed (.string s)
  | array {items : List Value} (hitems : ∀ v ∈ items, WellFormed v) : WellFormed (.array items)
  | object {map : List (String × Value)} (hkeys : (map.map Prod.fst).Nodup)
      (hvalues : ∀ entry ∈ map, WellFormed entry.2) : WellFormed (.object map)

end Value

section Lookup

variable (map : Map) (key : String) (value : Value)

@[simp] theorem Value.get_object : (Value.object map).get key = map.lookup key := rfl

@[simp] theorem Value.get_str_object : (Value.object map).get_str key = (map.lookup key).bind Value.as_str := rfl

@[simp] theorem Value.as_str_string (s : String) : (Value.string s).as_str = some s := rfl

@[simp] theorem Value.as_array_array (items : List Value) : (Value.array items).as_array = some items := rfl

@[simp] theorem Value.as_object_object : (Value.object map).as_object = some map := rfl

@[simp] theorem Value.as_bool_bool (b : Bool) : (Value.bool b).as_bool = some b := rfl

theorem Value.as_u64_nat_of_lt {n : Nat} (hn : n < 18446744073709551616) : (Value.nat n).as_u64 = some ⟨n, hn⟩ := by
  have hrange : (0 : Int) ≤ n ∧ (n : Int) < 18446744073709551616 := by omega
  simp only [Value.nat, Value.as_u64, dif_pos hrange, Int.toNat_natCast]

@[simp] theorem Value.as_u64_nat (n : U64) : (Value.nat n.val).as_u64 = some n :=
  Value.as_u64_nat_of_lt n.isLt

/-- A count that is only written when positive reads back as itself. -/
theorem optional_count (n : U64) :
    ((if 0 < n then some (Value.nat n.val) else none).bind Value.as_u64).getD 0 = n := by
  by_cases hn : 0 < n
  · rw [if_pos hn, Option.bind_some, Value.as_u64_nat, Option.getD_some]
  · have hzero : n = 0 := by simpa using hn
    rw [if_neg hn, hzero]
    rfl

@[simp] theorem Map.get_insert_self : (Map.insert map key value).lookup key = some value := by
  induction map with
  | nil => simp [Map.insert]
  | cons entry map ih =>
    obtain ⟨k, v⟩ := entry
    by_cases hk : k = key
    · simp [Map.insert, hk]
    · have hne : (key == k) = false := by simpa using Ne.symm hk
      simp [Map.insert, hk, List.lookup_cons, hne, ih]

theorem Map.get_insert_of_ne {other : String} (hne : other ≠ key) :
    (Map.insert map key value).lookup other = map.lookup other := by
  induction map with
  | nil =>
    have hbeq : (other == key) = false := by simpa using hne
    simp [Map.insert, List.lookup_cons, hbeq]
  | cons entry map ih =>
    obtain ⟨k, v⟩ := entry
    by_cases hk : k = key
    · subst hk
      have hbeq : (other == k) = false := by simpa using hne
      simp [Map.insert, List.lookup_cons, hbeq]
    · simp only [Map.insert, hk, if_false, List.lookup_cons, ih]

/-- Inserting a key adds it at most once. -/
theorem Map.keys_insert :
    (Map.insert map key value).map Prod.fst =
      if key ∈ map.map Prod.fst then map.map Prod.fst else map.map Prod.fst ++ [key] := by
  induction map with
  | nil => simp [Map.insert]
  | cons entry map ih =>
    obtain ⟨k, v⟩ := entry
    by_cases hk : k = key
    · subst hk
      simp [Map.insert]
    · simp only [Map.insert, hk, if_false, List.map_cons, ih, List.mem_cons]
      by_cases hmem : key ∈ map.map Prod.fst
      · simp [hmem]
      · have hne : key ≠ k := Ne.symm hk
        simp [hmem, hne]

/-- What is stored under a key is smaller than the object. -/
theorem Map.sizeOf_get_lt : sizeOf (Map.get map key) < sizeOf (Value.object map) := by
  have hmember : sizeOf (Map.get map key) ≤ sizeOf map := by
    induction map with
    | nil => simp [Map.get]
    | cons entry map ih =>
      obtain ⟨k, v⟩ := entry
      by_cases hk : key = k
      · subst hk
        simp only [Map.get, List.lookup_cons_self, Option.some.sizeOf_spec, List.cons.sizeOf_spec, Prod.mk.sizeOf_spec]
        omega
      · have hbeq : (key == k) = false := by simpa using hk
        have htail : Map.get ((k, v) :: map) key = Map.get map key := by simp [Map.get, List.lookup_cons, hbeq]
        rw [htail, List.cons.sizeOf_spec]
        omega
  rw [Value.object.sizeOf_spec]
  omega

/-- So is an object that is stored under a key. -/
theorem Map.sizeOf_inner_lt {inner : Map} (h : (Map.get map key).bind Value.as_object = some inner) :
    sizeOf (Value.object inner) < sizeOf (Value.object map) := by
  have hlt := Map.sizeOf_get_lt map key
  obtain ⟨value, hget, hvalue⟩ := Option.bind_eq_some_iff.mp h
  rw [hget, Option.some.sizeOf_spec] at hlt
  cases value with
  | object obj =>
    obtain rfl : obj = inner := Option.some.inj hvalue
    omega
  | _ => cases hvalue

end Lookup

namespace Value

@[simp] theorem wellFormed_null : WellFormed .null := .null

@[simp] theorem wellFormed_bool (b : Bool) : WellFormed (.bool b) := .bool b

@[simp] theorem wellFormed_number (n : Number) : WellFormed (.number n) := .number n

@[simp] theorem wellFormed_nat (n : Nat) : WellFormed (.nat n) := .number _

@[simp] theorem wellFormed_string (s : String) : WellFormed (.string s) := .string s

@[simp] theorem wellFormed_array (items : List Value) :
    WellFormed (.array items) ↔ ∀ v ∈ items, WellFormed v := by
  constructor
  · intro h
    cases h with
    | array hitems => exact hitems
  · exact .array

@[simp] theorem wellFormed_object (map : List (String × Value)) :
    WellFormed (.object map) ↔ (map.map Prod.fst).Nodup ∧ ∀ entry ∈ map, WellFormed entry.2 := by
  constructor
  · intro h
    cases h with
    | object hkeys hvalues => exact ⟨hkeys, hvalues⟩
  · exact fun h => .object h.1 h.2

/-- Inserting a well-formed value keeps an object well-formed. -/
theorem wellFormed_of_get {map : Map} {key : String} {value : Value} (hmap : WellFormed (.object map))
    (hget : Map.get map key = some value) : value.WellFormed := by
  obtain ⟨-, hvalues⟩ := (wellFormed_object map).mp hmap
  obtain ⟨before, after, rfl, -⟩ := List.lookup_eq_some_iff.mp hget
  exact hvalues (key, value) (by simp)

theorem wellFormed_object_insert {map : Map} {key : String} {value : Value}
    (hmap : WellFormed (.object map)) (hvalue : WellFormed value) :
    WellFormed (.object (Map.insert map key value)) := by
  rw [wellFormed_object] at hmap ⊢
  obtain ⟨hkeys, hvalues⟩ := hmap
  refine ⟨?_, ?_⟩
  · rw [Map.keys_insert]
    split
    · exact hkeys
    · rename_i habsent
      rw [List.nodup_append]
      refine ⟨hkeys, List.nodup_singleton key, ?_⟩
      intro k hk other hother
      rw [List.mem_singleton] at hother
      subst hother
      exact fun heq => habsent (heq ▸ hk)
  · clear hkeys
    induction map with
    | nil => simpa [Map.insert] using hvalue
    | cons entry map ih =>
      obtain ⟨k, v⟩ := entry
      by_cases hk : k = key
      · subst hk
        intro e he
        simp only [Map.insert, if_true, List.mem_cons] at he
        rcases he with rfl | he
        · exact hvalue
        · exact hvalues e (List.mem_cons_of_mem _ he)
      · intro e he
        simp only [Map.insert, hk, if_false, List.mem_cons] at he
        rcases he with rfl | he
        · exact hvalues _ List.mem_cons_self
        · exact ih (fun e he => hvalues e (List.mem_cons_of_mem _ he)) e he

end Value

end refract.json
