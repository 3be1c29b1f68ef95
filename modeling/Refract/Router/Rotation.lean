import Mathlib.Data.List.Nodup
import Mathlib.Data.List.Range
import Mathlib.Data.Nat.ModEq
import Refract.Router.Keys

open refract.core

namespace refract.core.KeyPool

/-- The keys of a pool, in their order. -/
def keys : KeyPool → List Credential
  | .single key => [key]
  | .pool first rest _ => first :: rest

theorem length_keys (self : KeyPool) : self.keys.length = self.len := by
  cases self <;> rfl

/-- No key is taken from a place outside of the pool. -/
theorem getElem?_keys {self : KeyPool} {index : Nat} (hindex : index < self.len) : self.keys[index]? = some (self.key_at index) := by
  cases self with
  | single key =>
    obtain rfl := Nat.lt_one_iff.mp hindex
    rfl
  | pool first rest strategy =>
    have hmod : index % (rest.length + 1) = index := Nat.mod_eq_of_lt hindex
    simp only [keys, key_at, hmod]
    exact List.getElem?_eq_getElem hindex

end refract.core.KeyPool

namespace refract.router

namespace KeyRotator

variable {self rotator : KeyRotator} {kind : ErrorKind}

/-- The place of the key in use. -/
def place (self : KeyRotator) : Nat := self.index % self.pool.len

/-- A rotation goes to the next key of a pool in which not all were used. -/
theorem rotate_eq_true (h : self.rotate kind = (true, rotator)) :
    self.tried < self.pool.len ∧
      rotator = { self with index := (self.index + 1) % self.pool.len, tried := self.tried + 1 } := by
  unfold rotate at h
  split at h
  · cases h
  · split at h
    · cases h
    · split at h
      · cases h
      · split at h
        · cases h
        next hleft => exact ⟨Nat.lt_of_not_le hleft, (Prod.mk.inj h).2.symm⟩

/-- The places of the keys that are left, the one in use included. -/
def keys_left (self : KeyRotator) : List Nat :=
  (List.range (self.pool.len - self.tried + 1)).map fun j => (self.index + j) % self.pool.len

theorem keys_left_cons (self : KeyRotator) : [self.place].IsPrefix self.keys_left := by
  rw [keys_left, List.range_succ_eq_map, List.map_cons, Nat.add_zero]
  exact List.prefix_append [_] _

theorem keys_left_of_rotate (h : self.rotate kind = (true, rotator)) : self.keys_left = self.place :: rotator.keys_left := by
  obtain ⟨hleft, rfl⟩ := rotate_eq_true h
  have hsucc : self.pool.len - self.tried + 1 = self.pool.len - (self.tried + 1) + 1 + 1 := by omega
  rw [keys_left, hsucc, List.range_succ_eq_map, List.map_cons, List.map_map, Nat.add_zero]
  refine congrArg _ (List.map_congr_left fun j _ => ?_)
  simp only [Function.comp_apply, Nat.mod_add_mod]
  congr 1
  omega

/-- No key is left twice. -/
theorem keys_left_nodup (htried : 0 < self.tried) : self.keys_left.Nodup := by
  refine List.Nodup.map_on (fun j hj k hk heq => ?_) List.nodup_range
  have hpos := self.pool.len_pos
  have hmod : j ≡ k [MOD self.pool.len] := Nat.ModEq.add_left_cancel' self.index heq
  exact hmod.eq_of_lt_of_lt (by rw [List.mem_range] at hj; omega) (by rw [List.mem_range] at hk; omega)

/-- What a failure does to the keys of a request. -/
theorem rotate_cases (self : KeyRotator) (kind : ErrorKind) :
    (self.rotate kind = (false, self) ∧ (self.exhausted = true ∨ kind.is_key_failure = false)) ∨
    (self.rotate kind = (false, { self with exhausted := true }) ∧ kind.is_key_failure = true ∧ self.pool.len ≤ max self.tried 1) ∨
    (∃ rotator, self.rotate kind = (true, rotator) ∧ kind.is_key_failure = true ∧ self.exhausted = false) := by
  unfold rotate
  cases hexhausted : self.exhausted with
  | true => simp
  | false =>
    cases hkind : kind.is_key_failure with
    | false => simp
    | true =>
      by_cases hsingle : self.pool.is_single = true ∨ self.pool.len < 2
      · have hlen : self.pool.len ≤ 1 := by
          rcases hsingle with hsingle | hlen
          · cases hpool : self.pool with
            | single key => exact le_refl _
            | pool first rest strategy =>
              rw [hpool] at hsingle
              cases hsingle
          · omega
        refine .inr (.inl ⟨?_, rfl, le_max_of_le_right hlen⟩)
        rcases hsingle with hsingle | hshort
        · simp [hsingle]
        · simp [hshort]
      · by_cases hleft : self.pool.len ≤ self.tried
        · exact .inr (.inl ⟨by simp [not_or.mp hsingle, hleft], rfl, le_max_of_le_left hleft⟩)
        · exact .inr (.inr ⟨_, by simp [not_or.mp hsingle, hleft]; rfl, rfl, rfl⟩)

/-- The keys after some failures. -/
def after (self : KeyRotator) (kinds : List ErrorKind) : KeyRotator :=
  kinds.foldl (fun rotator kind => (rotator.rotate kind).2) self

/-- The places of the keys that are offered in the course of some failures. -/
def offered (self : KeyRotator) : List ErrorKind → List Nat
  | [] => [self.index]
  | kind :: kinds =>
    let rotated := self.rotate kind
    if rotated.1 then self.index :: rotated.2.offered kinds else rotated.2.offered kinds

/-- The places of the keys that failed as keys. -/
def failed (self : KeyRotator) : List ErrorKind → List Nat
  | [] => []
  | kind :: kinds =>
    let rotated := self.rotate kind
    if kind.is_key_failure then self.index :: rotated.2.failed kinds else rotated.2.failed kinds

/-- Keys in use, at a place of their pool. -/
structure Valid (rotator : KeyRotator) : Prop where
  inside : rotator.index < rotator.pool.len
  tried : 0 < rotator.tried
  left : rotator.tried ≤ rotator.pool.len

theorem Valid.rotate (hvalid : self.Valid) (kind : ErrorKind) : (self.rotate kind).2.Valid ∧ (self.rotate kind).2.pool = self.pool := by
  obtain ⟨hrotate, -⟩ | ⟨hrotate, -, -⟩ | ⟨rotator, hrotate, -, -⟩ := self.rotate_cases kind
  · rw [hrotate]
    exact ⟨hvalid, rfl⟩
  · rw [hrotate]
    exact ⟨⟨hvalid.inside, hvalid.tried, hvalid.left⟩, rfl⟩
  · obtain ⟨hleft, rfl⟩ := rotate_eq_true hrotate
    rw [hrotate]
    exact ⟨⟨Nat.mod_lt _ self.pool.len_pos, Nat.succ_pos _, hleft⟩, rfl⟩

theorem Valid.after (hvalid : self.Valid) (kinds : List ErrorKind) : (self.after kinds).Valid ∧ (self.after kinds).pool = self.pool := by
  induction kinds generalizing self with
  | nil => exact ⟨hvalid, rfl⟩
  | cons kind kinds ih =>
    obtain ⟨hnext, hpool⟩ := hvalid.rotate kind
    obtain ⟨hlast, hsame⟩ := ih hnext
    exact ⟨hlast, hsame.trans hpool⟩

theorem Valid.place_eq (hvalid : self.Valid) : self.place = self.index := Nat.mod_eq_of_lt hvalid.inside

/-- The places are offered in the order in which they are left. -/
theorem offered_prefix (hvalid : self.Valid) (kinds : List ErrorKind) : self.offered kinds <+: self.keys_left := by
  induction kinds generalizing self with
  | nil =>
    rw [offered, ← hvalid.place_eq]
    exact self.keys_left_cons
  | cons kind kinds ih =>
    have hlater := ih (hvalid.rotate kind).1
    rw [offered]
    obtain ⟨hrotate, -⟩ | ⟨hrotate, -, -⟩ | ⟨rotator, hrotate, -, -⟩ := self.rotate_cases kind
    · rw [hrotate] at hlater ⊢
      exact hlater
    · rw [hrotate] at hlater ⊢
      exact hlater
    · rw [hrotate] at hlater ⊢
      rw [keys_left_of_rotate hrotate, hvalid.place_eq]
      exact List.cons_prefix_cons.mpr ⟨rfl, hlater⟩

theorem offered_last (self : KeyRotator) (kinds : List ErrorKind) : (self.offered kinds).getLast? = some (self.after kinds).index := by
  induction kinds generalizing self with
  | nil => rfl
  | cons kind kinds ih =>
    have hlater := ih (self.rotate kind).2
    rw [offered]
    split
    · rw [List.getLast?_cons, hlater]
      rfl
    · exact hlater

theorem after_of_exhausted (hexhausted : self.exhausted = true) (kinds : List ErrorKind) : self.after kinds = self := by
  induction kinds with
  | nil => rfl
  | cons kind kinds ih =>
    have hrotate : self.rotate kind = (false, self) := by
      rw [rotate, if_pos hexhausted]
    rw [after, List.foldl_cons, hrotate]
    exact ih

/-- No key is left once all keys that were left have failed. -/
theorem exhausted_after_iff (hvalid : self.Valid) (hfresh : self.exhausted = false) (kinds : List ErrorKind) :
    (self.after kinds).exhausted = true ↔ ∀ place ∈ self.keys_left, place ∈ self.failed kinds := by
  induction kinds generalizing self with
  | nil =>
    have hplace : self.place ∈ self.keys_left := self.keys_left_cons.subset (.head _)
    refine iff_of_false (by simp [after, hfresh]) fun hall => ?_
    exact List.not_mem_nil (hall _ hplace)
  | cons kind kinds ih =>
    have hafter : self.after (kind :: kinds) = (self.rotate kind).2.after kinds := rfl
    rw [hafter, failed]
    obtain ⟨hrotate, hkind⟩ | ⟨hrotate, hkind, hlen⟩ | ⟨rotator, hrotate, hkind, -⟩ := self.rotate_cases kind
    · have hother : kind.is_key_failure = false := hkind.resolve_left (by simp [hfresh])
      rw [hrotate, hother]
      exact ih hvalid hfresh
    · rw [hrotate, hkind, after_of_exhausted rfl]
      have htried : self.tried = self.pool.len := by
        have hpos := hvalid.tried
        have hleft := hvalid.left
        omega
      have hlast : self.keys_left = [self.index] := by
        rw [keys_left, htried, Nat.sub_self]
        exact congrArg ([·]) hvalid.place_eq
      refine iff_of_true rfl fun place hplace => ?_
      rw [hlast, List.mem_singleton] at hplace
      exact hplace ▸ .head _
    · have hnext := hvalid.rotate kind
      rw [hrotate] at hnext ⊢
      obtain ⟨-, heq⟩ := rotate_eq_true hrotate
      have hfresh_next : rotator.exhausted = false := by rw [heq, hfresh]
      have hnodup := self.keys_left_nodup hvalid.tried
      rw [keys_left_of_rotate hrotate, hvalid.place_eq] at hnodup ⊢
      rw [ih hnext.1 hfresh_next, hkind]
      dsimp only
      rw [if_pos rfl, List.forall_mem_cons, and_iff_right (List.mem_cons_self)]
      refine forall_congr' fun place => forall_congr' fun hplace => ?_
      have hne : place ≠ self.index := fun heq => (List.nodup_cons.mp hnodup).1 (heq ▸ hplace)
      rw [List.mem_cons, or_iff_right hne]

/-- At first all keys of the pool are left. -/
theorem mem_keys_left (hvalid : self.Valid) (hfirst : self.tried = 1) (place : Nat) : place ∈ self.keys_left ↔ place < self.pool.len := by
  have hpos := self.pool.len_pos
  have hlen : self.pool.len - 1 + 1 = self.pool.len := Nat.sub_add_cancel hpos
  rw [keys_left, hfirst, hlen, List.mem_map]
  constructor
  · rintro ⟨j, -, rfl⟩
    exact Nat.mod_lt _ hpos
  · intro hplace
    have hinside := hvalid.inside
    by_cases hle : self.index ≤ place
    · refine ⟨place - self.index, List.mem_range.mpr (by omega), ?_⟩
      rw [Nat.add_sub_cancel' hle, Nat.mod_eq_of_lt hplace]
    · refine ⟨place + self.pool.len - self.index, List.mem_range.mpr (by omega), ?_⟩
      have hsum : self.index + (place + self.pool.len - self.index) = place + self.pool.len := by omega
      rw [hsum, Nat.add_mod_right, Nat.mod_eq_of_lt hplace]

end KeyRotator

namespace KeySelector

variable (self : KeySelector) (channel_id : Int) (pool : KeyPool) (identity : Option Nat) (random : Fin pool.len)

/-- A place that is kept is used only inside of the pool. -/
theorem first_index_lt : (self.first_index channel_id pool identity random).1 < pool.len := by
  have hcursor : ∀ selector : KeySelector, (selector.next_cursor channel_id pool.len).1 < pool.len := fun _ => Nat.mod_lt _ pool.len_pos
  unfold first_index
  cases pool.strategy with
  | random => exact random.isLt
  | roundRobin => exact hcursor self
  | sticky =>
    cases identity with
    | none => exact hcursor self
    | some id =>
      dsimp only
      split
      · exact hcursor self
      · split
        next hbound => exact hbound
        · exact hcursor _

theorem start_valid : (self.start channel_id pool identity random).1.Valid where
  inside := self.first_index_lt channel_id pool identity random
  tried := Nat.one_pos
  left := pool.len_pos

end KeySelector

/-- The places of a pool are offered one after another, each of them once, and no longer once all
    of them have failed. The place that serves a caller is kept for it. -/
theorem keys_tried_once (selector : KeySelector) (channel_id : Int) (pool : KeyPool) (identity : Option Nat) (random : Fin pool.len)
    (kinds : List ErrorKind) :
    let started := (selector.start channel_id pool identity random).1
    let current := started.after kinds
    ((started.offered kinds).Nodup ∧ (∀ index ∈ started.offered kinds, index < pool.len) ∧
      (started.offered kinds).getLast? = some current.index) ∧
    (∀ kind, (current.rotate kind).1 = true → kind.is_key_failure = true) ∧
    (current.exhausted = true ↔ ∀ index < pool.len, index ∈ started.failed kinds) ∧
    (current.exhausted = true → ∀ kind, current.rotate kind = (false, current)) ∧
    pool.keys[current.index]? = some current.current ∧
    (pool.strategy = .sticky → ∀ id, identity = some id → ∀ later : KeySelector,
      (current.commit later channel_id identity).sticky (channel_id, id) = some current.index) := by
  intro started current
  have hvalid : started.Valid := selector.start_valid channel_id pool identity random
  obtain ⟨hcurrent, hsame⟩ := hvalid.after kinds
  have hpool : current.pool = pool := hsame
  have hinside : current.index < pool.len := hpool ▸ hcurrent.inside
  have hprefix := KeyRotator.offered_prefix hvalid kinds
  refine ⟨⟨?_, fun index hindex => ?_, started.offered_last kinds⟩, fun kind hrotated => ?_, ?_, fun hexhausted kind => ?_, ?_, ?_⟩
  · exact hprefix.sublist.nodup (KeyRotator.keys_left_nodup hvalid.tried)
  · exact (KeyRotator.mem_keys_left hvalid rfl index).mp (List.IsPrefix.subset hprefix hindex)
  · obtain ⟨hrotate, -⟩ | ⟨hrotate, -, -⟩ | ⟨_, -, hkind, -⟩ := current.rotate_cases kind
    · rw [hrotate] at hrotated
      cases hrotated
    · rw [hrotate] at hrotated
      cases hrotated
    · exact hkind
  · rw [KeyRotator.exhausted_after_iff hvalid rfl kinds]
    simp only [KeyRotator.mem_keys_left hvalid rfl]
    rfl
  · rw [KeyRotator.rotate, if_pos hexhausted]
  · rw [KeyRotator.current, hpool]
    exact KeyPool.getElem?_keys hinside
  · rintro hsticky id rfl later
    rw [KeyRotator.commit, hpool, if_pos hsticky]
    exact Function.update_self ..

end refract.router
