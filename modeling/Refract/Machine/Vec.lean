import Mathlib.Data.List.Flatten
import Mathlib.Data.List.Pairwise
import Mathlib.Data.List.Perm.Basic
import Mathlib.Data.List.Rotate
import Mathlib.Data.List.TakeWhile
import Mathlib.Order.Lattice

namespace refract.machine

variable {α κ : Type}

section Pairs

variable {β : Type} {R S : α → β → Prop} {xs : List α} {ys : List β}

theorem exists_of_mem_forall₂ (hall : List.Forall₂ R xs ys) {a : α} (ha : a ∈ xs) : ∃ b ∈ ys, R a b := by
  induction hall with
  | nil => cases ha
  | cons hfirst _ ih =>
    rcases List.mem_cons.mp ha with rfl | ha
    · exact ⟨_, .head _, hfirst⟩
    · obtain ⟨b, hb, hrelated⟩ := ih ha
      exact ⟨b, .tail _ hb, hrelated⟩

theorem forall₂_imp_of_mem (hall : List.Forall₂ R xs ys) (himp : ∀ a ∈ xs, ∀ b ∈ ys, R a b → S a b) : List.Forall₂ S xs ys := by
  induction hall with
  | nil => exact .nil
  | cons hfirst _ ih =>
    refine .cons (himp _ (.head _) _ (.head _) hfirst) (ih fun a ha b hb => ?_)
    exact himp a (.tail _ ha) b (.tail _ hb)

/-- What two lists say about the pairs of their entries. -/
theorem pairwise_of_forall₂ {T : α → α → Prop} {U V : β → β → Prop} (hall : List.Forall₂ R xs ys) (hxs : xs.Pairwise T)
    (hys : ys.Pairwise U) (hpair : ∀ a b c d, R a b → R c d → T a c → U b d → V b d) : ys.Pairwise V := by
  induction hall with
  | nil => exact .nil
  | cons hfirst hrest ih =>
    obtain ⟨hbefore, hxs⟩ := List.pairwise_cons.mp hxs
    obtain ⟨hless, hys⟩ := List.pairwise_cons.mp hys
    refine List.pairwise_cons.mpr ⟨fun d hd => ?_, ih hxs hys⟩
    obtain ⟨c, hc, hrelated⟩ := exists_of_mem_forall₂ hrest.flip hd
    exact hpair _ _ _ _ hfirst hrelated (hbefore c hc) (hless d hd)

theorem map_eq_of_forall₂ {γ : Type} {f : α → γ} {g : β → γ} (hall : List.Forall₂ R xs ys) (himp : ∀ a b, R a b → g b = f a) : ys.map g = xs.map f := by
  induction hall with
  | nil => rfl
  | cons hfirst _ ih => rw [List.map_cons, List.map_cons, himp _ _ hfirst, ih]

variable {P : α → Prop} {f : α → Option β}

/-- Among related entries a further relation holds where the first ones have a property. -/
theorem forall₂_iff_forall (hall : List.Forall₂ R xs ys) (hiff : ∀ a b, R a b → (S a b ↔ P a)) :
    List.Forall₂ S xs ys ↔ ∀ a ∈ xs, P a := by
  induction hall with
  | nil => exact ⟨fun _ => List.forall_mem_nil _, fun _ => .nil⟩
  | cons hfirst _ ih => rw [List.forall₂_cons, List.forall_mem_cons, hiff _ _ hfirst, ih]

/-- Lists related in two steps are related in one. -/
theorem forall₂_comp {γ : Type} {T : β → γ → Prop} {zs : List γ} (hall : List.Forall₂ R xs ys) (hnext : List.Forall₂ T ys zs) :
    List.Forall₂ (fun a c => ∃ b, R a b ∧ T b c) xs zs := by
  induction hall generalizing zs with
  | nil =>
    cases hnext
    exact .nil
  | cons hfirst _ ih =>
    cases hnext with
    | cons hsecond hnext => exact .cons ⟨_, hfirst, hsecond⟩ (ih hnext)

theorem findSome_filterMap {γ : Type} (f : α → Option β) (g : β → Option γ) (xs : List α) :
    (xs.filterMap f).findSome? g = xs.findSome? fun x => (f x).bind g := by
  induction xs with
  | nil => rfl
  | cons x xs ih =>
    cases hx : f x with
    | none => simp [hx, ih]
    | some y => rw [List.filterMap_cons_some hx, List.findSome?_cons, List.findSome?_cons, hx, Option.bind_some, ih]

theorem length_filterMap_eq (xs : List α) :
    (xs.filterMap f).length = xs.length ↔ ∀ x ∈ xs, (f x).isSome = true := by
  induction xs with
  | nil => simp
  | cons x xs ih =>
    rw [List.forall_mem_cons]
    cases hx : f x with
    | none =>
      have hle := List.length_filterMap_le f xs
      rw [List.filterMap_cons_none hx, List.length_cons]
      simp only [Option.isSome_none, Bool.false_eq_true, false_and, iff_false]
      omega
    | some y =>
      rw [List.filterMap_cons_some hx, List.length_cons, List.length_cons, Nat.add_right_cancel_iff, ih]
      exact (and_iff_right rfl).symm

/-- As many entries are left only where each is left, as the entry at its place. -/
theorem filterMap_eq_iff (hlength : xs.length = ys.length) :
    xs.filterMap f = ys ↔ List.Forall₂ (fun a b => f a = some b) xs ys := by
  constructor
  · intro heq
    induction xs generalizing ys with
    | nil =>
      subst heq
      exact .nil
    | cons a xs ih =>
      cases hfirst : f a with
      | none =>
        rw [List.filterMap_cons_none hfirst] at heq
        have hle := List.length_filterMap_le f xs
        rw [heq, ← hlength, List.length_cons] at hle
        omega
      | some b =>
        rw [List.filterMap_cons_some hfirst] at heq
        subst heq
        rw [List.length_cons, List.length_cons] at hlength
        exact .cons hfirst (ih (Nat.succ.inj hlength) rfl)
  · intro hall
    induction hall with
    | nil => rfl
    | cons hfirst _ ih => rw [List.filterMap_cons_some hfirst, ih (by simpa using hlength)]

end Pairs

section Finding

variable {R : α → α → Prop} {p : α → Bool} {xs : List α} {a b : α}

/-- What is found stands before all others of its kind. -/
theorem related_of_find? (hpairwise : xs.Pairwise R) (hfind : xs.find? p = some a) (hb : b ∈ xs) (hp : p b = true) : b = a ∨ R a b := by
  obtain ⟨-, before, after, rfl, hbefore⟩ := List.find?_eq_some_iff_append.mp hfind
  rcases List.mem_append.mp hb with hb | hb
  · exact absurd hp (by simpa using hbefore b hb)
  · rcases List.mem_cons.mp hb with rfl | hb
    · exact .inl rfl
    · exact .inr ((List.pairwise_cons.mp (List.pairwise_append.mp hpairwise).2.1).1 b hb)

/-- Among entries with different keys each is found by its own. -/
theorem find?_of_nodup [DecidableEq κ] {key : α → κ} {x : α} (hnodup : (xs.map key).Nodup) (hx : x ∈ xs) :
    xs.find? (key · = key x) = some x := by
  induction xs with
  | nil => cases hx
  | cons first rest ih =>
    obtain ⟨hother, hnodup⟩ := List.nodup_cons.mp hnodup
    rcases List.mem_cons.mp hx with rfl | hrest
    · exact List.find?_cons_of_pos (by simp)
    · have hne : key first ≠ key x := fun hsame => hother (hsame ▸ List.mem_map_of_mem hrest)
      rw [List.find?_cons_of_neg (by simpa using hne)]
      exact ih hnodup hrest

/-- The first separator is found again. -/
theorem append_separator_inj {sep : α} {ys as bs : List α} (hxs : sep ∉ xs) (hys : sep ∉ ys)
    (heq : xs ++ sep :: as = ys ++ sep :: bs) : xs = ys ∧ as = bs := by
  induction xs generalizing ys with
  | nil =>
    cases ys with
    | nil => exact ⟨rfl, (List.cons.inj heq).2⟩
    | cons y ys =>
      obtain ⟨rfl, -⟩ := List.cons.inj heq
      exact absurd (.head _) hys
  | cons x xs ih =>
    cases ys with
    | nil =>
      obtain ⟨rfl, -⟩ := List.cons.inj heq
      exact absurd (.head _) hxs
    | cons y ys =>
      obtain ⟨rfl, hrest⟩ := List.cons.inj heq
      obtain ⟨rfl, has⟩ := ih (fun hmem => hxs (.tail _ hmem)) (fun hmem => hys (.tail _ hmem)) hrest
      exact ⟨rfl, has⟩

end Finding

section Removal

/-- Takes an entry out of a vector, whose last entry takes its place. -/
def swap_remove (pool : List α) (idx : Fin pool.length) : α × List α :=
  (pool.get idx, (pool.set idx (pool.get ⟨pool.length - 1, Nat.sub_lt (Nat.zero_lt_of_lt idx.isLt) Nat.one_pos⟩)).dropLast)

/-- Nothing else leaves the vector. -/
theorem swap_remove_perm (pool : List α) (idx : Fin pool.length) :
    pool.Perm ((swap_remove pool idx).1 :: (swap_remove pool idx).2) := by
  obtain ⟨idx, hidx⟩ := idx
  have hbound : pool.length - 1 < pool.length := by omega
  let filled := pool.set idx pool[pool.length - 1]
  have hfilled : filled ≠ [] := List.ne_nil_of_length_pos (by rw [List.length_set]; omega)
  have hlast : filled.getLast hfilled = pool[pool.length - 1] := by
    simp [filled, List.getLast_eq_getElem, List.getElem_set]
  have hset : filled.Perm (pool[pool.length - 1] :: pool.eraseIdx idx) := List.set_perm_cons_eraseIdx hidx _
  have hrest : filled.dropLast.Perm (pool.eraseIdx idx) := by
    rw [← List.dropLast_concat_getLast hfilled, hlast] at hset
    exact (List.perm_cons _).mp ((List.perm_append_singleton _ _).symm.trans hset)
  exact (List.getElem_cons_eraseIdx_perm hidx).symm.trans (hrest.symm.cons _)

theorem swap_remove_length (pool : List α) (idx : Fin pool.length) : (swap_remove pool idx).2.length = pool.length - 1 := by
  rw [swap_remove, List.length_dropLast, List.length_set]

end Removal

section Sorting

variable [LinearOrder κ] (key : α → κ)

/-- Sorts by a key and keeps the order of entries with the same. -/
def sort_by_key (xs : List α) : List α := xs.mergeSort fun a b => key a ≤ key b

theorem sort_by_key_perm (xs : List α) : (sort_by_key key xs).Perm xs := List.mergeSort_perm xs _

theorem sort_by_key_sorted (xs : List α) : (sort_by_key key xs).Pairwise fun a b => key a ≤ key b := by
  have hsorted : (sort_by_key key xs).Pairwise fun a b => decide (key a ≤ key b) = true :=
    List.pairwise_mergeSort (by simpa using fun a b c => le_trans) (by simpa using fun a b => le_total _ _) xs
  simpa only [decide_eq_true_eq] using hsorted

/-- The entries with one key are left as they are. -/
theorem filter_sort_by_key (k : κ) (xs : List α) :
    (sort_by_key key xs).filter (key · = k) = xs.filter (key · = k) := by
  have hlevel : (xs.filter (key · = k)).Pairwise fun a b => decide (key a ≤ key b) = true := by
    refine List.pairwise_of_forall_mem_list fun a ha b hb => ?_
    simp only [List.mem_filter, decide_eq_true_eq] at ha hb ⊢
    exact (ha.2.trans hb.2.symm).le
  have hsub : (xs.filter (key · = k)).Sublist (sort_by_key key xs) :=
    List.sublist_mergeSort (by simpa using fun a b c => le_trans) (by simpa using fun a b => le_total _ _) hlevel
      List.filter_sublist
  have hfiltered := hsub.filter (key · = k)
  rw [List.filter_filter] at hfiltered
  simp only [Bool.and_self] at hfiltered
  exact (hfiltered.eq_of_length ((sort_by_key_perm key xs).filter _).length_eq.symm).symm

/-- Entries with the same key keep the order they had. -/
theorem sort_by_key_stable {R : α → α → Prop} {xs : List α} (hpairwise : xs.Pairwise R) :
    (sort_by_key key xs).Pairwise fun a b => key a < key b ∨ key a = key b ∧ R a b := by
  rw [List.pairwise_iff_forall_sublist]
  intro a b hpair
  have hle : key a ≤ key b := List.pairwise_iff_forall_sublist.mp (sort_by_key_sorted key xs) hpair
  rcases hle.lt_or_eq with hlt | heq
  · exact .inl hlt
  · have hlevel := hpair.filter (key · = key b)
    rw [filter_sort_by_key] at hlevel
    simp only [List.filter_cons, heq, decide_true, if_true, List.filter_nil] at hlevel
    exact .inr ⟨heq, List.pairwise_iff_forall_sublist.mp hpairwise (hlevel.trans List.filter_sublist)⟩

/-- Entries that are in order among themselves are in the same order after the sort. -/
theorem filter_sort_of_sorted {p : α → Bool} {xs : List α} (hsorted : (xs.filter p).Pairwise fun a b => key a ≤ key b) :
    (sort_by_key key xs).filter p = xs.filter p := by
  have hsub : (xs.filter p).Sublist (sort_by_key key xs) :=
    List.sublist_mergeSort (by simpa using fun a b c => le_trans) (by simpa using fun a b => le_total _ _) (by simpa using hsorted)
      List.filter_sublist
  have hfiltered := hsub.filter p
  rw [List.filter_filter] at hfiltered
  simp only [Bool.and_self] at hfiltered
  exact (hfiltered.eq_of_length ((sort_by_key_perm key xs).filter _).length_eq.symm).symm

/-- What leaves the keys alone may be done before or after. -/
theorem map_sort_by_key {f : α → α} (hkey : ∀ a, key (f a) = key a) (xs : List α) :
    (sort_by_key key xs).map f = sort_by_key key (xs.map f) := by
  unfold sort_by_key
  refine List.map_mergeSort fun a _ b _ => ?_
  rw [hkey, hkey]

/-- What is in order is left as it is. -/
theorem sort_by_key_of_sorted {xs : List α} (hsorted : xs.Pairwise fun a b => key a ≤ key b) : sort_by_key key xs = xs :=
  List.mergeSort_of_pairwise (by simpa using hsorted)

/-- Sorted lists with the same entries under every key are the same. -/
theorem eq_of_sorted_of_filter {xs ys : List α} (hxs : xs.Pairwise fun a b => key a ≤ key b)
    (hys : ys.Pairwise fun a b => key a ≤ key b) (h : ∀ k, xs.filter (key · = k) = ys.filter (key · = k)) : xs = ys := by
  induction xs generalizing ys with
  | nil =>
    cases ys with
    | nil => rfl
    | cons y ys => simpa using h (key y)
  | cons x xs ih =>
    cases ys with
    | nil => simpa using h (key x)
    | cons y ys =>
      obtain ⟨hx, hxs_tail⟩ := List.pairwise_cons.mp hxs
      obtain ⟨hy, hys_tail⟩ := List.pairwise_cons.mp hys
      have hkey : key x = key y := by
        have hmem_x : x ∈ (y :: ys).filter (key · = key x) := h (key x) ▸ List.mem_filter.mpr ⟨List.mem_cons_self, by simp⟩
        have hmem_y : y ∈ (x :: xs).filter (key · = key y) := h (key y) ▸ List.mem_filter.mpr ⟨List.mem_cons_self, by simp⟩
        apply le_antisymm
        · rcases List.mem_cons.mp (List.mem_filter.mp hmem_y).1 with heq | hmem
          · exact (congrArg key heq).ge
          · exact hx y hmem
        · rcases List.mem_cons.mp (List.mem_filter.mp hmem_x).1 with heq | hmem
          · exact (congrArg key heq).ge
          · exact hy x hmem
      have hhead := h (key x)
      rw [List.filter_cons_of_pos (by simp), List.filter_cons_of_pos (by simp [hkey])] at hhead
      obtain ⟨rfl, htail⟩ := List.cons.inj hhead
      refine congrArg (x :: ·) (ih hxs_tail hys_tail fun k => ?_)
      by_cases hk : key x = k
      · rwa [← hk]
      · have hall := h k
        rwa [List.filter_cons_of_neg (by simpa using hk), List.filter_cons_of_neg (by simpa using hk)] at hall

/-- The sort only depends on the order under each key. -/
theorem sort_by_key_eq_of_filter {xs ys : List α} (h : ∀ k, xs.filter (key · = k) = ys.filter (key · = k)) :
    sort_by_key key xs = sort_by_key key ys := by
  refine eq_of_sorted_of_filter key (sort_by_key_sorted key xs) (sort_by_key_sorted key ys) fun k => ?_
  rw [filter_sort_by_key, filter_sort_by_key, h k]

end Sorting

section Deduplication

variable [LinearOrder κ] (key : α → κ)

/-- Keeps the first of neighbours with the same key. -/
def dedup_by_key : List α → List α
  | [] => []
  | a :: rest =>
    match dedup_by_key rest with
    | [] => [a]
    | b :: kept => if key a = key b then a :: kept else a :: b :: kept

/-- The first entry is kept, and the next one that was kept may have to go. -/
theorem dedup_by_key_cons (a : α) (rest : List α) :
    ∃ kept, dedup_by_key key (a :: rest) = a :: kept ∧
      ((dedup_by_key key rest = kept ∧ ∀ b, kept.head? = some b → key a ≠ key b) ∨
        ∃ b, dedup_by_key key rest = b :: kept ∧ key a = key b) := by
  cases hrest : dedup_by_key key rest with
  | nil => exact ⟨[], by simp [dedup_by_key, hrest], .inl ⟨rfl, by simp⟩⟩
  | cons b kept =>
    by_cases hkey : key a = key b
    · exact ⟨kept, by simp [dedup_by_key, hrest, hkey], .inr ⟨b, rfl, hkey⟩⟩
    · refine ⟨b :: kept, by simp [dedup_by_key, hrest, hkey], .inl ⟨rfl, ?_⟩⟩
      rintro c hc
      obtain rfl := Option.some.inj hc
      exact hkey

variable {key}

theorem dedup_by_key_sublist (xs : List α) : (dedup_by_key key xs).Sublist xs := by
  induction xs with
  | nil => exact .slnil
  | cons a rest ih =>
    obtain ⟨kept, hcons, ⟨hsame, -⟩ | ⟨b, hdropped, -⟩⟩ := dedup_by_key_cons key a rest
    · rw [hcons]
      exact (hsame ▸ ih).cons_cons a
    · rw [hcons]
      have hsub : (b :: kept).Sublist rest := hdropped ▸ ih
      exact ((List.sublist_cons_self b kept).trans hsub).cons_cons a

/-- Of entries in order every key is kept once. -/
theorem dedup_by_key_lt {xs : List α} (hsorted : xs.Pairwise fun a b => key a ≤ key b) :
    (dedup_by_key key xs).Pairwise fun a b => key a < key b := by
  induction xs with
  | nil => exact .nil
  | cons a rest ih =>
    obtain ⟨hle, hrest⟩ := List.pairwise_cons.mp hsorted
    have hkept := ih hrest
    have hleKept : ∀ b ∈ dedup_by_key key rest, key a ≤ key b := fun b hb => hle b ((dedup_by_key_sublist rest).subset hb)
    obtain ⟨kept, hcons, ⟨hsame, hne⟩ | ⟨b, hdropped, hkey⟩⟩ := dedup_by_key_cons key a rest
    · rw [hcons]
      rw [hsame] at hkept hleKept
      refine List.pairwise_cons.mpr ⟨fun c hc => ?_, hkept⟩
      cases kept with
      | nil => cases hc
      | cons b kept =>
        have hlt : key a < key b := lt_of_le_of_ne (hleKept b List.mem_cons_self) (hne b rfl)
        rcases List.mem_cons.mp hc with rfl | hc
        · exact hlt
        · exact hlt.trans (List.rel_of_pairwise_cons hkept hc)
    · rw [hcons]
      rw [hdropped] at hkept
      obtain ⟨hlt, hkept⟩ := List.pairwise_cons.mp hkept
      exact List.pairwise_cons.mpr ⟨fun c hc => hkey ▸ hlt c hc, hkept⟩

/-- An entry that was dropped had the key of one before it that was kept. -/
theorem exists_dedup_by_key {R : α → α → Prop} {xs : List α} (hpairwise : xs.Pairwise R) {a : α} (ha : a ∈ xs) :
    ∃ b ∈ dedup_by_key key xs, key b = key a ∧ (b = a ∨ R b a) := by
  induction xs with
  | nil => cases ha
  | cons x rest ih =>
    obtain ⟨hx, hrest⟩ := List.pairwise_cons.mp hpairwise
    obtain ⟨kept, hcons, hkept⟩ := dedup_by_key_cons key x rest
    rw [hcons]
    rcases List.mem_cons.mp ha with rfl | ha
    · exact ⟨a, List.mem_cons_self, rfl, .inl rfl⟩
    · obtain ⟨b, hb, hkey, hbefore⟩ := ih hrest ha
      rcases hkept with ⟨hsame, -⟩ | ⟨c, hdropped, hxc⟩
      · exact ⟨b, List.mem_cons_of_mem _ (hsame ▸ hb), hkey, hbefore⟩
      · rw [hdropped] at hb
        rcases List.mem_cons.mp hb with rfl | hb
        · exact ⟨x, List.mem_cons_self, hxc.trans hkey, .inr (hx a ha)⟩
        · exact ⟨b, List.mem_cons_of_mem _ hb, hkey, hbefore⟩

end Deduplication

section Runs

variable (same : α → α → Bool)

/-- Cuts a vector into runs of entries that are the same as the first of their
    run. -/
def runs : List α → List (List α)
  | [] => []
  | head :: rest => (head :: rest.takeWhile (same · head)) :: runs (rest.dropWhile (same · head))
termination_by xs => xs.length
decreasing_by
  have := (List.dropWhile_sublist (same · head) (l := rest)).length_le
  simp only [List.length_cons]
  omega

@[simp] theorem flatten_runs (xs : List α) : (runs same xs).flatten = xs := by
  induction xs using runs.induct same with
  | case1 => simp [runs]
  | case2 head rest ih => rw [runs, List.flatten_cons, ih, List.cons_append, List.takeWhile_append_dropWhile]

variable {same}

/-- A run consists of entries of one level. -/
theorem level_of_mem_runs {level : α → κ} (hsame : ∀ a b, same a b = true ↔ level a = level b) {xs run : List α}
    (hrun : run ∈ runs same xs) : ∃ head, head ∈ run ∧ ∀ a ∈ run, level a = level head := by
  induction xs using runs.induct same with
  | case1 => simp [runs] at hrun
  | case2 head rest ih =>
    rw [runs] at hrun
    rcases List.mem_cons.mp hrun with rfl | hrun
    · refine ⟨head, List.mem_cons_self, fun a ha => ?_⟩
      rcases List.mem_cons.mp ha with rfl | ha
      · rfl
      · have hlevel := List.mem_takeWhile_imp ha
        exact (hsame a head).mp hlevel
    · exact ih hrun

/-- Of entries that descend in level, a run has all that are of its level. -/
theorem runs_descend [LinearOrder κ] {level : α → κ} (hsame : ∀ a b, same a b = true ↔ level a = level b) {xs : List α}
    (hsorted : xs.Pairwise fun a b => level b ≤ level a) :
    (runs same xs).Pairwise fun s t => ∀ a ∈ s, ∀ b ∈ t, level b < level a := by
  induction xs using runs.induct same with
  | case1 =>
    rw [runs]
    exact .nil
  | case2 head rest ih =>
    rw [runs]
    obtain ⟨hhead, hrest⟩ := List.pairwise_cons.mp hsorted
    have hdrop : (rest.dropWhile (same · head)).Pairwise fun a b => level b ≤ level a :=
      hrest.sublist (List.dropWhile_sublist _)
    refine List.pairwise_cons.mpr ⟨fun t ht a ha b hb => ?_, ih hdrop⟩
    have hlevel : level a = level head := by
      rcases List.mem_cons.mp ha with rfl | ha
      · rfl
      · have hlevel := List.mem_takeWhile_imp ha
        exact (hsame a head).mp hlevel
    have hafter : b ∈ rest.dropWhile (same · head) := by
      have hmem := List.mem_flatten.mpr ⟨t, ht, hb⟩
      rwa [flatten_runs] at hmem
    have hbelow : ∀ c ∈ rest.dropWhile (same · head), level c ≤ level head :=
      fun c hc => hhead c ((List.dropWhile_sublist (same · head)).subset hc)
    rw [hlevel]
    -- The first entry after the run is of a lower level, and no later one is of a higher.
    cases hdropped : rest.dropWhile (same · head) with
    | nil => cases hdropped ▸ hafter
    | cons c tail =>
      have hne : level c ≠ level head := by
        have hnot := List.head_dropWhile_not (same · head) (l := rest) (by simp [hdropped])
        simp only [hdropped, List.head_cons] at hnot
        intro hlevel
        rw [(hsame c head).mpr hlevel] at hnot
        cases hnot
      rw [hdropped] at hafter hdrop hbelow
      have hlt : level c < level head := lt_of_le_of_ne (hbelow c List.mem_cons_self) hne
      rcases List.mem_cons.mp hafter with rfl | hb
      · exact hlt
      · exact (List.rel_of_pairwise_cons hdrop hb).trans_lt hlt

end Runs

end refract.machine

namespace refract.machine

variable {α β : Type}

theorem filterMap_getElem? (xs : List α) : (List.range xs.length).filterMap (fun i => xs[i]?) = xs := by
  induction xs with
  | nil => rfl
  | cons x xs ih =>
    rw [List.length_cons, List.range_succ_eq_map, List.filterMap_cons, List.filterMap_map]
    exact congrArg (x :: ·) ih

/-- Whoever starts in turn starts once in every round. -/
theorem heads_of_rotations (xs : List α) (start : Nat) :
    ((List.range xs.length).map fun turn => xs.rotate (start + turn)).filterMap List.head? = xs.rotate start := by
  have hheads : ((List.range xs.length).map fun turn => xs.rotate (start + turn)).filterMap List.head? =
      (List.range xs.length).filterMap fun turn => (xs.rotate start)[turn]? := by
    rw [List.filterMap_map]
    refine List.filterMap_congr fun turn hturn => ?_
    have hbound : turn < (xs.rotate start).length := by simpa using hturn
    rw [Function.comp_apply, ← List.rotate_rotate, List.head?_rotate hbound]
  rw [hheads, ← List.length_rotate xs start]
  exact filterMap_getElem? (xs.rotate start)

/-- What is so of the entries of a list by their places is so of those of a part of it. -/
theorem map_of_map_append {f : α → β} {g : Nat → β} (before window after : List α)
    (h : (before ++ window ++ after).map f = (List.range (before ++ window ++ after).length).map g) :
    window.map f = (List.range window.length).map fun turn => g (before.length + turn) := by
  rw [List.length_append, List.length_append, List.range_add, List.range_add, List.map_append, List.map_append, List.map_append,
    List.map_append] at h
  obtain ⟨hfront, -⟩ := List.append_inj h (by simp)
  obtain ⟨-, hwindow⟩ := List.append_inj hfront (by simp)
  rw [hwindow, List.map_map]
  rfl

end refract.machine
