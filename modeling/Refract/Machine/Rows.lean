import Mathlib.Algebra.BigOperators.Group.List.Basic
import Mathlib.Algebra.Group.Basic
import Mathlib.Algebra.Group.Int.Defs
import Mathlib.Data.List.Dedup
import Refract.Machine.Vec

namespace refract.machine

section Pages

variable {α : Type} {limit offset depth : Nat} {x : α} {rows : List α} {tables later : List (List α)}

/-- `LIMIT` and `OFFSET`. -/
def page (limit offset : Nat) (rows : List α) : List α := (rows.drop offset).take limit

/-- The pages of tables that are read one after another, each of them from where the last page
    ended. -/
def pages (limit : Nat) : Nat → List (List α) → List (List α)
  | _, [] => []
  | offset, rows :: later => page limit offset rows :: pages limit (offset + limit) later

/-- A row that so many others stand before. -/
def Stands (x : α) (depth : Nat) (rows : List α) : Prop := ∃ front back, rows = front ++ x :: back ∧ front.length = depth

/-- A row that comes no nearer to the front from one table to the next. -/
def Sinks (x : α) : Nat → List (List α) → Prop
  | _, [] => True
  | depth, rows :: later => ∃ deeper, depth ≤ deeper ∧ Stands x deeper rows ∧ Sinks x deeper later

theorem Sinks.weaken {higher : Nat} (hsinks : Sinks x depth tables) (hle : higher ≤ depth) : Sinks x higher tables := by
  cases tables with
  | nil => trivial
  | cons rows later =>
    obtain ⟨deeper, hdeeper, hrest⟩ := hsinks
    exact ⟨deeper, hle.trans hdeeper, hrest⟩

/-- A row that a page does not hold, and that does not stand before it, stands behind it. -/
theorem Stands.mem_page_or (hstands : Stands x depth rows) (hoffset : offset ≤ depth) :
    x ∈ page limit offset rows ∨ offset + limit ≤ depth ∧ (page limit offset rows).length = limit := by
  obtain ⟨front, back, rfl, rfl⟩ := hstands
  have hdrop : (front ++ x :: back).drop offset = front.drop offset ++ x :: back := List.drop_append_of_le_length hoffset
  rw [page, hdrop]
  have hlength : (front.drop offset).length = front.length - offset := List.length_drop
  by_cases hnear : front.length - offset < limit
  · left
    obtain ⟨more, hmore⟩ : ∃ more, limit = (front.drop offset).length + (more + 1) := ⟨limit - (front.length - offset) - 1, by omega⟩
    rw [hmore, List.take_length_add_append, List.take_succ_cons]
    exact List.mem_append_right _ List.mem_cons_self
  · right
    rw [List.take_append_of_le_length (by omega), List.length_take]
    omega

/-- Who reads page after page up to one that is not full has seen every row that has not come
    nearer to the front meanwhile. -/
theorem Sinks.mem_pages (hsinks : Sinks x offset tables) (hshort : ∃ last ∈ (pages limit offset tables).getLast?, last.length < limit) :
    ∃ read ∈ pages limit offset tables, x ∈ read := by
  induction tables generalizing offset with
  | nil =>
    obtain ⟨last, hlast, -⟩ := hshort
    cases hlast
  | cons rows later ih =>
    obtain ⟨deeper, hdeeper, hstands, hrest⟩ := hsinks
    have hread : x ∈ page limit offset rows ∨ offset + limit ≤ deeper ∧ (page limit offset rows).length = limit := hstands.mem_page_or hdeeper
    rcases hread with hmem | ⟨hbehind, hfull⟩
    · exact ⟨_, List.mem_cons_self, hmem⟩
    · obtain ⟨last, hlast, hlt⟩ := hshort
      have hlater : ∃ last ∈ (pages limit (offset + limit) later).getLast?, last.length < limit := by
        cases later with
        | nil =>
          obtain rfl : page limit offset rows = last := by simpa [pages] using hlast
          omega
        | cons next later => exact ⟨last, by simpa [pages] using hlast, hlt⟩
      obtain ⟨read, hread, hmem⟩ := ih (hrest.weaken hbehind) hlater
      exact ⟨read, List.mem_cons_of_mem _ hread, hmem⟩

end Pages

section Groups

variable {α β κ M : Type} [AddCommMonoid M] {rows rest : List α} {row : α} {f : α → M}

/-- `SUM` -/
def total (f : α → M) (rows : List α) : M := rows.foldr (fun row sum => f row + sum) 0

@[simp] theorem total_nil : total f [] = 0 := rfl

@[simp] theorem total_cons : total f (row :: rows) = f row + total f rows := rfl

@[simp] theorem total_append : total f (rows ++ rest) = total f rows + total f rest := by
  induction rows with
  | nil => rw [List.nil_append, total_nil, zero_add]
  | cons row rows ih => rw [List.cons_append, total_cons, total_cons, ih, add_assoc]

/-- One row and those before and after it. -/
theorem total_at {i : Nat} (hrow : rows[i]? = some row) : total f rows = total f (rows.take i) + f row + total f (rows.drop (i + 1)) := by
  obtain ⟨hi, rfl⟩ := List.getElem?_eq_some_iff.mp hrow
  conv_lhs => rw [← List.take_append_drop i rows, List.drop_eq_getElem_cons hi, total_append, total_cons, ← add_assoc]

theorem total_perm (hperm : rows.Perm rest) : total f rows = total f rest := by
  induction hperm with
  | nil => rfl
  | cons row _ ih => rw [total_cons, total_cons, ih]
  | swap first second rows => rw [total_cons, total_cons, total_cons, total_cons, add_left_comm]
  | trans _ _ hfirst hsecond => exact hfirst.trans hsecond

theorem total_map (g : β → α) (entries : List β) : total f (entries.map g) = total (fun entry => f (g entry)) entries := by
  induction entries with
  | nil => rfl
  | cons entry entries ih => rw [List.map_cons, total_cons, total_cons, ih]

theorem total_add (g : α → M) : total (fun row => f row + g row) rows = total f rows + total g rows := by
  induction rows with
  | nil => rw [total_nil, total_nil, total_nil, add_zero]
  | cons row rows ih => rw [total_cons, total_cons, total_cons, ih, add_add_add_comm]

theorem total_neg {G : Type} [AddCommGroup G] (f : α → G) (rows : List α) : total (fun row => -f row) rows = -total f rows := by
  induction rows with
  | nil => exact neg_zero.symm
  | cons row rows ih => rw [total_cons, total_cons, ih, neg_add]

theorem total_sub {G : Type} [AddCommGroup G] (f g : α → G) (rows : List α) :
    total (fun row => f row - g row) rows = total f rows - total g rows := by
  simp only [sub_eq_add_neg]
  rw [total_add, total_neg]

theorem total_filter_add (p : α → Bool) : total f (rows.filter p) + total f (rows.filter fun row => !p row) = total f rows := by
  induction rows with
  | nil => rw [List.filter_nil, List.filter_nil, total_nil, add_zero]
  | cons row rows ih =>
    rw [List.filter_cons, List.filter_cons, total_cons, ← ih]
    cases p row with
    | true => exact add_assoc _ _ _
    | false => exact add_left_comm _ _ _

theorem total_zero (hzero : ∀ row ∈ rows, f row = 0) : total f rows = 0 := by
  induction rows with
  | nil => rfl
  | cons row rows ih =>
    obtain ⟨hrow, hrows⟩ := List.forall_mem_cons.mp hzero
    rw [total_cons, hrow, ih hrows, add_zero]

variable [DecidableEq κ] (key : α → κ)

/-- The keys that the rows have, each of them once. -/
def keys_of (rows : List α) : List κ := (rows.map key).dedup

/-- `GROUP BY` -/
def group_by (rows : List α) : List (κ × List α) := (keys_of key rows).map fun k => (k, rows.filter (key · = k))

theorem keys_of_nodup (rows : List α) : (keys_of key rows).Nodup := List.nodup_dedup _

theorem mem_keys_of {k : κ} : k ∈ keys_of key rows ↔ ∃ row ∈ rows, key row = k := by
  rw [keys_of, List.mem_dedup, List.mem_map]

theorem mem_group_by {group : κ × List α} :
    group ∈ group_by key rows ↔ (∃ row ∈ rows, key row = group.1) ∧ group.2 = rows.filter (key · = group.1) := by
  rw [group_by, List.mem_map]
  constructor
  · rintro ⟨k, hk, rfl⟩
    exact ⟨(mem_keys_of key).mp hk, rfl⟩
  · rintro ⟨hkey, hrows⟩
    exact ⟨group.1, (mem_keys_of key).mpr hkey, Prod.ext rfl hrows.symm⟩

/-- One row counts for one key. -/
theorem total_of_key {keys : List κ} (hnodup : keys.Nodup) {k : κ} (hmem : k ∈ keys) (amount : M) :
    total (fun other => if k = other then amount else 0) keys = amount := by
  induction keys with
  | nil => cases hmem
  | cons first keys ih =>
    obtain ⟨hfirst, hnodup⟩ := List.nodup_cons.mp hnodup
    rw [total_cons]
    by_cases hsame : k = first
    · subst hsame
      have hrest : total (fun other => if k = other then amount else 0) keys = 0 := by
        refine total_zero fun other hother => if_neg ?_
        rintro rfl
        exact hfirst hother
      rw [if_pos rfl, hrest, add_zero]
    · rw [if_neg hsame, zero_add]
      exact ih hnodup ((List.mem_cons.mp hmem).resolve_left hsame)

/-- What is added up key by key is what is added up at once. -/
theorem total_by_key (f : α → M) {keys : List κ} (hnodup : keys.Nodup) (hkeys : ∀ row ∈ rows, key row ∈ keys) :
    total (fun k => total f (rows.filter (key · = k))) keys = total f rows := by
  induction rows with
  | nil => exact total_zero fun k _ => rfl
  | cons row rows ih =>
    obtain ⟨hrow, hrows⟩ := List.forall_mem_cons.mp hkeys
    have hsplit : ∀ k, total f ((row :: rows).filter (key · = k)) =
        (if key row = k then f row else 0) + total f (rows.filter (key · = k)) := by
      intro k
      by_cases hk : key row = k
      · rw [List.filter_cons, if_pos (decide_eq_true hk), total_cons, if_pos hk]
      · rw [List.filter_cons, if_neg (by simpa using hk), if_neg hk, zero_add]
    simp only [hsplit]
    rw [total_add, total_of_key hnodup hrow, ih hrows, total_cons]

/-- The groups of some rows add up to the rows. -/
theorem total_group_by (f : α → M) (rows : List α) : total (fun group => total f group.2) (group_by key rows) = total f rows := by
  rw [group_by, total_map]
  exact total_by_key key f (keys_of_nodup key rows) fun row hrow => (mem_keys_of key).mpr ⟨row, hrow, rfl⟩

end Groups

section Sorted

variable {α κ : Type} [LinearOrder κ] {key : α → κ}

/-- What is selected may be sorted before or after. -/
theorem filter_sorted (p : α → Bool) (rows : List α) : (sort_by_key key rows).filter p = sort_by_key key (rows.filter p) := by
  refine eq_of_sorted_of_filter key ((sort_by_key_sorted key rows).filter p) (sort_by_key_sorted key _) fun k => ?_
  rw [filter_sort_by_key, List.filter_filter, List.filter_filter]
  have hswap : (sort_by_key key rows).filter (fun row => decide (key row = k) && p row) =
      ((sort_by_key key rows).filter (key · = k)).filter p := by
    rw [List.filter_filter]
    exact List.filter_congr fun row _ => Bool.and_comm _ _
  rw [hswap, filter_sort_by_key, List.filter_filter]
  exact List.filter_congr fun row _ => Bool.and_comm _ _

end Sorted

section Ranking

variable {α : Type} (count : α → Nat) {entries : List α}

/-- `ORDER BY … DESC` -/
def ranked (entries : List α) : List α := entries.mergeSort fun a b => count b ≤ count a

theorem ranked_perm (entries : List α) : (ranked count entries).Perm entries := List.mergeSort_perm entries _

theorem ranked_sorted (entries : List α) : (ranked count entries).Pairwise fun a b => count b ≤ count a := by
  have hsorted : (ranked count entries).Pairwise fun a b => decide (count b ≤ count a) = true :=
    List.pairwise_mergeSort (by simpa using fun a b c hab hbc => hbc.trans hab) (by simpa using fun a b => le_total _ _) entries
  simpa only [decide_eq_true_eq] using hsorted

/-- What a ranking of limited length leaves out counts for no more than what it shows. -/
theorem le_of_left_out {limit : Nat} {shown left_out : α} (hshown : shown ∈ (ranked count entries).take limit)
    (hleft_out : left_out ∈ (ranked count entries).drop limit) : count left_out ≤ count shown := by
  have hsorted := ranked_sorted count entries
  rw [← List.take_append_drop limit (ranked count entries), List.pairwise_append] at hsorted
  exact hsorted.2.2 shown hshown left_out hleft_out

end Ranking

section Ledger

variable {ι α : Type} [AddMonoid α] (delta after : ι → α)

/-- Entries that each record the balance before them plus their own delta. -/
def Running (balance : α) : List ι → Prop
  | [] => True
  | entry :: entries => after entry = balance + delta entry ∧ Running (after entry) entries

variable {delta after} {balance : α} {entries : List ι} {entry : ι}

/-- A running ledger goes on with the balance that its deltas add up to. -/
theorem running_concat :
    Running delta after balance (entries ++ [entry]) ↔
      Running delta after balance entries ∧ after entry = balance + (entries.map delta).sum + delta entry := by
  induction entries generalizing balance with
  | nil => simp [Running]
  | cons first entries ih =>
    rw [List.cons_append, Running, Running, ih, and_assoc]
    refine and_congr_right fun hfirst => and_congr_right fun _ => ?_
    rw [hfirst, List.map_cons, List.sum_cons, add_assoc balance]

end Ledger

end refract.machine
