import Refract.Core.Error
import Refract.Json.Text
import Refract.Machine.Transaction
import Refract.Store.Channels
import Refract.Store.Key
import Refract.Store.Wallet

open refract.json refract.machine

namespace refract.store

/-- A row of the table of keys. -/
structure StoredApiKey extends ApiKey where
  key_hash : String
  key_prefix : String
  note : Option String := none

/-- A key in a backup. The text of a key is not stored, and is not in it. -/
structure ExportedApiKey where
  name : String
  key_hash : String
  key_prefix : String
  enabled : Bool
  allowed_models : List String := []
  allowed_tags : List String := []
  quota : Int := 0
  used_quota : Int := 0
  rpm_limit : Int := 0
  tpm_limit : Int := 0
  budget : ℚ := 0
  used_budget : ℚ := 0
  note : Option String := none
  expires_at : Option Int := none
  user_id : Option Int := none

structure NewApiKey where
  name : String
  user_id : Option Int := none
  allowed_models : List String := []
  allowed_tags : List String := []
  quota : Int := 0
  rpm_limit : Int := 0
  tpm_limit : Int := 0
  budget : ℚ := 0
  note : Option String := none
  expires_at : Option Int := none

def StoredApiKey.exported (self : StoredApiKey) : ExportedApiKey := { self with }

/-- The table of keys, in the order of their numbers. -/
structure KeyRepo where
  rows : List StoredApiKey := []
  next_id : Int := 1

/-- The row that a key of a backup becomes. -/
def ExportedApiKey.row (key : ExportedApiKey) (id : Int) : StoredApiKey :=
  { key with
    id
    owner_id := DEFAULT_OWNER_ID
    name := trim key.name
    rpm_limit := max key.rpm_limit 0
    tpm_limit := max key.tpm_limit 0
    budget := max key.budget 0
    used_budget := max key.used_budget 0 }

namespace KeyRepo

variable (self : KeyRepo)

def insert (row : Int → StoredApiKey) : KeyRepo where
  rows := self.rows ++ [row self.next_id]
  next_id := self.next_id + 1

def has_hash (key_hash : String) : Bool := self.rows.any (·.key_hash = key_hash)

/-- A new key. `hash` is what is stored of the text of a key. -/
def create (hash : String → String) (spec : NewApiKey) (plaintext : String) : Except StoreError KeyRepo :=
  if trim spec.name = "" then .error (.invalid "api key name must not be empty")
  else if self.has_hash (hash plaintext) then .error (.sql .unique_violation)
  else
    .ok <| self.insert fun id =>
      { id
        owner_id := DEFAULT_OWNER_ID
        user_id := spec.user_id
        name := trim spec.name
        key_hash := hash plaintext
        key_prefix := String.ofList (plaintext.toList.take 12)
        enabled := true
        allowed_models := spec.allowed_models
        allowed_tags := spec.allowed_tags
        quota := spec.quota
        used_quota := 0
        rpm_limit := max spec.rpm_limit 0
        tpm_limit := max spec.tpm_limit 0
        budget := max spec.budget 0
        used_budget := 0
        note := spec.note
        expires_at := spec.expires_at }

/-- The rows that an administrator means, or a user among the keys of its own. -/
def meant (user_id : Option Int) (id : Int) (row : StoredApiKey) : Bool :=
  row.id = id && row.owner_id = DEFAULT_OWNER_ID && user_id.all (row.user_id = some ·)

def set_rows (meant : StoredApiKey → Bool) (change : StoredApiKey → StoredApiKey) : KeyRepo :=
  { self with rows := self.rows.map fun row => if meant row then change row else row }

def ensure_affected (meant : StoredApiKey → Bool) (id : Int) (after : KeyRepo) : Except StoreError KeyRepo :=
  if self.rows.any meant then .ok after else .error (.not_found "api key" id)

def update (user_id : Option Int) (id : Int) (spec : NewApiKey) : Except StoreError KeyRepo :=
  if trim spec.name = "" then .error (.invalid "api key name must not be empty")
  else
    self.ensure_affected (meant user_id id) id <| self.set_rows (meant user_id id) fun row =>
      { row with
        name := trim spec.name
        allowed_models := spec.allowed_models
        allowed_tags := spec.allowed_tags
        quota := max spec.quota 0
        rpm_limit := max spec.rpm_limit 0
        tpm_limit := max spec.tpm_limit 0
        budget := max spec.budget 0
        note := spec.note
        expires_at := spec.expires_at }

def reset_usage (user_id : Option Int) (id : Int) : Except StoreError KeyRepo :=
  self.ensure_affected (meant user_id id) id
    (self.set_rows (meant user_id id) ({ · with used_quota := 0, used_budget := 0 }))

def set_enabled (user_id : Option Int) (id : Int) (enabled : Bool) : Except StoreError KeyRepo :=
  self.ensure_affected (meant user_id id) id (self.set_rows (meant user_id id) ({ · with enabled }))

def delete (user_id : Option Int) (id : Int) : Except StoreError KeyRepo :=
  self.ensure_affected (meant user_id id) id { self with rows := self.rows.filter (!meant user_id id ·) }

def record_usage (id : Int) (tokens : Int) (cost : ℚ) : KeyRepo :=
  self.set_rows (·.id = id) fun row =>
    { row with used_quota := row.used_quota + tokens, used_budget := row.used_budget + max cost 0 }

def owned (row : StoredApiKey) : Bool := row.owner_id = DEFAULT_OWNER_ID

def export_all : List ExportedApiKey := (self.rows.filter owned).map (·.exported)

/-- A key of a backup, unless a key with its hash is there. -/
def insert_restored (key : ExportedApiKey) : Except StoreError (Bool × KeyRepo) :=
  if trim key.name = "" || trim key.key_hash = "" then .error (.invalid "restored api key needs both a name and a key_hash")
  else if self.has_hash key.key_hash then .ok (false, self)
  else .ok (true, self.insert key.row)

/-- The keys of a backup one after another, with the names of those that are
    skipped. -/
def insert_all (self : KeyRepo) : List ExportedApiKey → Except StoreError ((Nat × List String) × KeyRepo)
  | [] => .ok ((0, []), self)
  | key :: keys => do
    let (inserted, after) ← self.insert_restored key
    let ((imported, skipped), after) ← after.insert_all keys
    return (if inserted then (imported + 1, skipped) else (imported, key.name :: skipped), after)

/-- The keys of a backup instead of those that are there. -/
def replace_all (keys : List ExportedApiKey) : Except StoreError ((Nat × List String) × KeyRepo) :=
  insert_all { self with rows := self.rows.filter (!owned ·) } keys

/-- The keys of a backup are added. Only a key whose hash is there already is not. -/
structure Adds (repo : KeyRepo) (keys : List ExportedApiKey) (after : KeyRepo) : Prop where
  kept : repo.rows <+: after.rows
  added : ∀ row ∈ after.rows, row ∈ repo.rows ∨
    ∃ key ∈ keys, trim key.name ≠ "" ∧ trim key.key_hash ≠ "" ∧ row = key.row row.id
  present : ∀ key ∈ keys, after.has_hash key.key_hash = true
  unique : (repo.rows.map (·.key_hash)).Nodup → (after.rows.map (·.key_hash)).Nodup

variable {repo mid after : KeyRepo} {key : ExportedApiKey} {keys rest : List ExportedApiKey}

theorem has_hash_of_prefix {key_hash : String} (hkept : repo.rows <+: after.rows) (hhash : repo.has_hash key_hash = true) :
    after.has_hash key_hash = true := by
  obtain ⟨row, hrow, hsame⟩ := List.any_eq_true.mp hhash
  exact List.any_eq_true.mpr ⟨row, hkept.subset hrow, hsame⟩

theorem Adds.nil : Adds repo [] repo := ⟨List.prefix_rfl, fun _ hrow => .inl hrow, List.forall_mem_nil _, id⟩

theorem Adds.append (hfirst : Adds repo keys mid) (hrest : Adds mid rest after) : Adds repo (keys ++ rest) after where
  kept := hfirst.kept.trans hrest.kept
  added row hrow := by
    rcases hrest.added row hrow with hmid | ⟨key, hkey, hsame⟩
    · rcases hfirst.added row hmid with hbefore | ⟨key, hkey, hsame⟩
      · exact .inl hbefore
      · exact .inr ⟨key, List.mem_append_left _ hkey, hsame⟩
    · exact .inr ⟨key, List.mem_append_right _ hkey, hsame⟩
  present key hkey := by
    rcases List.mem_append.mp hkey with hkey | hkey
    · exact has_hash_of_prefix hrest.kept (hfirst.present key hkey)
    · exact hrest.present key hkey
  unique hunique := hrest.unique (hfirst.unique hunique)

theorem has_hash_eq_false {key_hash : String} : repo.has_hash key_hash = false ↔ key_hash ∉ repo.rows.map (·.key_hash) := by
  rw [← Bool.not_eq_true, has_hash, List.any_eq_true, List.mem_map]
  simp only [decide_eq_true_eq]

/-- A row with a hash of its own keeps the hashes apart. -/
theorem nodup_insert {row : Int → StoredApiKey} (hunique : (repo.rows.map (·.key_hash)).Nodup)
    (hfresh : repo.has_hash (row repo.next_id).key_hash = false) : ((repo.insert row).rows.map (·.key_hash)).Nodup := by
  have hhashes : (repo.insert row).rows.map (·.key_hash) = repo.rows.map (·.key_hash) ++ [(row repo.next_id).key_hash] :=
    List.map_append
  rw [hhashes, List.nodup_append_comm]
  exact List.nodup_cons.mpr ⟨has_hash_eq_false.mp hfresh, hunique⟩

/-- What the restoring of one key can do. -/
theorem insert_restored_ok {inserted : Bool} (hinsert : repo.insert_restored key = .ok (inserted, after)) :
    (inserted = false ∧ repo.has_hash key.key_hash = true ∧ after = repo) ∨
      (inserted = true ∧ trim key.name ≠ "" ∧ trim key.key_hash ≠ "" ∧ repo.has_hash key.key_hash = false ∧
        after = repo.insert key.row) := by
  unfold insert_restored at hinsert
  split at hinsert
  · cases hinsert
  next hvisible =>
    simp only [Bool.or_eq_true, decide_eq_true_eq, not_or] at hvisible
    split at hinsert
    next hhash =>
      obtain ⟨rfl, rfl⟩ := Prod.mk.inj (Except.ok.inj hinsert)
      exact .inl ⟨rfl, hhash, rfl⟩
    next hhash =>
      obtain ⟨rfl, rfl⟩ := Prod.mk.inj (Except.ok.inj hinsert)
      exact .inr ⟨rfl, hvisible.1, hvisible.2, by simpa using hhash, rfl⟩

theorem insert_restored_adds {inserted : Bool} (hinsert : repo.insert_restored key = .ok (inserted, after)) : Adds repo [key] after := by
  rcases insert_restored_ok hinsert with ⟨-, hhash, rfl⟩ | ⟨-, hname, hvisible, hfresh, rfl⟩
  · exact ⟨List.prefix_rfl, fun _ hrow => .inl hrow, List.forall_mem_singleton.mpr hhash, id⟩
  · refine ⟨List.prefix_append _ _, fun row hrow => ?_, List.forall_mem_singleton.mpr (by simp [has_hash, insert, ExportedApiKey.row]),
      fun hunique => nodup_insert hunique hfresh⟩
    rcases List.mem_append.mp hrow with hrow | hrow
    · exact .inl hrow
    · obtain rfl := List.mem_singleton.mp hrow
      exact .inr ⟨key, .head _, hname, hvisible, rfl⟩

theorem insert_all_adds {report : Nat × List String} (hinsert : repo.insert_all keys = .ok (report, after)) : Adds repo keys after := by
  induction keys generalizing repo report with
  | nil =>
    obtain ⟨-, rfl⟩ := Prod.mk.inj (Except.ok.inj hinsert)
    exact .nil
  | cons key keys ih =>
    obtain ⟨⟨inserted, mid⟩, hfirst, hinsert⟩ := bind_eq_ok.mp hinsert
    obtain ⟨⟨⟨imported, skipped⟩, last⟩, hrest, hinsert⟩ := bind_eq_ok.mp hinsert
    obtain ⟨-, rfl⟩ := Prod.mk.inj (Except.ok.inj hinsert)
    exact (insert_restored_adds hfirst).append (ih hrest)

/-- Keys whose hashes are new and different are all restored. -/
theorem insert_all_fresh (hvisible : ∀ key ∈ keys, trim key.name ≠ "" ∧ trim key.key_hash ≠ "")
    (hunique : (keys.map (·.key_hash)).Nodup) (hfresh : ∀ key ∈ keys, repo.has_hash key.key_hash = false) :
    ∃ report after rows, repo.insert_all keys = .ok (report, after) ∧ after.rows = repo.rows ++ rows ∧
      List.Forall₂ (fun key row => row = key.row row.id) keys rows := by
  induction keys generalizing repo with
  | nil => exact ⟨(0, []), repo, [], rfl, (List.append_nil _).symm, .nil⟩
  | cons key keys ih =>
    obtain ⟨hfirst, hvisible⟩ := List.forall_mem_cons.mp hvisible
    obtain ⟨hnew, hfresh⟩ := List.forall_mem_cons.mp hfresh
    obtain ⟨hother, hunique⟩ := List.nodup_cons.mp hunique
    have hinsert : repo.insert_restored key = .ok (true, repo.insert key.row) := by
      simp [insert_restored, hfirst.1, hfirst.2, hnew]
    have hrest : ∀ other ∈ keys, (repo.insert key.row).has_hash other.key_hash = false := by
      intro other hmem
      have hne : key.key_hash ≠ other.key_hash := by
        intro hsame
        exact hother (List.mem_map.mpr ⟨other, hmem, hsame.symm⟩)
      have hbefore := hfresh other hmem
      rw [has_hash, List.any_eq_false] at hbefore ⊢
      intro row hrow
      rcases List.mem_append.mp hrow with hrow | hrow
      · exact hbefore row hrow
      · obtain rfl := List.mem_singleton.mp hrow
        rwa [decide_eq_true_eq]
    obtain ⟨⟨imported, skipped⟩, after, rows, hall, hrows, hrestored⟩ := ih hvisible hunique hrest
    refine ⟨(imported + 1, skipped), after, key.row repo.next_id :: rows, ?_, ?_, .cons rfl hrestored⟩
    · refine bind_eq_ok.mpr ⟨_, hinsert, ?_⟩
      exact bind_eq_ok.mpr ⟨_, hall, rfl⟩
    · rw [hrows]
      exact List.append_assoc _ [_] rows

end KeyRepo

/-- What every row meets that is written. -/
structure StoredApiKey.Fit (row : StoredApiKey) : Prop where
  owner : row.owner_id = DEFAULT_OWNER_ID
  trimmed : trim row.name = row.name
  named : trim row.name ≠ ""
  hashed : trim row.key_hash ≠ ""
  rpm_limit : 0 ≤ row.rpm_limit
  tpm_limit : 0 ≤ row.tpm_limit
  budget : 0 ≤ row.budget
  used_budget : 0 ≤ row.used_budget

structure KeyRepo.Fit (repo : KeyRepo) : Prop where
  rows : ∀ row ∈ repo.rows, row.Fit
  unique : (repo.rows.map (·.key_hash)).Nodup

/-- What is done to keys besides restoring them. -/
inductive KeyChange where
  | create (spec : NewApiKey) (plaintext : String)
  | update (user_id : Option Int) (id : Int) (spec : NewApiKey)
  | reset_usage (user_id : Option Int) (id : Int)
  | set_enabled (user_id : Option Int) (id : Int) (enabled : Bool)
  | delete (user_id : Option Int) (id : Int)
  | record_usage (id : Int) (tokens : Int) (cost : ℚ)

def KeyChange.commit (hash : String → String) (repo : KeyRepo) : KeyChange → Except StoreError KeyRepo
  | .create spec plaintext => repo.create hash spec plaintext
  | .update user_id id spec => repo.update user_id id spec
  | .reset_usage user_id id => repo.reset_usage user_id id
  | .set_enabled user_id id enabled => repo.set_enabled user_id id enabled
  | .delete user_id id => repo.delete user_id id
  | .record_usage id tokens cost => .ok (repo.record_usage id tokens cost)

namespace KeyRepo

variable {repo after : KeyRepo} {keys : List ExportedApiKey}

theorem ensure_affected_ok {meant : StoredApiKey → Bool} {id : Int} {changed : KeyRepo}
    (haffected : repo.ensure_affected meant id changed = .ok after) : after = changed := by
  unfold ensure_affected at haffected
  split at haffected
  · exact (Except.ok.inj haffected).symm
  · cases haffected

theorem fit_row {key : ExportedApiKey} (hname : trim key.name ≠ "") (hhash : trim key.key_hash ≠ "") (id : Int) : (key.row id).Fit where
  owner := rfl
  trimmed := trim_trim _
  named := (trim_trim key.name).symm ▸ hname
  hashed := hhash
  rpm_limit := le_max_right _ _
  tpm_limit := le_max_right _ _
  budget := le_max_right _ _
  used_budget := le_max_right _ _

theorem Fit.adds (hfit : repo.Fit) (hadds : Adds repo keys after) : after.Fit where
  rows row hrow := by
    rcases hadds.added row hrow with hold | ⟨key, -, hname, hhash, hsame⟩
    · exact hfit.rows row hold
    · exact hsame ▸ fit_row hname hhash _
  unique := hadds.unique hfit.unique

theorem Fit.filter (hfit : repo.Fit) (kept : StoredApiKey → Bool) : Fit { repo with rows := repo.rows.filter kept } where
  rows row hrow := hfit.rows row (List.mem_filter.mp hrow).1
  unique := hfit.unique.sublist (List.filter_sublist.map _)

theorem Fit.set_rows (hfit : repo.Fit) {meant : StoredApiKey → Bool} {change : StoredApiKey → StoredApiKey}
    (hchange : ∀ row : StoredApiKey, row.Fit → (change row).Fit) (hhash : ∀ row, (change row).key_hash = row.key_hash) :
    (repo.set_rows meant change).Fit where
  rows row hrow := by
    obtain ⟨old, hold, rfl⟩ := List.mem_map.mp hrow
    split
    · exact hchange old (hfit.rows old hold)
    · exact hfit.rows old hold
  unique := by
    have hhashes : (repo.set_rows meant change).rows.map (·.key_hash) = repo.rows.map (·.key_hash) := by
      simp only [KeyRepo.set_rows, List.map_map]
      refine List.map_congr_left fun row _ => ?_
      rw [Function.comp_apply]
      split
      · exact hhash row
      · rfl
    exact hhashes ▸ hfit.unique

theorem Fit.create {hash : String → String} (hvisible : ∀ plaintext, trim (hash plaintext) ≠ "") (hfit : repo.Fit) {spec : NewApiKey}
    {plaintext : String} (hcreate : repo.create hash spec plaintext = .ok after) : after.Fit := by
  unfold KeyRepo.create at hcreate
  split at hcreate
  · cases hcreate
  next hname =>
    split at hcreate
    · cases hcreate
    next hfresh =>
      obtain rfl := Except.ok.inj hcreate
      refine ⟨fun row hrow => ?_, nodup_insert hfit.unique (by simpa using hfresh)⟩
      rcases List.mem_append.mp hrow with hrow | hrow
      · exact hfit.rows row hrow
      · obtain rfl := List.mem_singleton.mp hrow
        exact ⟨rfl, trim_trim _, (trim_trim spec.name).symm ▸ hname, hvisible plaintext, le_max_right _ _, le_max_right _ _,
          le_max_right _ _, le_rfl⟩

theorem Fit.update (hfit : repo.Fit) {user_id : Option Int} {id : Int} {spec : NewApiKey}
    (hupdate : repo.update user_id id spec = .ok after) : after.Fit := by
  unfold KeyRepo.update at hupdate
  split at hupdate
  · cases hupdate
  next hname =>
    obtain rfl := ensure_affected_ok hupdate
    refine hfit.set_rows (fun row hrow => ?_) fun _ => rfl
    exact ⟨hrow.owner, trim_trim _, (trim_trim spec.name).symm ▸ hname, hrow.hashed, le_max_right _ _, le_max_right _ _,
      le_max_right _ _, hrow.used_budget⟩

/-- The step: all changes leave fit rows. -/
theorem Fit.commit {hash : String → String} (hvisible : ∀ plaintext, trim (hash plaintext) ≠ "") (hfit : repo.Fit) {change : KeyChange}
    (hcommit : change.commit hash repo = .ok after) : after.Fit := by
  cases change with
  | create spec plaintext => exact hfit.create hvisible hcommit
  | update user_id id spec => exact hfit.update hcommit
  | reset_usage user_id id =>
    obtain rfl := ensure_affected_ok hcommit
    exact hfit.set_rows (fun row hrow => { hrow with used_budget := le_rfl }) fun _ => rfl
  | set_enabled user_id id enabled =>
    obtain rfl := ensure_affected_ok hcommit
    exact hfit.set_rows (fun row hrow => { hrow with }) fun _ => rfl
  | delete user_id id =>
    obtain rfl := ensure_affected_ok hcommit
    exact hfit.filter _
  | record_usage id tokens cost =>
    obtain rfl := Except.ok.inj hcommit
    refine hfit.set_rows (fun row hrow => ?_) fun _ => rfl
    exact { hrow with used_budget := add_nonneg hrow.used_budget (le_max_right _ _) }

end KeyRepo

end refract.store
