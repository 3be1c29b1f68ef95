import Refract.Gateway.Catalog
import Refract.Gateway.Isolation
import Refract.Machine.Tenancy
import Refract.Store.KeyRepo

open refract.core refract.machine refract.store

namespace refract.store

/-- A key as it is shown. What is stored of its text is not. -/
structure ShownApiKey extends ApiKey where
  key_prefix : String
  note : Option String

def StoredApiKey.shown (self : StoredApiKey) : ShownApiKey := { self with }

namespace KeyRepo

variable (self : KeyRepo)

/-- All keys, or those of a user, from the latest. -/
def list (user_id : Option Int) : List ShownApiKey :=
  ((self.rows.filter fun row => owned row && user_id.all (row.user_id = some ·)).map (·.shown)).reverse

def get (user_id : Option Int) (id : Int) : Except StoreError ShownApiKey :=
  match self.rows.find? (meant user_id id) with
  | some row => .ok row.shown
  | none => .error (.not_found "api key" id)

/-- Numbers are given in order. -/
def Numbered : Prop := ∀ row ∈ self.rows, row.id < self.next_id

end KeyRepo

end refract.store

namespace refract.gateway.me

/-- A statement of the handlers of keys. The text of a new key is drawn before. -/
inductive KeyStatement where
  | list (user_id : Option Int)
  | get (user_id : Option Int) (id : Int)
  | create (spec : NewApiKey) (plaintext : String)
  | update (user_id : Option Int) (id : Int) (spec : NewApiKey)
  | set_enabled (user_id : Option Int) (id : Int) (enabled : Bool)
  | reset_usage (user_id : Option Int) (id : Int)
  | delete (user_id : Option Int) (id : Int)

@[reducible] def KeyStatement.Reply : KeyStatement → Type
  | .list _ => List ShownApiKey
  | .get _ _ => ShownApiKey
  | .create _ _ => Int
  | _ => Unit

abbrev KeyProgram (α : Type) : Type := Program KeyStatement KeyStatement.Reply GatewayError α

/-- `text` is what the database says of an error. -/
def store_to_gateway (text : SqlError → String) : StoreError → GatewayError
  | .not_found entity id => .not_found (entity ++ " `" ++ toString id ++ "` not found")
  | .invalid message => .invalid_request message
  | .sql error => .new .internal ("database error: " ++ text error)
  | .encryption message => .new .internal ("credential encryption failed: " ++ message)

section Statements

variable (hash : String → String) (text : SqlError → String)

/-- The change that a statement makes, if it makes one. -/
def KeyStatement.change : KeyStatement → Option KeyChange
  | .list _ | .get _ _ => none
  | .create spec plaintext => some (.create spec plaintext)
  | .update user_id id spec => some (.update user_id id spec)
  | .set_enabled user_id id enabled => some (.set_enabled user_id id enabled)
  | .reset_usage user_id id => some (.reset_usage user_id id)
  | .delete user_id id => some (.delete user_id id)

def commit (repo : KeyRepo) (change : KeyChange) : Except GatewayError KeyRepo :=
  (change.commit hash repo).mapError (store_to_gateway text)

/-- How the database carries a statement out. A new key is answered by its number. -/
def execute : Executor KeyRepo KeyStatement KeyStatement.Reply GatewayError := fun repo statement =>
  match statement with
  | .list user_id => .ok (repo.list user_id, repo)
  | .get user_id id => ((repo.get user_id id).mapError (store_to_gateway text)).map (·, repo)
  | .create spec plaintext => (commit hash text repo (.create spec plaintext)).map (repo.next_id, ·)
  | .update user_id id spec => (commit hash text repo (.update user_id id spec)).map ((), ·)
  | .set_enabled user_id id enabled => (commit hash text repo (.set_enabled user_id id enabled)).map ((), ·)
  | .reset_usage user_id id => (commit hash text repo (.reset_usage user_id id)).map ((), ·)
  | .delete user_id id => (commit hash text repo (.delete user_id id)).map ((), ·)

end Statements

/-- What is answered. -/
inductive KeyAnswer where
  | keys (items : List ShownApiKey)
  | created (key : ShownApiKey) (plaintext : String)
  | key (key : ShownApiKey)
  | enabled (id : Int) (enabled : Bool)
  | reset (id : Int)
  | deleted (id : Int)

section Handlers

def list_keys_impl (user_id : Option Int) : KeyProgram KeyAnswer := do
  let items ← .call (KeyStatement.list user_id)
  return .keys items

/-- A key that a user creates is the user's. The new row is read back by its number. -/
def create_key_impl (spec : NewApiKey) (plaintext : String) (user_id : Option Int) : KeyProgram KeyAnswer := do
  let id ← .call (KeyStatement.create { spec with user_id := user_id.or spec.user_id } plaintext)
  let key ← .call (KeyStatement.get none id)
  return .created key plaintext

def update_key_impl (id : Int) (spec : NewApiKey) (user_id : Option Int) : KeyProgram KeyAnswer := do
  let _ ← .call (KeyStatement.update user_id id spec)
  let key ← .call (KeyStatement.get user_id id)
  return .key key

def toggle_key_impl (id : Int) (enabled : Bool) (user_id : Option Int) : KeyProgram KeyAnswer := do
  let _ ← .call (KeyStatement.set_enabled user_id id enabled)
  return .enabled id enabled

def reset_key_usage_impl (id : Int) (user_id : Option Int) : KeyProgram KeyAnswer := do
  let _ ← .call (KeyStatement.reset_usage user_id id)
  return .reset id

def delete_key_impl (id : Int) (user_id : Option Int) : KeyProgram KeyAnswer := do
  let _ ← .call (KeyStatement.delete user_id id)
  return .deleted id

def require_active (status : UserStatus) : Except GatewayError Unit :=
  if status = .active then .ok ()
  else .error (.new .permissionDenied "account is not active; verify your email before creating keys or channels")

/-- What a user asks for. -/
inductive KeyAction where
  | list_keys
  | create_key (spec : NewApiKey) (plaintext : String)
  | update_key (id : Int) (spec : NewApiKey)
  | toggle_key (id : Int) (enabled : Bool)
  | reset_key_usage (id : Int)
  | delete_key (id : Int)

/-- A request of a user that is logged in, with the status found for it. -/
structure KeyRequest where
  user_id : Int
  status : UserStatus
  action : KeyAction

def KeyRequest.handle (self : KeyRequest) : KeyProgram KeyAnswer :=
  match self.action with
  | .list_keys => list_keys_impl (some self.user_id)
  | .create_key spec plaintext => do
    .check (require_active self.status)
    create_key_impl spec plaintext (some self.user_id)
  | .update_key id spec => update_key_impl id spec (some self.user_id)
  | .toggle_key id enabled => toggle_key_impl id enabled (some self.user_id)
  | .reset_key_usage id => reset_key_usage_impl id (some self.user_id)
  | .delete_key id => delete_key_impl id (some self.user_id)

end Handlers

section Keys

variable (hash : String → String) (text : SqlError → String)

/-- What else is done to the table: by administrators, and by the gateway. -/
def happen (repo : KeyRepo) (change : KeyChange) : KeyRepo := (change.commit hash repo).toOption.getD repo

/-- The table of keys, on which every request takes its statements in its own time. -/
def keys : Interleaving KeyRepo (machine.Course KeyRequest KeyStatement KeyStatement.Reply GatewayError KeyAnswer) (Option GatewayError) KeyChange :=
  courses KeyRequest.handle (execute hash text) (happen hash)

/-- The keys of one user. -/
def own_keys (user_id : Int) (repo : KeyRepo) : KeyRepo := { repo with rows := repo.rows.filter (·.user_id = some user_id) }

/-- What a user feels of the others: changes of its own keys, and that numbers are given. -/
inductive Felt where
  | changed (change : KeyChange)
  | numbered (next_id : Int)

def feel (user_id : Int) (repo : KeyRepo) : Felt → KeyRepo
  | .changed change => own_keys user_id (happen hash repo change)
  | .numbered next_id => { repo with next_id }

/-- A table that has the keys of one user alone. -/
def alone (user_id : Int) : Interleaving KeyRepo (machine.Course KeyRequest KeyStatement KeyStatement.Reply GatewayError KeyAnswer) (Option GatewayError) Felt :=
  courses KeyRequest.handle (execute hash text) (feel hash user_id)

/-- What a request of a user may issue. The keys of others are not read by number. -/
def May (user_id : Int) (repo : KeyRepo) : KeyStatement → Prop
  | .get none id => id < repo.next_id ∧ ∀ row ∈ repo.rows, row.id = id → row.user_id = some user_id
  | .list user | .get user _ | .update user _ _ | .set_enabled user _ _ | .reset_usage user _ | .delete user _ => user = some user_id
  | .create spec _ => spec.user_id = some user_id

/-- A later state of the table. Rows come with new numbers, and do not change hands. -/
structure Later (repo after : KeyRepo) : Prop where
  numbered : after.Numbered
  le : repo.next_id ≤ after.next_id
  kept : ∀ row ∈ after.rows, row.id < repo.next_id → ∃ old ∈ repo.rows, old.id = row.id ∧ old.user_id = row.user_id

variable {hash text} {repo after mid : KeyRepo} {user_id : Int}

theorem Later.refl (hnumbered : repo.Numbered) : Later repo repo := ⟨hnumbered, le_rfl, fun row hrow _ => ⟨row, hrow, rfl, rfl⟩⟩

theorem Later.trans (hfirst : Later repo mid) (hsecond : Later mid after) : Later repo after where
  numbered := hsecond.numbered
  le := hfirst.le.trans hsecond.le
  kept row hrow hlt := by
    obtain ⟨old, hold, hid, huser⟩ := hsecond.kept row hrow (hlt.trans_le hfirst.le)
    obtain ⟨older, holder, hid', huser'⟩ := hfirst.kept old hold (by omega)
    exact ⟨older, holder, hid'.trans hid, huser'.trans huser⟩

/-- Statements that change rows keep their numbers and their users. -/
theorem Later.set_rows (hnumbered : repo.Numbered) {meant : StoredApiKey → Bool} {change : StoredApiKey → StoredApiKey}
    (hid : ∀ row, (change row).id = row.id) (huser : ∀ row, (change row).user_id = row.user_id) :
    Later repo (repo.set_rows meant change) := by
  have hsame : ∀ row ∈ (repo.set_rows meant change).rows, ∃ old ∈ repo.rows, old.id = row.id ∧ old.user_id = row.user_id := by
    intro row hrow
    obtain ⟨old, hold, rfl⟩ := List.mem_map.mp hrow
    refine ⟨old, hold, ?_⟩
    split
    · exact ⟨(hid old).symm, (huser old).symm⟩
    · exact ⟨rfl, rfl⟩
  refine ⟨fun row hrow => ?_, le_rfl, fun row hrow _ => hsame row hrow⟩
  obtain ⟨old, hold, hid, -⟩ := hsame row hrow
  exact hid ▸ hnumbered old hold

theorem Later.filter (hnumbered : repo.Numbered) (kept : StoredApiKey → Bool) :
    Later repo { repo with rows := repo.rows.filter kept } :=
  ⟨fun row hrow => hnumbered row (List.mem_filter.mp hrow).1, le_rfl, fun row hrow _ => ⟨row, (List.mem_filter.mp hrow).1, rfl, rfl⟩⟩

theorem Later.insert (hnumbered : repo.Numbered) {row : Int → StoredApiKey} (hid : ∀ id, (row id).id = id) : Later repo (repo.insert row) where
  numbered other hother := by
    rcases List.mem_append.mp hother with hother | hother
    · exact (hnumbered other hother).trans (lt_add_one _)
    · obtain rfl := List.mem_singleton.mp hother
      exact (hid _).symm ▸ lt_add_one _
  le := (lt_add_one _).le
  kept other hother hlt := by
    rcases List.mem_append.mp hother with hother | hother
    · exact ⟨other, hother, rfl, rfl⟩
    · obtain rfl := List.mem_singleton.mp hother
      rw [hid] at hlt
      omega

/-- A change that is made for a user alone. -/
def By (user_id : Int) : KeyChange → Prop
  | .create spec _ => spec.user_id = some user_id
  | .update user _ _ | .reset_usage user _ | .set_enabled user _ _ | .delete user _ => user = some user_id
  | .record_usage .. => False

theorem meant_user {id : Int} {row : StoredApiKey} (hmeant : KeyRepo.meant (some user_id) id row = true) : row.user_id = some user_id := by
  simp only [KeyRepo.meant, Option.all_some, Bool.and_eq_true, decide_eq_true_eq] at hmeant
  exact hmeant.2

theorem meant_of_user {user : Option Int} {id : Int} {row : StoredApiKey} (huser : user = some user_id)
    (hmeant : KeyRepo.meant user id row = true) : row.user_id = some user_id := by
  subst huser
  exact meant_user hmeant

/-- A change of rows that is given up because there are none is made as well. -/
theorem tried_set_rows {meant : StoredApiKey → Bool} {change : StoredApiKey → StoredApiKey} {id : Int} :
    (repo.ensure_affected meant id (repo.set_rows meant change)).toOption.getD repo = repo.set_rows meant change := by
  rw [KeyRepo.ensure_affected]
  split
  · rfl
  next hnone =>
    have hsame : repo.rows.map (fun row => if meant row then change row else row) = repo.rows := by
      refine (List.map_congr_left fun row hrow => ?_).trans (List.map_id _)
      refine if_neg fun hmeant => hnone ?_
      exact List.any_eq_true.mpr ⟨row, hrow, hmeant⟩
    rw [KeyRepo.set_rows, hsame]
    rfl

theorem tried_delete {meant : StoredApiKey → Bool} {id : Int} :
    (repo.ensure_affected meant id { repo with rows := repo.rows.filter (!meant ·) }).toOption.getD repo =
      { repo with rows := repo.rows.filter (!meant ·) } := by
  rw [KeyRepo.ensure_affected]
  split
  · rfl
  next hnone =>
    have hsame : repo.rows.filter (!meant ·) = repo.rows := by
      refine List.filter_eq_self.mpr fun row hrow => ?_
      rw [Bool.not_eq_true', ← Bool.not_eq_true]
      exact fun hmeant => hnone (List.any_eq_true.mpr ⟨row, hrow, hmeant⟩)
    rw [hsame]
    rfl

/-- What a change comes to on every table. -/
theorem happen_cases (change : KeyChange) :
    (∃ spec plaintext, change = .create spec plaintext) ∨
    (∃ (meant : StoredApiKey → Bool) (f : StoredApiKey → StoredApiKey),
      (∀ row, (f row).id = row.id) ∧ (∀ row, (f row).user_id = row.user_id) ∧
      (∀ user, By user change → ∀ row, meant row = true → row.user_id = some user) ∧
      ∀ repo : KeyRepo, happen hash repo change = repo.set_rows meant f) ∨
    ∃ meant : StoredApiKey → Bool, (∀ user, By user change → ∀ row, meant row = true → row.user_id = some user) ∧
      ∀ repo : KeyRepo, happen hash repo change = { repo with rows := repo.rows.filter (!meant ·) } := by
  cases change with
  | create spec plaintext => exact .inl ⟨spec, plaintext, rfl⟩
  | update user id spec =>
    right; left
    by_cases hname : json.trim spec.name = ""
    · refine ⟨fun _ => false, fun row => row, fun _ => rfl, fun _ => rfl, fun _ _ _ hmeant => (Bool.false_ne_true hmeant).elim, fun repo => ?_⟩
      rw [happen, KeyChange.commit, KeyRepo.update, if_pos hname, KeyRepo.set_rows]
      simp [Except.toOption]
    · have hhappen : ∀ repo : KeyRepo, happen hash repo (.update user id spec) = (repo.update user id spec).toOption.getD repo := fun _ => rfl
      simp only [KeyRepo.update, if_neg hname, tried_set_rows] at hhappen
      refine ⟨KeyRepo.meant user id, _, ?_, ?_, fun _ hby row => meant_of_user hby, hhappen⟩
      all_goals exact fun _ => rfl
  | reset_usage user id =>
    refine .inr (.inl ⟨KeyRepo.meant user id, _, ?_, ?_, fun _ hby row => meant_of_user hby, fun repo => tried_set_rows⟩)
    all_goals exact fun _ => rfl
  | set_enabled user id enabled =>
    refine .inr (.inl ⟨KeyRepo.meant user id, _, ?_, ?_, fun _ hby row => meant_of_user hby, fun repo => tried_set_rows⟩)
    all_goals exact fun _ => rfl
  | delete user id => exact .inr (.inr ⟨KeyRepo.meant user id, fun _ hby row => meant_of_user hby, fun repo => tried_delete⟩)
  | record_usage id tokens cost =>
    refine .inr (.inl ⟨(·.id = id), _, ?_, ?_, fun _ hby => hby.elim, fun repo => Eq.refl (repo.record_usage id tokens cost)⟩)
    all_goals exact fun _ => rfl

theorem own_keys_set_rows {meant : StoredApiKey → Bool} {f : StoredApiKey → StoredApiKey} (huser : ∀ row, (f row).user_id = row.user_id) :
    own_keys user_id (repo.set_rows meant f) = (own_keys user_id repo).set_rows meant f := by
  have hkept : (fun row : StoredApiKey => decide (row.user_id = some user_id)) ∘ (fun row => if meant row then f row else row) =
      fun row => decide (row.user_id = some user_id) := by
    funext row
    rw [Function.comp_apply]
    split
    · rw [huser]
    · rfl
  simp only [own_keys, KeyRepo.set_rows, List.filter_map, hkept]

theorem own_keys_filter {kept : StoredApiKey → Bool} :
    own_keys user_id { repo with rows := repo.rows.filter kept } =
      { own_keys user_id repo with rows := (own_keys user_id repo).rows.filter kept } := by
  simp only [own_keys, List.filter_filter, Bool.and_comm]

@[simp] theorem own_keys_own_keys : own_keys user_id (own_keys user_id repo) = own_keys user_id repo := by
  simp only [own_keys, List.filter_filter, Bool.and_self]

variable (user_id) in
/-- What a new key comes to. -/
theorem create_ok {spec : NewApiKey} {plaintext : String} (hcreate : repo.create hash spec plaintext = .ok after) :
    ∃ row : Int → StoredApiKey, (∀ id, (row id).id = id) ∧ (∀ id, (row id).user_id = spec.user_id) ∧ after = repo.insert row ∧
      (own_keys user_id repo).create hash spec plaintext = .ok ((own_keys user_id repo).insert row) := by
  unfold KeyRepo.create at hcreate
  split at hcreate
  · cases hcreate
  next hname =>
    split at hcreate
    · cases hcreate
    next hfresh =>
      refine ⟨_, fun _ => rfl, fun _ => rfl, (Except.ok.inj hcreate).symm, ?_⟩
      have hown : ¬(own_keys user_id repo).has_hash (hash plaintext) = true := by
        intro hhash
        obtain ⟨row, hrow, hsame⟩ := List.any_eq_true.mp hhash
        exact hfresh (List.any_eq_true.mpr ⟨row, (List.mem_filter.mp hrow).1, hsame⟩)
      rw [KeyRepo.create, if_neg hname, if_neg hown]

theorem own_keys_insert {row : Int → StoredApiKey} :
    own_keys user_id ((own_keys user_id repo).insert row) = own_keys user_id (repo.insert row) := by
  simp only [own_keys, KeyRepo.insert, List.filter_append, List.filter_filter, Bool.and_self]

theorem own_keys_insert_mine {row : Int → StoredApiKey} (huser : ∀ id, (row id).user_id = some user_id) :
    own_keys user_id (repo.insert row) = (own_keys user_id repo).insert row := by
  simp [own_keys, KeyRepo.insert, List.filter_append, huser]

theorem own_keys_insert_other {row : Int → StoredApiKey} {other : Int} (huser : ∀ id, (row id).user_id = some other) (hne : other ≠ user_id) :
    own_keys user_id (repo.insert row) = { own_keys user_id repo with next_id := repo.next_id + 1 } := by
  simp [own_keys, KeyRepo.insert, List.filter_append, huser, hne]

/-- Rows that only another has are out of sight. -/
theorem own_keys_apart {meant : StoredApiKey → Bool} {other : Int} (hmeant : ∀ row, meant row = true → row.user_id = some other)
    (hne : other ≠ user_id) {row : StoredApiKey} (hrow : row ∈ (own_keys user_id repo).rows) : meant row = false := by
  rw [← Bool.not_eq_true]
  intro hyes
  have huser : row.user_id = some user_id := by simpa using (List.mem_filter.mp hrow).2
  exact hne (Option.some.inj ((hmeant row hyes).symm.trans huser))

theorem happen_of_commit {change : KeyChange} (hcommit : change.commit hash repo = .ok after) : happen hash repo change = after := by
  rw [happen, hcommit]
  rfl

variable (hash) in
/-- Changes keep a table numbered. -/
theorem later_happen (hnumbered : repo.Numbered) (change : KeyChange) : Later repo (happen hash repo change) := by
  rcases happen_cases change with ⟨spec, plaintext, rfl⟩ | ⟨meant, f, hid, huser, -, hhappen⟩ | ⟨meant, -, hhappen⟩
  · cases hcommit : repo.create hash spec plaintext with
    | error error =>
      rw [happen, KeyChange.commit, hcommit]
      exact .refl hnumbered
    | ok after =>
      obtain ⟨row, hid, -, rfl, -⟩ := create_ok 0 hcommit
      rw [show happen hash repo (.create spec plaintext) = _ from happen_of_commit hcommit]
      exact .insert hnumbered hid
  · rw [hhappen]
    exact .set_rows hnumbered hid huser
  · rw [hhappen]
    exact .filter hnumbered _

/-- What another changes is not felt, besides the numbers that are given. -/
theorem own_keys_others {change : KeyChange} {other : Int} (hby : By other change) (hne : other ≠ user_id)
    (hcommit : change.commit hash repo = .ok after) : own_keys user_id after = { own_keys user_id repo with next_id := after.next_id } := by
  rw [← happen_of_commit hcommit]
  rcases happen_cases change with ⟨spec, plaintext, rfl⟩ | ⟨meant, f, hid, huser, hmeant, hhappen⟩ | ⟨meant, hmeant, hhappen⟩
  · obtain ⟨row, -, huser, hafter, -⟩ := create_ok user_id hcommit
    rw [happen_of_commit hcommit, hafter]
    exact own_keys_insert_other (fun id => (huser id).trans hby) hne
  · rw [hhappen, own_keys_set_rows huser, KeyRepo.set_rows, KeyRepo.set_rows]
    have hsame : (own_keys user_id repo).rows.map (fun row => if meant row then f row else row) = (own_keys user_id repo).rows := by
      refine (List.map_congr_left fun row hrow => ?_).trans (List.map_id _)
      rw [own_keys_apart (hmeant other hby) hne hrow]
      rfl
    rw [hsame]
    rfl
  · rw [hhappen, own_keys_filter]
    have hsame : (own_keys user_id repo).rows.filter (!meant ·) = (own_keys user_id repo).rows := by
      refine List.filter_eq_self.mpr fun row hrow => ?_
      rw [own_keys_apart (hmeant other hby) hne hrow]
      rfl
    rw [hsame]
    rfl

theorem own_ensure_affected_error {id : Int} {changed other : KeyRepo} {error : StoreError}
    (herror : repo.ensure_affected (KeyRepo.meant (some user_id) id) id changed = .error error) :
    (own_keys user_id repo).ensure_affected (KeyRepo.meant (some user_id) id) id other = .error error := by
  unfold KeyRepo.ensure_affected at herror ⊢
  split at herror
  · cases herror
  next hnone =>
    refine (if_neg fun hany => hnone ?_).trans herror
    obtain ⟨row, hrow, hmeant⟩ := List.any_eq_true.mp hany
    exact List.any_eq_true.mpr ⟨row, (List.mem_filter.mp hrow).1, hmeant⟩

theorem own_ensure_affected {id : Int} {changed : KeyRepo} (hok : repo.ensure_affected (KeyRepo.meant (some user_id) id) id changed = .ok after) :
    (own_keys user_id repo).ensure_affected (KeyRepo.meant (some user_id) id) id (own_keys user_id changed) = .ok (own_keys user_id after) := by
  unfold KeyRepo.ensure_affected at hok ⊢
  split at hok
  next hany =>
    obtain rfl := Except.ok.inj hok
    refine if_pos ?_
    obtain ⟨row, hrow, hmeant⟩ := List.any_eq_true.mp hany
    refine List.any_eq_true.mpr ⟨row, List.mem_filter.mpr ⟨hrow, ?_⟩, hmeant⟩
    exact decide_eq_true (meant_user hmeant)
  · cases hok

/-- What a user changes comes to the same among its own keys. -/
theorem own_keys_commit {change : KeyChange} (hby : By user_id change) (hcommit : change.commit hash repo = .ok after) :
    change.commit hash (own_keys user_id repo) = .ok (own_keys user_id after) := by
  cases change with
  | create spec plaintext =>
    obtain ⟨row, -, huser, rfl, hown⟩ := create_ok user_id hcommit
    rw [own_keys_insert_mine fun id => (huser id).trans hby]
    exact hown
  | update user id spec =>
    obtain rfl : user = some user_id := hby
    simp only [KeyChange.commit, KeyRepo.update] at hcommit ⊢
    split at hcommit
    · cases hcommit
    next hname =>
      rw [if_neg hname]
      have hown := own_ensure_affected hcommit
      rw [own_keys_set_rows] at hown
      · exact hown
      · exact fun _ => rfl
  | reset_usage user id =>
    obtain rfl : user = some user_id := hby
    have hown := own_ensure_affected hcommit
    rw [own_keys_set_rows] at hown
    · exact hown
    · exact fun _ => rfl
  | set_enabled user id enabled =>
    obtain rfl : user = some user_id := hby
    have hown := own_ensure_affected hcommit
    rw [own_keys_set_rows] at hown
    · exact hown
    · exact fun _ => rfl
  | delete user id =>
    obtain rfl : user = some user_id := hby
    have hown := own_ensure_affected hcommit
    rwa [own_keys_filter] at hown
  | record_usage id tokens cost => exact hby.elim

/-- What a user may not change it may not change alone, unless it is a new key. -/
theorem own_keys_commit_error {change : KeyChange} {error : StoreError} (hby : By user_id change)
    (hcommit : change.commit hash repo = .error error) :
    change.commit hash (own_keys user_id repo) = .error error ∨ ∃ spec plaintext, change = .create spec plaintext := by
  cases change with
  | create spec plaintext => exact .inr ⟨spec, plaintext, rfl⟩
  | update user id spec =>
    obtain rfl : user = some user_id := hby
    simp only [KeyChange.commit, KeyRepo.update] at hcommit ⊢
    split at hcommit
    next hname =>
      rw [if_pos hname]
      exact .inl hcommit
    next hname =>
      rw [if_neg hname]
      exact .inl (own_ensure_affected_error hcommit)
  | reset_usage user id =>
    obtain rfl : user = some user_id := hby
    exact .inl (own_ensure_affected_error hcommit)
  | set_enabled user id enabled =>
    obtain rfl : user = some user_id := hby
    exact .inl (own_ensure_affected_error hcommit)
  | delete user id =>
    obtain rfl : user = some user_id := hby
    exact .inl (own_ensure_affected_error hcommit)
  | record_usage id tokens cost => exact hby.elim

theorem commit_ok {change : KeyChange} (hok : commit hash text repo change = .ok after) : change.commit hash repo = .ok after := by
  cases hcommit : change.commit hash repo with
  | error error =>
    rw [commit, hcommit] at hok
    cases hok
  | ok changed =>
    rw [commit, hcommit] at hok
    obtain rfl : changed = after := Except.ok.inj hok
    rfl

theorem commit_of_ok {change : KeyChange} (hcommit : change.commit hash repo = .ok after) : commit hash text repo change = .ok after := by
  rw [commit, hcommit]
  rfl

/-- What carrying out a statement comes to: a reading, or a change that is made. -/
theorem execute_ok {statement : KeyStatement} {reply : statement.Reply} (hok : execute hash text repo statement = .ok (reply, after)) :
    (statement.change = none ∧ after = repo) ∨
      ∃ change, statement.change = some change ∧ change.commit hash repo = .ok after ∧
        ∀ {other changed : KeyRepo}, other.next_id = repo.next_id → change.commit hash other = .ok changed →
          execute hash text other statement = .ok (reply, changed) := by
  cases statement with
  | list user => exact .inl ⟨rfl, (Prod.mk.inj (Except.ok.inj hok)).2.symm⟩
  | get user id =>
    obtain ⟨key, -, hpair⟩ := map_eq_ok.mp hok
    exact .inl ⟨rfl, (Prod.mk.inj hpair).2.symm⟩
  | create spec plaintext =>
    obtain ⟨changed, hcommit, hpair⟩ := map_eq_ok.mp hok
    obtain ⟨rfl, rfl⟩ := Prod.mk.inj hpair
    refine .inr ⟨_, rfl, commit_ok hcommit, fun hnext hother => ?_⟩
    simp only [execute, commit_of_ok hother, hnext, Except.map]
  | update user id spec =>
    obtain ⟨changed, hcommit, hpair⟩ := map_eq_ok.mp hok
    obtain ⟨rfl, rfl⟩ := Prod.mk.inj hpair
    exact .inr ⟨_, rfl, commit_ok hcommit, fun _ hother => map_eq_ok.mpr ⟨_, commit_of_ok hother, rfl⟩⟩
  | set_enabled user id enabled =>
    obtain ⟨changed, hcommit, hpair⟩ := map_eq_ok.mp hok
    obtain ⟨rfl, rfl⟩ := Prod.mk.inj hpair
    exact .inr ⟨_, rfl, commit_ok hcommit, fun _ hother => map_eq_ok.mpr ⟨_, commit_of_ok hother, rfl⟩⟩
  | reset_usage user id =>
    obtain ⟨changed, hcommit, hpair⟩ := map_eq_ok.mp hok
    obtain ⟨rfl, rfl⟩ := Prod.mk.inj hpair
    exact .inr ⟨_, rfl, commit_ok hcommit, fun _ hother => map_eq_ok.mpr ⟨_, commit_of_ok hother, rfl⟩⟩
  | delete user id =>
    obtain ⟨changed, hcommit, hpair⟩ := map_eq_ok.mp hok
    obtain ⟨rfl, rfl⟩ := Prod.mk.inj hpair
    exact .inr ⟨_, rfl, commit_ok hcommit, fun _ hother => map_eq_ok.mpr ⟨_, commit_of_ok hother, rfl⟩⟩

/-- A statement that writes is carried out as its change is. -/
theorem execute_error {statement : KeyStatement} {change : KeyChange} (hchange : statement.change = some change) {error : GatewayError} :
    execute hash text repo statement = .error error ↔ commit hash text repo change = .error error := by
  have hmap : ∀ {α : Type} {result : Except GatewayError KeyRepo} {f : KeyRepo → α}, result.map f = .error error ↔ result = .error error := by
    intro α result f
    cases result with
    | error => exact Iff.intro (fun hsame => congrArg Except.error (Except.error.inj hsame)) fun hsame => congrArg Except.error (Except.error.inj hsame)
    | ok => constructor <;> intro hsame <;> cases hsame
  cases statement with
  | list => cases hchange
  | get => cases hchange
  | create spec plaintext =>
    obtain rfl := Option.some.inj hchange
    exact hmap
  | update user id spec =>
    obtain rfl := Option.some.inj hchange
    exact hmap
  | set_enabled user id enabled =>
    obtain rfl := Option.some.inj hchange
    exact hmap
  | reset_usage user id =>
    obtain rfl := Option.some.inj hchange
    exact hmap
  | delete user id =>
    obtain rfl := Option.some.inj hchange
    exact hmap

theorem by_of_may {statement : KeyStatement} {change : KeyChange} (hmay : May user_id repo statement) (hchange : statement.change = some change) :
    By user_id change := by
  cases statement with
  | list => cases hchange
  | get => cases hchange
  | create spec plaintext =>
    obtain rfl := Option.some.inj hchange
    exact hmay
  | update user id spec =>
    obtain rfl := Option.some.inj hchange
    exact hmay
  | set_enabled user id enabled =>
    obtain rfl := Option.some.inj hchange
    exact hmay
  | reset_usage user id =>
    obtain rfl := Option.some.inj hchange
    exact hmay
  | delete user id =>
    obtain rfl := Option.some.inj hchange
    exact hmay

theorem list_own : (own_keys user_id repo).list (some user_id) = repo.list (some user_id) := by
  simp only [KeyRepo.list, own_keys, List.filter_filter, Option.all_some, Bool.and_assoc, Bool.and_self]

theorem get_own {user : Option Int} {id : Int} (hmine : ∀ row ∈ repo.rows, KeyRepo.meant user id row = true → row.user_id = some user_id) :
    (own_keys user_id repo).get user id = repo.get user id := by
  have hfind : (own_keys user_id repo).rows.find? (KeyRepo.meant user id) = repo.rows.find? (KeyRepo.meant user id) := by
    rw [own_keys, ← List.head?_filter, ← List.head?_filter, List.filter_filter]
    refine congrArg List.head? (List.filter_congr fun row hrow => ?_)
    cases hmeant : KeyRepo.meant user id row with
    | false => rfl
    | true => exact decide_eq_true (hmine row hrow hmeant)
  rw [KeyRepo.get, KeyRepo.get, hfind]

theorem get_own_of_may {user : Option Int} {id : Int} (hmay : May user_id repo (.get user id)) :
    (own_keys user_id repo).get user id = repo.get user id := by
  refine get_own fun row hrow hmeant => ?_
  cases user with
  | none =>
    simp only [KeyRepo.meant, Bool.and_eq_true, decide_eq_true_eq] at hmeant
    exact hmay.2 row hrow hmeant.1.1
  | some user => exact meant_of_user hmay hmeant

/-- What may be refused for what others have: a new key, whose text could be one of theirs. -/
def Draws : KeyStatement → Prop
  | .create .. => True
  | _ => False

/-- What the others may issue. -/
def MayOther (user_id : Int) (repo : KeyRepo) (statement : KeyStatement) : Prop := ∃ other, other ≠ user_id ∧ May other repo statement

variable (hash text user_id) in
/-- A user has its keys as it would have them alone. -/
theorem tenancy : Tenancy (execute hash text) (execute hash text) (happen hash) (feel hash user_id) (own_keys user_id) Later KeyRepo.Numbered
    (May user_id) (MayOther user_id) Draws where
  refl hnumbered := .refl hnumbered
  trans hfirst hsecond := hfirst.trans hsecond
  goes_on hnumbered hok := by
    rcases execute_ok hok with ⟨-, rfl⟩ | ⟨change, -, hcommit, -⟩
    · exact ⟨hnumbered, .refl hnumbered⟩
    · have hlater := later_happen hash hnumbered change
      rw [happen_of_commit hcommit] at hlater
      exact ⟨hlater.numbered, hlater⟩
  served hnumbered hmay hok := by
    rename_i shared statement reply after
    rcases execute_ok hok with ⟨hchange, rfl⟩ | ⟨change, hchange, hcommit, hsame⟩
    · cases statement with
      | list user =>
        obtain rfl : user = some user_id := hmay
        simp only [execute, list_own]
        obtain ⟨rfl, -⟩ := Prod.mk.inj (Except.ok.inj hok)
        rfl
      | get user id =>
        obtain ⟨key, hkey, hpair⟩ := map_eq_ok.mp hok
        obtain ⟨rfl, -⟩ := Prod.mk.inj hpair
        simp only [execute, get_own_of_may hmay, hkey, Except.map]
      | create => cases hchange
      | update => cases hchange
      | set_enabled => cases hchange
      | reset_usage => cases hchange
      | delete => cases hchange
    · exact hsame rfl (own_keys_commit (by_of_may hmay hchange) hcommit)
  refused hnumbered hmay herror := by
    rename_i shared statement error
    cases hchange : statement.change with
    | some change =>
      have hcommit : ∃ cause, change.commit hash shared = .error cause ∧ store_to_gateway text cause = error := by
        have hmapped := (execute_error hchange).mp herror
        cases hcommit : change.commit hash shared with
        | error cause =>
          rw [commit, hcommit] at hmapped
          exact ⟨cause, rfl, Except.error.inj hmapped⟩
        | ok after =>
          rw [commit_of_ok hcommit] at hmapped
          cases hmapped
      obtain ⟨cause, hcommit, rfl⟩ := hcommit
      rcases own_keys_commit_error (by_of_may hmay hchange) hcommit with hown | ⟨spec, plaintext, rfl⟩
      · left
        refine (execute_error hchange).mpr ?_
        rw [commit, hown]
        rfl
      · right
        cases statement with
        | create => trivial
        | _ => cases hchange
    | none =>
      left
      cases statement with
      | list user => cases herror
      | get user id =>
        simp only [execute, get_own_of_may hmay] at herror ⊢
        cases hget : shared.get user id with
        | error cause =>
          rw [hget] at herror
          exact congrArg Except.error (Except.error.inj herror)
        | ok key =>
          rw [hget] at herror
          cases herror
      | _ => cases hchange
  apart hnumbered hother hok := by
    obtain ⟨other, hne, hmay⟩ := hother
    rcases execute_ok hok with ⟨-, rfl⟩ | ⟨change, hchange, hcommit, -⟩
    · exact ⟨.numbered _, rfl⟩
    · exact ⟨.numbered _, (own_keys_others (by_of_may hmay hchange) hne hcommit).symm⟩
  happens := by
    intro shared change hnumbered
    have hlater := later_happen hash hnumbered change
    refine ⟨hlater.numbered, hlater, ?_⟩
    rcases happen_cases change with ⟨spec, plaintext, rfl⟩ | ⟨meant, f, -, huser, -, hhappen⟩ | ⟨meant, -, hhappen⟩
    · cases hcommit : shared.create hash spec plaintext with
      | error error =>
        refine ⟨.numbered shared.next_id, ?_⟩
        rw [happen, KeyChange.commit, hcommit]
        rfl
      | ok after =>
        obtain ⟨row, -, -, rfl, hown⟩ := create_ok user_id hcommit
        refine ⟨.changed (.create spec plaintext), ?_⟩
        rw [feel, show happen hash shared (.create spec plaintext) = _ from happen_of_commit hcommit,
          show happen hash (own_keys user_id shared) (.create spec plaintext) = _ from happen_of_commit hown, own_keys_insert]
    · refine ⟨.changed change, ?_⟩
      rw [feel, hhappen, hhappen, own_keys_set_rows huser, own_keys_set_rows huser, own_keys_own_keys]
    · refine ⟨.changed change, ?_⟩
      rw [feel, hhappen, hhappen, own_keys_filter, own_keys_filter, own_keys_own_keys]

/-- A request for a new key. -/
def KeyAction.creates : KeyAction → Bool
  | .create_key .. => true
  | _ => false

variable (hash text) in
/-- A handler issues what its user may, and draws the text of a key only for a new one. -/
theorem issues_handle (request : KeyRequest) (repo : KeyRepo) :
    request.handle.Issues (execute hash text) Later
      (fun now statement => May request.user_id now statement ∧ (Draws statement → request.action.creates = true)) repo := by
  obtain ⟨user_id, status, action⟩ := request
  have hpure : ∀ (statement : KeyStatement) (answer : statement.Reply → KeyAnswer), (∀ now, May user_id now statement) → ¬Draws statement →
      (do let reply ← Program.call statement; return answer reply : KeyProgram KeyAnswer).Issues (execute hash text) Later
        (fun now statement => May user_id now statement ∧ (Draws statement → action.creates = true)) repo :=
    fun statement answer hmay hdraws => Program.issues_call_bind.mpr fun now _ =>
      ⟨⟨hmay now, fun hyes => (hdraws hyes).elim⟩, fun _ _ _ => trivial⟩
  cases action with
  | list_keys => exact hpure (.list (some user_id)) _ (fun _ => rfl) False.elim
  | create_key spec plaintext =>
    refine Program.issues_check_bind fun _ _ => Program.issues_call_bind.mpr fun now hnow => ⟨⟨rfl, fun _ => rfl⟩, fun id after hok => ?_⟩
    -- The row that was just written is the only one with its number.
    refine Program.issues_call_bind.mpr fun last hlast => ⟨⟨?_, fun _ => rfl⟩, fun _ _ _ => trivial⟩
    rcases execute_ok hok with ⟨hchange, -⟩ | ⟨change, hchange, hcommit, -⟩
    · cases hchange
    obtain rfl := Option.some.inj hchange
    obtain ⟨row, hid, huser, rfl, -⟩ := create_ok user_id hcommit
    obtain rfl : now.next_id = id := by
      obtain ⟨changed, -, hpair⟩ := map_eq_ok.mp hok
      exact (Prod.mk.inj hpair).1
    have hgiven : now.next_id < (now.insert row).next_id := lt_add_one _
    refine ⟨hgiven.trans_le hlast.le, fun found hfound hnumber => ?_⟩
    obtain ⟨old, hold, hold_id, hold_user⟩ := hlast.kept found hfound (by omega)
    rcases List.mem_append.mp hold with hold | hold
    · have hbefore := hnow.numbered old hold
      omega
    · obtain rfl := List.mem_singleton.mp hold
      exact hold_user.symm.trans (huser _)
  | update_key id spec =>
    refine Program.issues_call_bind.mpr fun now _ => ⟨⟨rfl, False.elim⟩, fun _ after _ => ?_⟩
    exact Program.issues_call_bind.mpr fun last _ => ⟨⟨rfl, False.elim⟩, fun _ _ _ => trivial⟩
  | toggle_key id enabled => exact hpure (.set_enabled (some user_id) id enabled) _ (fun _ => rfl) False.elim
  | reset_key_usage id => exact hpure (.reset_usage (some user_id) id) _ (fun _ => rfl) False.elim
  | delete_key id => exact hpure (.delete (some user_id) id) _ (fun _ => rfl) False.elim

/-- Operations of the one that ask for a new key. -/
def Drawing (moves : List (Move (machine.Course KeyRequest KeyStatement KeyStatement.Reply GatewayError KeyAnswer) (Option GatewayError) KeyChange))
    (id : Nat) : Prop :=
  ∃ request : KeyRequest, .begin id (.arrived request) ∈ moves ∧ request.action.creates = true

variable {moves : List (Move (machine.Course KeyRequest KeyStatement KeyStatement.Reply GatewayError KeyAnswer) (Option GatewayError) KeyChange)}

theorem begins_of_whose (whose : Nat → Int)
    (hwhose : ∀ id (request : KeyRequest), .begin id (.arrived request) ∈ moves → request.user_id = whose id) :
    (keys hash text).Meets (Begins KeyRequest.handle (whose · = user_id) (Drawing moves) (execute hash text) Later (May user_id)
      (MayOther user_id) Draws) (.idle repo) moves := by
  refine Interleaving.meets_of_mem fun world move hmove => ?_
  cases move with
  | advance => trivial
  | happen => trivial
  | begin id course =>
    cases course with
    | running => trivial
    | arrived request =>
      have huser := hwhose id request hmove
      have hissues := issues_handle hash text request world.shared
      refine ⟨fun hmine => hissues.imp fun now statement hmay => ⟨?_, ?_⟩, fun hother => hissues.imp fun now statement hmay => ?_⟩
      · exact hmine ▸ huser ▸ hmay.1
      · exact fun hdraws => ⟨request, hmove, hmay.2 hdraws⟩
      · exact ⟨request.user_id, huser ▸ hother, hmay.1⟩

/-- The key of a user of the example. -/
def held (id user_id : Int) : StoredApiKey where
  id := id
  owner_id := DEFAULT_OWNER_ID
  user_id := some user_id
  name := "key"
  enabled := true
  allowed_models := []
  allowed_tags := []
  quota := 0
  used_quota := 0
  budget := 0
  used_budget := 0
  expires_at := none
  key_hash := toString id
  key_prefix := "sk-"

/-- While the user 7 creates a key, the user 9 tries to delete the one that 7 has. -/
def crossing : List (Move (machine.Course KeyRequest KeyStatement KeyStatement.Reply GatewayError KeyAnswer) (Option GatewayError) KeyChange) :=
  [.begin 0 (.arrived ⟨7, .active, .create_key { name := "new" } "sk-refract-1"⟩), .begin 1 (.arrived ⟨9, .active, .delete_key 1⟩),
    .advance 0 none, .advance 1 none, .advance 0 none, .advance 1 none, .happen (.record_usage 1 5 0), .advance 0 none, .advance 0 none]

end Keys

end refract.gateway.me
