import Mathlib.Logic.Function.Basic
import Refract.Machine.Rows

open refract.machine

namespace refract.store

inductive LedgerKind where
  | topup
  | charge
  | refund
  | adjust
  deriving DecidableEq, Repr

/-- What a statement can fail with. The text stands for a failure of the
    database itself. -/
inductive SqlError where
  | unique_violation
  | foreign_key_violation
  | database (message : String)
  deriving DecidableEq, Repr

inductive StoreError where
  | sql (error : SqlError)
  | not_found (entity : String) (id : Int)
  | invalid (message : String)
  | encryption (message : String)
  deriving DecidableEq, Repr

structure LedgerEntry (α : Type) where
  id : Nat
  user_id : Int
  delta : α
  balance_after : α
  kind : LedgerKind
  ref_id : Option String
  note : String
  deriving DecidableEq, Repr

/-- The tables of the wallets. The ledger is in the order of its keys, the next
    of which is `next_id`. -/
structure Tables (α : Type) where
  users : Int → Bool
  wallets : Int → Option α
  ledger : List (LedgerEntry α)
  next_id : Nat

/-- The statements of one wallet operation. -/
inductive Statement where
  | begin
  | insert_wallet
  | update_balance
  | insert_ledger
  | commit
  deriving DecidableEq, Repr

/-- Which statements the database itself fails, and how. -/
abbrev Faults := Statement → Option String

namespace Tables

variable {α : Type} [AddCommGroup α] (db : Tables α)

/-- A statement, unless the database fails it. -/
def attempt {β : Type} (faults : Faults) (statement : Statement) (result : Except SqlError β) : Except SqlError β :=
  match faults statement with
  | some message => .error (.database message)
  | none => result

/-- `INSERT OR IGNORE INTO wallets (user_id) VALUES (?)` -/
def insert_wallet (user_id : Int) : Except SqlError (Tables α) :=
  if (db.wallets user_id).isSome then .ok db
  else if db.users user_id then .ok { db with wallets := Function.update db.wallets user_id (some 0) }
  else .error .foreign_key_violation

/-- `UPDATE wallets SET balance = balance + ? WHERE user_id = ? RETURNING balance` -/
def update_balance (user_id : Int) (delta : α) : Option (α × Tables α) :=
  (db.wallets user_id).map fun balance =>
    (balance + delta, { db with wallets := Function.update db.wallets user_id (some (balance + delta)) })

/-- The row that `idx_ledger_idem` keeps from being written twice. -/
def recorded (user_id : Int) (kind : LedgerKind) (ref_id : Option String) : Bool :=
  ref_id.isSome && db.ledger.any fun entry => entry.user_id = user_id ∧ entry.kind = kind ∧ entry.ref_id = ref_id

/-- `INSERT INTO wallet_ledger (user_id, delta, balance_after, kind, ref_id, note)` -/
def insert_ledger (user_id : Int) (delta balance : α) (kind : LedgerKind) (ref_id : Option String) (note : String) :
    Except SqlError (Tables α) :=
  if db.recorded user_id kind ref_id then .error .unique_violation
  else if db.users user_id then
    .ok { db with
      ledger := db.ledger ++ [⟨db.next_id, user_id, delta, balance, kind, ref_id, note⟩]
      next_id := db.next_id + 1 }
  else .error .foreign_key_violation

/-- A wallet operation. Its transaction is rolled back unless it comes to its
    commit. -/
def apply (faults : Faults) (user_id : Int) (delta : α) (kind : LedgerKind) (ref_id : Option String) (note : String) :
    Except StoreError Bool × Tables α :=
  match attempt faults .begin (.ok ()) with
  | .error error => (.error (.sql error), db)
  | .ok () =>
  match attempt faults .insert_wallet (db.insert_wallet user_id) with
  | .error error => (.error (.sql error), db)
  | .ok opened =>
  match attempt faults .update_balance (.ok (opened.update_balance user_id delta)) with
  | .error error => (.error (.sql error), db)
  | .ok none => (.error (.not_found "wallet" user_id), db)
  | .ok (some (balance, updated)) =>
  match attempt faults .insert_ledger (updated.insert_ledger user_id delta balance kind ref_id note) with
  | .error .unique_violation => (.ok false, db)
  | .error error => (.error (.sql error), db)
  | .ok written =>
  match attempt faults .commit (.ok ()) with
  | .error error => (.error (.sql error), db)
  | .ok () => (.ok true, written)

/-- The row that a reader of the wallet adds where there is none. -/
def ensure_row (faults : Faults) (user_id : Int) : Except StoreError Unit × Tables α :=
  match attempt faults .insert_wallet (db.insert_wallet user_id) with
  | .error error => (.error (.sql error), db)
  | .ok opened => (.ok (), opened)

def create_user (user_id : Int) : Tables α := { db with users := Function.update db.users user_id true }

/-- The stored balance, which is zero before the wallet has its row. -/
def balance (user_id : Int) : α := (db.wallets user_id).getD 0

/-- The ledger of one user. -/
def entries (user_id : Int) : List (LedgerEntry α) := db.ledger.filter (·.user_id = user_id)

/-- The tables after a wallet operation has been booked. -/
def booked (user_id : Int) (delta : α) (kind : LedgerKind) (ref_id : Option String) (note : String) : Tables α where
  users := db.users
  wallets := Function.update db.wallets user_id (some (db.balance user_id + delta))
  ledger := db.ledger ++ [⟨db.next_id, user_id, delta, db.balance user_id + delta, kind, ref_id, note⟩]
  next_id := db.next_id + 1

variable {db} {faults : Faults} {user_id : Int} {delta : α} {kind : LedgerKind} {ref_id : Option String} {note : String}

theorem attempt_ok {β : Type} {statement : Statement} {result : Except SqlError β} {value : β}
    (hattempt : attempt faults statement result = .ok value) : result = .ok value := by
  unfold attempt at hattempt
  split at hattempt
  · cases hattempt
  · exact hattempt

/-- A wallet row is inserted with the balance that was read before. -/
theorem insert_wallet_ok {opened : Tables α} (hinsert : db.insert_wallet user_id = .ok opened) :
    opened = { db with wallets := Function.update db.wallets user_id (some (db.balance user_id)) } := by
  unfold insert_wallet at hinsert
  split at hinsert
  · next hrow =>
    obtain ⟨stored, hstored⟩ := Option.isSome_iff_exists.mp hrow
    obtain rfl := Except.ok.inj hinsert
    have hsame : some (db.balance user_id) = db.wallets user_id := by rw [balance, hstored, Option.getD_some]
    rw [hsame, Function.update_eq_self]
  · next hrow =>
    split at hinsert
    · obtain rfl := Except.ok.inj hinsert
      have hnone : db.wallets user_id = none := by simpa using hrow
      rw [balance, hnone, Option.getD_none]
    · cases hinsert

omit [AddCommGroup α] in
theorem insert_ledger_ok {balance : α} {written : Tables α}
    (hinsert : db.insert_ledger user_id delta balance kind ref_id note = .ok written) :
    db.recorded user_id kind ref_id = false ∧
      written = { db with
        ledger := db.ledger ++ [⟨db.next_id, user_id, delta, balance, kind, ref_id, note⟩]
        next_id := db.next_id + 1 } := by
  unfold insert_ledger at hinsert
  split at hinsert
  · cases hinsert
  · next hnew =>
    split at hinsert
    · exact ⟨by simpa using hnew, (Except.ok.inj hinsert).symm⟩
    · cases hinsert

variable (db faults user_id delta kind ref_id note) in
/-- A wallet operation is booked whole, once, or changes nothing. -/
theorem apply_cases :
    (db.apply faults user_id delta kind ref_id note = (.ok true, db.booked user_id delta kind ref_id note) ∧
        db.recorded user_id kind ref_id = false) ∨
      ∃ result, db.apply faults user_id delta kind ref_id note = (result, db) ∧ result ≠ .ok true := by
  unfold apply
  split
  · exact .inr ⟨_, rfl, by simp⟩
  · split
    · exact .inr ⟨_, rfl, by simp⟩
    · next opened hopen =>
      split
      · exact .inr ⟨_, rfl, by simp⟩
      · exact .inr ⟨_, rfl, by simp⟩
      · next balance updated hupdate =>
        split
        · exact .inr ⟨_, rfl, by simp⟩
        · exact .inr ⟨_, rfl, by simp⟩
        · next written hwrite =>
          split
          · exact .inr ⟨_, rfl, by simp⟩
          · left
            obtain rfl := insert_wallet_ok (attempt_ok hopen)
            have hrow := Except.ok.inj (attempt_ok hupdate)
            simp only [update_balance, Function.update_self, Option.map_some, Function.update_idem] at hrow
            obtain ⟨rfl, rfl⟩ := Prod.mk.inj (Option.some.inj hrow)
            obtain ⟨hnew, rfl⟩ := insert_ledger_ok (attempt_ok hwrite)
            exact ⟨rfl, hnew⟩

/-- What a wallet operation that was not booked leaves behind. -/
theorem apply_unchanged (hresult : (db.apply faults user_id delta kind ref_id note).1 ≠ .ok true) :
    (db.apply faults user_id delta kind ref_id note).2 = db := by
  rcases apply_cases db faults user_id delta kind ref_id note with ⟨hbooked, -⟩ | ⟨result, hsame, -⟩
  · exact absurd (congrArg Prod.fst hbooked) hresult
  · exact congrArg Prod.snd hsame

/-- A replay is not booked again. -/
theorem apply_recorded (hrecorded : db.recorded user_id kind ref_id) :
    (db.apply faults user_id delta kind ref_id note).1 ≠ .ok true := by
  rcases apply_cases db faults user_id delta kind ref_id note with ⟨-, hnew⟩ | ⟨result, hsame, hresult⟩
  · rw [hrecorded] at hnew
    cases hnew
  · rw [hsame]
    exact hresult

/-- Every balance is what its ledger adds up to, every ledger runs on from zero,
    and no reference is booked twice. -/
structure Integrity (db : Tables α) : Prop where
  balanced : ∀ user_id, db.balance user_id = ((db.entries user_id).map LedgerEntry.delta).sum
  running : ∀ user_id, Running LedgerEntry.delta LedgerEntry.balance_after 0 (db.entries user_id)
  unique : ∀ user_id kind ref_id, (db.ledger.filter fun entry =>
    entry.user_id = user_id ∧ entry.kind = kind ∧ entry.ref_id = some ref_id).length ≤ 1

end Tables

/-- What may happen to the tables, one statement or transaction after another. -/
inductive Operation (α : Type) where
  | apply (faults : Faults) (user_id : Int) (delta : α) (kind : LedgerKind) (ref_id : Option String) (note : String)
  | ensure_row (faults : Faults) (user_id : Int)
  | create_user (user_id : Int)

namespace Tables

variable {α : Type} [AddCommGroup α] {db : Tables α} {faults : Faults} {user_id : Int} {delta : α} {kind : LedgerKind}
  {ref_id : Option String} {note : String}

def perform (db : Tables α) : Operation α → Tables α
  | .apply faults user_id delta kind ref_id note => (db.apply faults user_id delta kind ref_id note).2
  | .ensure_row faults user_id => (db.ensure_row faults user_id).2
  | .create_user user_id => db.create_user user_id

/-- No wallet and no entry yet. -/
def empty (users : Int → Bool) : Tables α where
  users := users
  wallets _ := none
  ledger := []
  next_id := 1

theorem entries_booked (other : Int) :
    (db.booked user_id delta kind ref_id note).entries other =
      db.entries other ++ if user_id = other then
        [⟨db.next_id, user_id, delta, db.balance user_id + delta, kind, ref_id, note⟩] else [] := by
  by_cases hother : user_id = other <;> simp [entries, booked, hother]

theorem balance_booked (other : Int) :
    (db.booked user_id delta kind ref_id note).balance other =
      db.balance other + if user_id = other then delta else 0 := by
  by_cases hother : user_id = other
  · subst hother
    simp [balance, booked]
  · simp [balance, booked, hother, Function.update_of_ne (Ne.symm hother)]

theorem integrity_empty (users : Int → Bool) : (empty users : Tables α).Integrity where
  balanced _ := rfl
  running _ := trivial
  unique _ _ _ := Nat.zero_le _

theorem Integrity.booked (hdb : db.Integrity) (hnew : db.recorded user_id kind ref_id = false) :
    (db.booked user_id delta kind ref_id note).Integrity where
  balanced other := by
    rw [balance_booked, entries_booked, hdb.balanced]
    by_cases hother : user_id = other <;> simp [hother]
  running other := by
    rw [entries_booked]
    by_cases hother : user_id = other
    · subst hother
      rw [if_pos rfl, running_concat, ← hdb.balanced, zero_add]
      exact ⟨hdb.running user_id, rfl⟩
    · rw [if_neg hother, List.append_nil]
      exact hdb.running other
  unique other other_kind reference := by
    by_cases hsame : user_id = other ∧ kind = other_kind ∧ ref_id = some reference
    · obtain ⟨rfl, rfl, rfl⟩ := hsame
      have hnone : db.ledger.filter (fun entry =>
          entry.user_id = user_id ∧ entry.kind = kind ∧ entry.ref_id = some reference) = [] := by
        rw [List.filter_eq_nil_iff]
        intro entry hentry
        simp only [recorded, Option.isSome_some, Bool.true_and, List.any_eq_false] at hnew
        simpa using hnew entry hentry
      rw [Tables.booked, List.filter_append, hnone, List.nil_append]
      exact List.length_filter_le _ _
    · simpa [Tables.booked, hsame] using hdb.unique other other_kind reference

theorem Integrity.ensure_row (hdb : db.Integrity) : (db.ensure_row faults user_id).2.Integrity := by
  unfold Tables.ensure_row
  split
  · exact hdb
  · next opened hopen =>
    obtain rfl := insert_wallet_ok (attempt_ok hopen)
    have hbalance : ∀ other, (Function.update db.wallets user_id (some (db.balance user_id)) other).getD 0 =
        db.balance other := by
      intro other
      by_cases hother : other = user_id
      · rw [hother, Function.update_self, Option.getD_some]
      · rw [Function.update_of_ne hother, balance]
    exact ⟨fun other => (hbalance other).trans (hdb.balanced other), hdb.running, hdb.unique⟩

theorem Integrity.perform (hdb : db.Integrity) (operation : Operation α) : (db.perform operation).Integrity := by
  cases operation with
  | apply faults user_id delta kind ref_id note =>
    rw [Tables.perform]
    rcases apply_cases db faults user_id delta kind ref_id note with ⟨hbooked, hnew⟩ | ⟨result, hsame, -⟩
    · rw [hbooked]
      exact hdb.booked hnew
    · rw [hsame]
      exact hdb
  | ensure_row faults user_id => exact hdb.ensure_row
  | create_user user_id => exact ⟨hdb.balanced, hdb.running, hdb.unique⟩

theorem Integrity.run (hdb : db.Integrity) (operations : List (Operation α)) :
    (operations.foldl Tables.perform db).Integrity := by
  induction operations generalizing db with
  | nil => exact hdb
  | cons operation operations ih => exact ih (hdb.perform operation)

/-- After any operations the wallets agree with their ledgers, and an operation
    that was not booked, for an error or as a replay, has changed nothing. -/
theorem wallet_ledger_integrity (users : Int → Bool) (operations : List (Operation α)) :
    let db := operations.foldl perform (empty users)
    db.Integrity ∧
      ∀ faults user_id delta kind ref_id note,
        ((db.apply faults user_id delta kind ref_id note).1 ≠ .ok true →
          (db.apply faults user_id delta kind ref_id note).2 = db) ∧
        (db.recorded user_id kind ref_id → (db.apply faults user_id delta kind ref_id note).1 ≠ .ok true) :=
  ⟨(integrity_empty users).run operations, fun _ _ _ _ _ _ => ⟨apply_unchanged, apply_recorded⟩⟩

end Tables

end refract.store
