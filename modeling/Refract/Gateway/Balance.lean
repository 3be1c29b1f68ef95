import Refract.Gateway.Cache
import Refract.Machine.Interleaving
import Refract.Machine.Stamped
import Refract.Store.Wallet

open refract.machine refract.router refract.store refract.upstream

namespace refract.gateway

/-- The wallets, with the balances that are cached in front of them. -/
structure Wallets (α : Type) where
  db : Tables α
  /-- The balances that every wallet had before. -/
  past : Int → List α := fun _ => []
  /-- Every balance with the writes that had been made when it was read. -/
  balance_cache : TtlCache Int (Stamped α)
  /-- How many writes of every wallet the cache was told of. -/
  known : Int → Nat := fun _ => 0
  now : Instant := 0

/-- What fails on the way of an operation. -/
structure Disturbance where
  statements : Faults := fun _ => none
  read : Bool := false

/-- An operation on a balance under way. -/
inductive BalanceUse (α : Type) where
  /-- The balance of a caller is asked for. -/
  | check (user_id : Int)
  | missed (user_id : Int)
  | caching (user_id : Int) (balance : Stamped α)
  /-- A request is paid for. -/
  | charge (user_id : Int) (cost : α) (request_id model : String)
  | charged (user_id : Int) (written : Nat)
  | priming (user_id : Int) (written : Nat) (balance : Stamped α)
  /-- An administrator changes the balance. -/
  | adjust (user_id : Int) (delta : α) (kind : LedgerKind) (ref_id : Option String) (note : String)
  | adjusted (user_id : Int) (written : Nat)

namespace Wallets

variable {α : Type} [AddCommGroup α] (self : Wallets α)

def chronicle (user_id : Int) : Chronicle α := ⟨self.past user_id, self.db.balance user_id⟩

/-- A wallet operation, and what is left of the operation that it is part of. -/
def apply (faults : Faults) (user_id : Int) (delta : α) (kind : LedgerKind) (ref_id : Option String) (note : String)
    (next : Nat → BalanceUse α) : Wallets α × Option (BalanceUse α) :=
  match self.db.apply faults user_id delta kind ref_id note with
  | (.ok true, db) =>
    let past := Function.update self.past user_id (self.chronicle user_id).values
    ({ self with db, past }, some (next (past user_id).length))
  | (.ok false, db) => ({ self with db }, some (next (self.past user_id).length))
  | (.error _, db) => ({ self with db }, none)

def insert (user_id : Int) (balance : Stamped α) : Wallets α :=
  { self with balance_cache := self.balance_cache.insert user_id balance self.now }

def invalidate_balance_cache (user_id : Int) : Wallets α :=
  { self with balance_cache := self.balance_cache.invalidate user_id }

/-- The cache was told of a write. -/
def tell (user_id : Int) (written : Nat) : Wallets α :=
  { self with known := Function.update self.known user_id (max (self.known user_id) written) }

omit [AddCommGroup α] in
theorem tell_known (user_id other : Int) (written : Nat) :
    (self.tell user_id written).known other = if other = user_id then max (self.known user_id) written else self.known other :=
  Function.update_apply ..

end Wallets

section System

variable {α : Type} [AddCommGroup α]

def BalanceUse.advance (shared : Wallets α) (use : BalanceUse α) (disturbance : Disturbance) :
    Wallets α × Option (BalanceUse α) :=
  match use with
  | .check user_id =>
    let found := shared.balance_cache.get user_id shared.now
    ({ shared with balance_cache := found.2 }, if found.1.isSome then none else some (.missed user_id))
  | .missed user_id =>
    (shared, if disturbance.read then none else some (.caching user_id (shared.chronicle user_id).latest))
  | .caching user_id balance => (shared.insert user_id balance, none)
  | .charge user_id cost request_id model =>
    shared.apply disturbance.statements user_id (-cost) .charge (some request_id) model (.charged user_id)
  | .charged user_id written =>
    (shared, if disturbance.read then none else some (.priming user_id written (shared.chronicle user_id).latest))
  | .priming user_id written balance => ((shared.insert user_id balance).tell user_id written, none)
  | .adjust user_id delta kind ref_id note =>
    if disturbance.read then (shared, none)
    else shared.apply disturbance.statements user_id delta kind ref_id note (.adjusted user_id)
  | .adjusted user_id written => ((shared.invalidate_balance_cache user_id).tell user_id written, none)

/-- Checks of balances, payments and changes by administrators, each in its own
    time. -/
def balances : Interleaving (Wallets α) (BalanceUse α) Disturbance Nat where
  opens
    | .check _ | .charge .. | .adjust .. => true
    | _ => false
  advance := BalanceUse.advance
  happen shared elapsed := { shared with now := shared.now + elapsed }

/-- No balance is cached that was read before a write that the cache was told
    of. -/
def Timely (world : World (Wallets α) (BalanceUse α)) : Move (BalanceUse α) Disturbance Nat → Prop
  | .advance id _ =>
    match world.pending id with
    | some (.caching user_id balance) | some (.priming user_id _ balance) => world.shared.known user_id ≤ balance.stamp
    | _ => True
  | _ => True

/-- A balance that is found in the cache is one that the wallet had since the last
    write that the cache was told of. -/
def Wallets.Current (shared : Wallets α) (user_id : Int) : Prop :=
  ∀ balance, (shared.balance_cache.get user_id shared.now).1 = some balance →
    ∃ n, shared.known user_id ≤ n ∧ (shared.chronicle user_id).values[n]? = some balance.value

end System

section Coherence

variable {α : Type} [AddCommGroup α] {shared : Wallets α}

/-- No wallet has lost a balance that it had. -/
def Wallets.Leads (before after : Wallets α) : Prop :=
  ∀ user_id, (before.chronicle user_id).Continues (after.chronicle user_id)

/-- What an operation carries along comes from the wallet. -/
def BalanceUse.Genuine (shared : Wallets α) : BalanceUse α → Prop
  | .caching user_id balance => (shared.chronicle user_id).Had balance
  | .charged user_id written | .adjusted user_id written => written ≤ (shared.past user_id).length
  | .priming user_id written balance => (shared.chronicle user_id).Had balance ∧ written ≤ balance.stamp
  | _ => True

/-- What is cached comes from the wallet, and not from before a write that the
    cache was told of. -/
def Wallets.Fresh (shared : Wallets α) : Prop :=
  shared.balance_cache.Forall fun user_id balance =>
    (shared.chronicle user_id).Had balance ∧ shared.known user_id ≤ balance.stamp

structure Wallets.Coherent (world : World (Wallets α) (BalanceUse α)) : Prop where
  fresh : world.shared.Fresh
  genuine : ∀ id use, world.pending id = some use → use.Genuine world.shared

theorem Wallets.Leads.refl (shared : Wallets α) : shared.Leads shared := fun _ => .refl _

theorem BalanceUse.Genuine.leads {after : Wallets α} {use : BalanceUse α} (hgenuine : use.Genuine shared)
    (hleads : shared.Leads after) : use.Genuine after := by
  cases use with
  | check => trivial
  | missed => trivial
  | charge => trivial
  | adjust => trivial
  | caching user_id balance => exact Chronicle.Had.continues hgenuine (hleads user_id)
  | charged user_id written => exact le_trans hgenuine (hleads user_id).past_le
  | adjusted user_id written => exact le_trans hgenuine (hleads user_id).past_le
  | priming user_id written balance => exact ⟨hgenuine.1.continues (hleads user_id), hgenuine.2⟩

namespace Wallets

variable (shared) in
/-- A wallet operation leaves the cache alone, and goes on with the number of the
    writes that there are. -/
theorem apply_spec (faults : Faults) (user_id : Int) (delta : α) (kind : LedgerKind) (ref_id : Option String) (note : String)
    (next : Nat → BalanceUse α) :
    ∃ db past, (shared.apply faults user_id delta kind ref_id note next).1 = { shared with db, past } ∧
      shared.Leads { shared with db, past } ∧
      ∀ use, (shared.apply faults user_id delta kind ref_id note next).2 = some use → use = next (past user_id).length := by
  unfold apply
  rcases shared.db.apply_cases faults user_id delta kind ref_id note with ⟨hbooked, -⟩ | ⟨result, hsame, hresult⟩
  · rw [hbooked]
    refine ⟨_, _, rfl, fun other => ?_, fun use huse => (Option.some.inj huse).symm⟩
    change (shared.chronicle other).Continues ⟨Function.update shared.past user_id (shared.chronicle user_id).values other,
      (shared.db.booked user_id delta kind ref_id note).balance other⟩
    by_cases hother : other = user_id
    · subst hother
      have hwritten : (⟨Function.update shared.past other (shared.chronicle other).values other,
          (shared.db.booked other delta kind ref_id note).balance other⟩ : Chronicle α) =
            (shared.chronicle other).write ((shared.db.booked other delta kind ref_id note).balance other) := by
        rw [Function.update_self, Chronicle.write]
      rw [hwritten]
      exact Chronicle.continues_write _
    · have hsame : (⟨Function.update shared.past user_id (shared.chronicle user_id).values other,
          (shared.db.booked user_id delta kind ref_id note).balance other⟩ : Chronicle α) = shared.chronicle other := by
        rw [Function.update_of_ne hother, Tables.balance_booked, if_neg (Ne.symm hother), add_zero, chronicle]
      rw [hsame]
      exact .refl _
  · rw [hsame]
    cases result with
    | error => exact ⟨_, _, rfl, .refl shared, nofun⟩
    | ok applied =>
      cases applied with
      | true => exact absurd rfl hresult
      | false => exact ⟨_, _, rfl, .refl shared, fun use huse => (Option.some.inj huse).symm⟩

/-- What is cached stays good while the wallets go on. -/
theorem Fresh.leads (hfresh : shared.Fresh) {db : Tables α} {past : Int → List α}
    (hleads : shared.Leads { shared with db, past }) : Fresh { shared with db, past } :=
  hfresh.imp fun user_id _ hcached => ⟨hcached.1.continues (hleads user_id), hcached.2⟩

theorem Fresh.insert (hfresh : shared.Fresh) {user_id : Int} {balance : Stamped α}
    (hhad : (shared.chronicle user_id).Had balance) (htimely : shared.known user_id ≤ balance.stamp) :
    (shared.insert user_id balance).Fresh :=
  TtlCache.Forall.insert hfresh (fun _ _ _ hcached => hcached) ⟨hhad, htimely⟩

/-- A write is made known together with a balance that was read after it. -/
theorem Fresh.prime (hfresh : shared.Fresh) {user_id : Int} {written : Nat} {balance : Stamped α}
    (hhad : (shared.chronicle user_id).Had balance) (hwritten : written ≤ balance.stamp)
    (htimely : shared.known user_id ≤ balance.stamp) : ((shared.insert user_id balance).tell user_id written).Fresh := by
  refine TtlCache.Forall.insert hfresh (fun other cached hother hcached => ⟨hcached.1, ?_⟩) ⟨hhad, ?_⟩
  · rw [tell_known, if_neg hother]
    exact hcached.2
  · rw [tell_known, if_pos rfl]
    exact max_le htimely hwritten

theorem Fresh.invalidate (hfresh : shared.Fresh) (user_id : Int) (written : Nat) :
    ((shared.invalidate_balance_cache user_id).tell user_id written).Fresh := by
  refine TtlCache.Forall.invalidate hfresh fun other cached hother hcached => ⟨hcached.1, ?_⟩
  rw [tell_known, if_neg hother]
  exact hcached.2

variable {world : World (Wallets α) (BalanceUse α)} {id : Nat}

theorem Coherent.set (hcoherent : Coherent world) {after : Wallets α} {next : Option (BalanceUse α)} (hfresh : after.Fresh)
    (hleads : world.shared.Leads after) (hnext : ∀ use, next = some use → use.Genuine after) :
    Coherent (world.set id after next) where
  fresh := hfresh
  genuine other use hpending := by
    rcases World.set_pending_cases hpending with ⟨-, hsame⟩ | ⟨-, hother⟩
    · exact hnext use hsame
    · exact (hcoherent.genuine other use hother).leads hleads

/-- A wallet operation goes on with a write that there was. -/
theorem Coherent.apply (hcoherent : Coherent world) (faults : Faults) (user_id : Int) (delta : α) (kind : LedgerKind)
    (ref_id : Option String) (note : String) {next : Nat → BalanceUse α}
    (hnext : ∀ (after : Wallets α) written, written ≤ (after.past user_id).length → (next written).Genuine after) :
    Coherent (world.set id (world.shared.apply faults user_id delta kind ref_id note next).1
      (world.shared.apply faults user_id delta kind ref_id note next).2) := by
  obtain ⟨db, past, hafter, hleads, hgoes⟩ := world.shared.apply_spec faults user_id delta kind ref_id note next
  rw [hafter]
  refine hcoherent.set (hcoherent.fresh.leads hleads) hleads fun use huse => ?_
  rw [hgoes use huse]
  exact hnext _ _ le_rfl

theorem Coherent.advance (hcoherent : Coherent world) {use : BalanceUse α} {disturbance : Disturbance}
    (hpending : world.pending id = some use) (htimely : Timely world (.advance id disturbance)) :
    Coherent (world.set id (use.advance world.shared disturbance).1 (use.advance world.shared disturbance).2) := by
  have hgenuine := hcoherent.genuine id use hpending
  simp only [Timely, hpending] at htimely
  cases use with
  | check user_id =>
    refine hcoherent.set hcoherent.fresh.get (.refl world.shared) fun use huse => ?_
    simp only [BalanceUse.advance] at huse
    split at huse
    · cases huse
    · obtain rfl := Option.some.inj huse
      trivial
  | missed user_id =>
    refine hcoherent.set hcoherent.fresh (.refl world.shared) fun use huse => ?_
    simp only [BalanceUse.advance] at huse
    split at huse
    · cases huse
    · obtain rfl := Option.some.inj huse
      exact Chronicle.had_latest
  | caching user_id balance => exact hcoherent.set (hcoherent.fresh.insert hgenuine htimely) (.refl world.shared) nofun
  | charge user_id cost request_id model =>
    exact hcoherent.apply disturbance.statements user_id (-cost) .charge (some request_id) model fun _ _ hwritten => hwritten
  | charged user_id written =>
    refine hcoherent.set hcoherent.fresh (.refl world.shared) fun use huse => ?_
    simp only [BalanceUse.advance] at huse
    split at huse
    · cases huse
    · obtain rfl := Option.some.inj huse
      exact ⟨Chronicle.had_latest, hgenuine⟩
  | priming user_id written balance =>
    exact hcoherent.set (hcoherent.fresh.prime hgenuine.1 hgenuine.2 htimely) (.refl world.shared) nofun
  | adjust user_id delta kind ref_id note =>
    simp only [BalanceUse.advance]
    split
    · exact hcoherent.set hcoherent.fresh (.refl world.shared) nofun
    · exact hcoherent.apply disturbance.statements user_id delta kind ref_id note fun _ _ hwritten => hwritten
  | adjusted user_id written =>
    exact hcoherent.set (hcoherent.fresh.invalidate user_id written) (.refl world.shared) nofun

theorem Coherent.step (hcoherent : Coherent world) {move : Move (BalanceUse α) Disturbance Nat} (htimely : Timely world move) :
    Coherent (balances.step world move) := by
  rcases balances.step_cases world move with
    hsame | ⟨id, use, rfl, -, hopens, hstep⟩ | ⟨id, use, disturbance, rfl, hpending, hstep⟩ | ⟨elapsed, -, hstep⟩
  · rw [hsame]
    exact hcoherent
  · rw [hstep]
    refine hcoherent.set hcoherent.fresh (.refl world.shared) fun next hnext => ?_
    obtain rfl := Option.some.inj hnext
    cases use with
    | check => trivial
    | charge => trivial
    | adjust => trivial
    | _ => cases hopens
  · rw [hstep]
    exact hcoherent.advance hpending htimely
  · rw [hstep]
    exact ⟨hcoherent.fresh, fun id use hpending => (hcoherent.genuine id use hpending).leads (.refl _)⟩

/-- Of a fresh cache every balance is current. -/
theorem Fresh.current (hfresh : shared.Fresh) (user_id : Int) : shared.Current user_id := by
  intro balance hget
  have hcached := hfresh.of_get hget
  exact ⟨balance.stamp, hcached.2, hcached.1⟩

end Wallets

end Coherence

/-- Whatever operations overlap, a cached balance is one that the wallet had since
    the last write that the cache was told of. -/
theorem balances_current {α : Type} [AddCommGroup α] (db : Tables α) (ttl : Nat) (moves : List (Move (BalanceUse α) Disturbance Nat))
    (htimely : balances.Meets Timely (.idle { db, balance_cache := { ttl } }) moves) (user_id : Int) :
    (balances.run (.idle { db, balance_cache := { ttl } }) moves).shared.Current user_id := by
  have hstart : Wallets.Coherent (World.idle { db, balance_cache := { ttl } }) :=
    ⟨fun _ _ _ hentry => (nomatch hentry), fun _ _ hpending => nomatch hpending⟩
  exact (Interleaving.invariant_run Wallets.Coherent (fun _ _ hcoherent htimely => hcoherent.step htimely)
    hstart htimely).fresh.current user_id

/-- A wallet of ten, and nothing cached. -/
def ten : Wallets ℤ where
  db := { users := fun _ => true, wallets := fun _ => some 10, ledger := [], next_id := 1 }
  balance_cache := { ttl := Duration.from_secs 60 }

/-- A caller's balance is read. -/
def reading : List (Move (BalanceUse ℤ) Disturbance Nat) := [.begin 0 (.check 1), .advance 0 {}, .advance 0 {}]

/-- The whole balance is spent. -/
def spending : List (Move (BalanceUse ℤ) Disturbance Nat) :=
  [.begin 1 (.charge 1 10 "request" "m"), .advance 1 {}, .advance 1 {}, .advance 1 {}]

theorem spending_current : (balances.run (.idle ten) (reading ++ .advance 0 {} :: spending)).shared.Current 1 :=
  balances_current ten.db (Duration.from_secs 60) (reading ++ .advance 0 {} :: spending)
    ⟨trivial, trivial, trivial, le_rfl, trivial, trivial, trivial, Nat.zero_le 1, trivial⟩ 1

/-- The balance that was read is cached after it was spent. -/
theorem late_reading_not_current :
    ¬ ((balances.run (.idle ten) (reading ++ spending ++ [.advance 0 {}])).Quiescent →
      ∀ user_id, (balances.run (.idle ten) (reading ++ spending ++ [.advance 0 {}])).shared.Current user_id) := by
  intro hcurrent
  have hquiescent : (balances.run (.idle ten) (reading ++ spending ++ [.advance 0 {}])).Quiescent := by
    rintro (_ | _ | id)
    · rfl
    · rfl
    · rfl
  obtain ⟨n, hknown, hvalue⟩ := hcurrent hquiescent 1 ⟨10, 0⟩ rfl
  have hvalues : ((balances.run (.idle ten) (reading ++ spending ++ [.advance 0 {}])).shared.chronicle 1).values = [10, 0] := rfl
  have htold : (balances.run (.idle ten) (reading ++ spending ++ [.advance 0 {}])).shared.known 1 = 1 := rfl
  rw [hvalues] at hvalue
  rw [htold] at hknown
  obtain _ | _ | n := n
  · cases hknown
  · cases hvalue
  · cases hvalue

end refract.gateway
