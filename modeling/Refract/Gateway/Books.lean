import Mathlib.Algebra.Ring.Int.Defs
import Mathlib.Data.UInt
import Mathlib.Tactic.Abel
import Refract.Gateway.Metrics
import Refract.Store.KeyRepo
import Refract.Store.Logs
import Refract.Store.Price

open refract.core refract.json refract.machine refract.store refract.gateway.metrics

namespace refract.gateway.booking

/-- All that is kept of the requests. -/
structure Books where
  prices : List ModelPrice
  metrics : GatewayMetrics
  logs : LogRepo
  keys : KeyRepo
  wallets : Tables ℚ

/-- What is left to do for a request that was answered. -/
inductive Stage where
  | append
  | usage
  | charge
  deriving DecidableEq, Repr

/-- The task that `record` spawns. -/
structure Task where
  entry : store.NewRequestLog
  key_id : Option Int
  tokens : UInt64
  user_id : Option Int
  stage : Stage := .append

/-- What the database does with the next statement of a task. -/
structure Turn where
  now : String
  fails : Bool := false
  wallet : Faults := fun _ => none

/-- What the metrics take of an entry. -/
def measured (entry : store.NewRequestLog) : metrics.NewRequestLog where
  user_id := entry.user_id
  channel_name := entry.channel_name
  inbound_protocol := entry.inbound_protocol
  upstream_protocol := entry.upstream_protocol
  stream := entry.stream
  status := entry.status
  ttfb_ms := entry.ttfb_ms
  duration_ms := entry.duration_ms
  input_tokens := entry.input_tokens
  output_tokens := entry.output_tokens
  retries := entry.retries

def cost_for (prices : List ModelPrice) (model : String) (input_tokens output_tokens cached_tokens cache_write_tokens : UInt64) : ℚ :=
  match price_for prices model with
  | some price => price.cost input_tokens.toFin output_tokens.toFin cached_tokens.toFin cache_write_tokens.toFin
  | none => 0

/-- The entry with its cost at the prices of the moment. -/
def priced (prices : List ModelPrice) (entry : store.NewRequestLog) : store.NewRequestLog :=
  { entry with cost := cost_for prices entry.model entry.input_tokens entry.output_tokens entry.cached_tokens entry.cache_write_tokens }

def Task.to_stage (self : Task) (stage : Stage) : Task := { self with stage }

/-- The next statement of a task, and what it is missing after a failure. -/
def Task.advance (self : Task) (books : Books) (turn : Turn) : Books × List Task × Option Task :=
  match self.stage with
  | .append =>
    let next := some (self.to_stage .usage)
    if turn.fails then (books, [self], next) else ({ books with logs := (books.logs.append turn.now self.entry).2 }, [], next)
  | .usage =>
    let next := some (self.to_stage .charge)
    match self.key_id with
    | some id =>
      if 0 < self.tokens ∨ 0 < self.entry.cost then
        if turn.fails then (books, [self], next)
        else ({ books with keys := books.keys.record_usage id (signed self.tokens) self.entry.cost }, [], next)
      else (books, [], next)
    | none => (books, [], next)
  | .charge =>
    match self.user_id with
    | some user_id =>
      if 0 < self.entry.cost then
        match books.wallets.apply turn.wallet user_id (-self.entry.cost) .charge (some self.entry.request_id) self.entry.model with
        | (.ok _, wallets) => ({ books with wallets }, [], none)
        | (.error _, wallets) => ({ books with wallets, metrics := books.metrics.note_wallet_charge_failure }, [self], none)
      else (books, [], none)
    | none => (books, [], none)

/-- The books, the tasks under way, and what the database failed to take of them. -/
structure World where
  books : Books
  pending : List Task := []
  missed : List Task := []

inductive Move where
  | record (entry : store.NewRequestLog) (key_id : Option Int) (tokens : UInt64) (user_id : Option Int)
  /-- A task takes its next step. -/
  | advance (i : Nat) (turn : Turn)
  | set_prices (prices : List ModelPrice)
  | change_keys (change : KeyChange)
  | change_wallets (operation : Operation ℚ)

variable (floats : Floats) (hash : String → String)

/-- Metrics are counted at once. The rest is done in the background. -/
def Books.record (self : Books) (entry : store.NewRequestLog) (key_id : Option Int) (tokens : UInt64) (user_id : Option Int) : Books × Task :=
  let entry := priced self.prices entry
  ({ self with metrics := self.metrics.observe floats (measured entry) }, { entry, key_id, tokens, user_id })

namespace World

def step (self : World) : Move → World
  | .record entry key_id tokens user_id =>
    let (books, task) := self.books.record floats entry key_id tokens user_id
    { self with books, pending := self.pending ++ [task] }
  | .advance i turn =>
    match self.pending[i]? with
    | none => self
    | some task =>
      let (books, missed, next) := task.advance self.books turn
      { books, pending := self.pending.take i ++ next.toList ++ self.pending.drop (i + 1), missed := self.missed ++ missed }
  | .set_prices prices => { self with books.prices := prices }
  | .change_keys change =>
    match change.commit hash self.books.keys with
    | .ok keys => { self with books.keys := keys }
    | .error _ => self
  | .change_wallets operation => { self with books.wallets := self.books.wallets.perform operation }

end World

section Figures

/-- A number that the metrics count and that the logs tell as well. -/
inductive Figure where
  | requests (protocol : Protocol)
  | failures (protocol : Protocol)
  | transcoded
  | streams
  | input_tokens
  | output_tokens
  | retries
  | channel_requests (channel : String)
  | channel_failures (channel : String)

def Figure.counter : Figure → Counter
  | .requests protocol => .requests protocol
  | .failures protocol => .failures protocol
  | .transcoded => .transcoded
  | .streams => .streams
  | .input_tokens => .input_tokens
  | .output_tokens => .output_tokens
  | .retries => .retries
  | .channel_requests channel => .channel_requests channel
  | .channel_failures channel => .channel_failures channel

/-- The word that a column holds. -/
def unsigned (value : Int) : UInt64 := (Int64.ofInt value).toUInt64

/-- What a row counts for. -/
def Figure.of_row : Figure → RequestLog → UInt64
  | .requests protocol, row => if row.inbound_protocol = protocol.as_str then 1 else 0
  | .failures protocol, row => if row.failed ∧ row.inbound_protocol = protocol.as_str then 1 else 0
  | .transcoded, row => if row.transcoded then 1 else 0
  | .streams, row => if row.stream then 1 else 0
  | .input_tokens, row => unsigned row.input_tokens
  | .output_tokens, row => unsigned row.output_tokens
  | .retries, row => unsigned row.retries
  | .channel_requests channel, row => if row.channel_name = some channel then 1 else 0
  | .channel_failures channel, row => if row.failed ∧ row.channel_name = some channel then 1 else 0

theorem unsigned_signed (n : UInt64) : unsigned (signed n) = n := by
  rw [unsigned, signed, Int64.ofInt_toInt]
  exact UInt64.toUInt64_toInt64 n

/-- The cast keeps what an `i64` can hold. -/
theorem signed_of_lt {n : UInt64} (hn : n.toNat < 9223372036854775808) : signed n = n.toNat := by
  have hhalf : 2 * n.toBitVec.toNat < 2 ^ 64 := by
    rw [UInt64.toNat_toBitVec]
    omega
  exact BitVec.toInt_eq_toNat_of_lt hhalf

theorem unsigned_retries (n : UInt32) : unsigned n.toNat = n.toUInt64 := by
  have hn : n.toUInt64.toNat < 9223372036854775808 := by
    have := n.toNat_lt
    rw [UInt32.toNat_toUInt64]
    omega
  rw [← UInt32.toNat_toUInt64, ← signed_of_lt hn, unsigned_signed]

theorem as_str_inj {protocol other : Protocol} : protocol.as_str = other.as_str ↔ other = protocol := by
  cases protocol <;> cases other <;> decide

theorem row_failed (entry : store.NewRequestLog) (id : Int) (now : String) : (entry.row id now).failed = (measured entry).failed := by
  refine decide_eq_decide.mpr ?_
  change (400 : Int) ≤ entry.status.toNat ↔ _
  rw [UInt16.le_iff_toNat_le]
  exact Int.ofNat_le

theorem observe_figure (floats : Floats) (self : GatewayMetrics) (entry : store.NewRequestLog) (id : Int) (now : String) (figure : Figure) :
    (self.observe floats (measured entry)).counter figure.counter = self.counter figure.counter + figure.of_row (entry.row id now) := by
  have hstep := @counter_step floats self (.observe (measured entry)) figure.counter
  refine hstep.trans (congrArg _ ?_)
  have hfailed := row_failed entry id now
  cases figure with
  | requests protocol => exact if_congr as_str_inj.symm rfl rfl
  | failures protocol =>
    simp only [Figure.of_row, hfailed]
    exact if_congr (and_congr_right fun _ => as_str_inj.symm) rfl rfl
  | channel_failures channel =>
    simp only [Figure.of_row, hfailed]
    rfl
  | input_tokens => exact (unsigned_signed _).symm
  | output_tokens => exact (unsigned_signed _).symm
  | retries => exact (unsigned_retries _).symm
  | transcoded | streams | channel_requests => rfl

theorem note_figure (self : GatewayMetrics) (figure : Figure) :
    self.note_wallet_charge_failure.counter figure.counter = self.counter figure.counter := by
  cases figure <;> rfl

end Figures

section Tallies

/-- A task as the caller of `record` sets it up: for the key and the user of its entry and their
    tokens, which a signed word can hold. -/
structure Task.Called (task : Task) : Prop where
  key_id : task.key_id = task.entry.api_key_id
  user_id : task.user_id = task.entry.user_id
  tokens : task.tokens.toNat = task.entry.input_tokens.toNat + task.entry.output_tokens.toNat
  fits : task.entry.input_tokens.toNat + task.entry.output_tokens.toNat < 9223372036854775808
  cost : 0 ≤ task.entry.cost

/-- The row of a task, but for its key and its time. -/
def Task.row (task : Task) : RequestLog := task.entry.row 0 ""

@[simp] theorem to_stage_stage (task : Task) (stage : Stage) : (task.to_stage stage).stage = stage := rfl

@[simp] theorem to_stage_row (task : Task) (stage : Stage) : (task.to_stage stage).row = task.row := rfl

/-- What is counted in one of the books, and what is counted of the rows, of the tasks under way,
    and of what was missed. -/
structure Tally (M : Type) where
  paid : Books → M
  row : RequestLog → M
  pending : Task → M
  missed : Task → M

variable {M : Type} [AddCommGroup M] (tally : Tally M)

def Tally.balance (world : World) : M :=
  tally.paid world.books + total tally.pending world.pending + total tally.missed world.missed - total tally.row world.books.logs.rows

/-- A task keeps a tally with each of its steps. -/
def Tally.Kept (task : Task) (books after : Books) (missed : List Task) (next : Option Task) : Prop :=
  tally.paid after + total tally.pending next.toList + total tally.missed missed - total tally.row after.logs.rows =
    tally.paid books + tally.pending task - total tally.row books.logs.rows

theorem Tally.balance_advance {tally : Tally M} {world : World} {i : Nat} {task : Task} (htask : world.pending[i]? = some task)
    {after : Books} {missed : List Task} {next : Option Task} (hkept : tally.Kept task world.books after missed next) :
    tally.balance ⟨after, world.pending.take i ++ next.toList ++ world.pending.drop (i + 1), world.missed ++ missed⟩ = tally.balance world := by
  simp only [Tally.balance, total_append, total_at htask]
  calc
    _ = tally.paid after + total tally.pending next.toList + total tally.missed missed - total tally.row after.logs.rows +
          (total tally.pending (world.pending.take i) + total tally.pending (world.pending.drop (i + 1)) +
            total tally.missed world.missed) := by abel
    _ = tally.paid world.books + tally.pending task - total tally.row world.books.logs.rows +
          (total tally.pending (world.pending.take i) + total tally.pending (world.pending.drop (i + 1)) +
            total tally.missed world.missed) := by rw [hkept]
    _ = _ := by abel

end Tallies

section Steps

variable {db : Tables ℚ} {faults : Faults} {user_id : Int} {delta : ℚ} {kind : LedgerKind} {ref_id : Option String} {note : String}

/-- Only a charge that is in the ledger already is taken for a replay. -/
theorem recorded_of_replayed (hreplayed : (db.apply faults user_id delta kind ref_id note).1 = .ok false) :
    db.recorded user_id kind ref_id = true := by
  unfold Tables.apply at hreplayed
  split at hreplayed
  · cases hreplayed
  split at hreplayed
  · cases hreplayed
  next opened hopen =>
    split at hreplayed
    · cases hreplayed
    · cases hreplayed
    next balance updated hupdate =>
      split at hreplayed
      next hinsert =>
        obtain rfl := Tables.insert_wallet_ok (Tables.attempt_ok hopen)
        have hrow := Except.ok.inj (Tables.attempt_ok hupdate)
        simp only [Tables.update_balance, Function.update_self, Option.map_some] at hrow
        obtain ⟨rfl, rfl⟩ := Prod.mk.inj (Option.some.inj hrow)
        unfold Tables.attempt at hinsert
        split at hinsert
        · cases hinsert
        · unfold Tables.insert_ledger at hinsert
          split at hinsert
          · next hrecorded => exact hrecorded
          · split at hinsert <;> cases hinsert
      · cases hreplayed
      · split at hreplayed <;> cases hreplayed

/-- The wallets after a request is charged. -/
def Task.booked (task : Task) (user_id : Int) (wallets : Tables ℚ) : Tables ℚ :=
  wallets.booked user_id (-task.entry.cost) .charge (some task.entry.request_id) task.entry.model

/-- What the next step of a task comes to. -/
inductive Task.Advanced (task : Task) (books : Books) (turn : Turn) : Books → List Task → Option Task → Prop where
  | logged (hstage : task.stage = .append) :
    Advanced task books turn { books with logs := (books.logs.append turn.now task.entry).2 } [] (some (task.to_stage .usage))
  | unlogged (hstage : task.stage = .append) : Advanced task books turn books [task] (some (task.to_stage .usage))
  | used {id : Int} (hstage : task.stage = .usage) (hkey : task.key_id = some id) :
    Advanced task books turn { books with keys := books.keys.record_usage id (signed task.tokens) task.entry.cost } [] (some (task.to_stage .charge))
  | unused {id : Int} (hstage : task.stage = .usage) (hkey : task.key_id = some id) :
    Advanced task books turn books [task] (some (task.to_stage .charge))
  | useless (hstage : task.stage = .usage) (hkey : ∀ id, task.key_id = some id → ¬(0 < task.tokens ∨ 0 < task.entry.cost)) :
    Advanced task books turn books [] (some (task.to_stage .charge))
  | charged {user_id : Int} (hstage : task.stage = .charge) (huser : task.user_id = some user_id) :
    Advanced task books turn { books with wallets := task.booked user_id books.wallets } [] none
  | uncharged {user_id : Int} (hstage : task.stage = .charge) (huser : task.user_id = some user_id) :
    Advanced task books turn { books with metrics := books.metrics.note_wallet_charge_failure } [task] none
  | free (hstage : task.stage = .charge) (hcost : ∀ user_id, task.user_id = some user_id → ¬0 < task.entry.cost) :
    Advanced task books turn books [] none

/-- No request is charged under the name of another. -/
def Unclaimed (wallets : Tables ℚ) (request_id : String) : Prop :=
  ∀ entry ∈ wallets.ledger, entry.kind = .charge → entry.ref_id ≠ some request_id

theorem Unclaimed.not_recorded {wallets : Tables ℚ} {request_id : String} (hunclaimed : Unclaimed wallets request_id) (user_id : Int) :
    wallets.recorded user_id .charge (some request_id) = false := by
  rw [Tables.recorded, Option.isSome_some, Bool.true_and, List.any_eq_false]
  intro entry hentry hsame
  obtain ⟨-, hkind, href⟩ := of_decide_eq_true hsame
  exact hunclaimed entry hentry hkind href

theorem Task.advanced (task : Task) (books : Books) (turn : Turn) (hunclaimed : Unclaimed books.wallets task.entry.request_id) :
    task.Advanced books turn (task.advance books turn).1 (task.advance books turn).2.1 (task.advance books turn).2.2 := by
  unfold Task.advance
  split
  next hstage =>
    cases turn.fails with
    | true => exact .unlogged hstage
    | false => exact .logged hstage
  next hstage =>
    split
    next id hkey =>
      by_cases huse : 0 < task.tokens ∨ 0 < task.entry.cost
      · rw [if_pos huse]
        cases turn.fails with
        | true => exact .unused hstage hkey
        | false => exact .used hstage hkey
      · rw [if_neg huse]
        exact .useless hstage fun _ _ => huse
    next hkey =>
      refine .useless hstage fun id hid => ?_
      rw [hkey] at hid
      cases hid
  next hstage =>
    split
    next user_id huser =>
      by_cases hcost : 0 < task.entry.cost
      · rw [if_pos hcost]
        rcases Tables.apply_cases books.wallets turn.wallet user_id (-task.entry.cost) .charge (some task.entry.request_id)
          task.entry.model with ⟨hbooked, -⟩ | ⟨result, hsame, hresult⟩
        · rw [hbooked]
          exact .charged hstage huser
        · have hreplayed := @recorded_of_replayed books.wallets turn.wallet user_id (-task.entry.cost) .charge
            (some task.entry.request_id) task.entry.model
          rw [hsame] at hreplayed ⊢
          cases result with
          | error => exact .uncharged hstage huser
          | ok booked =>
            cases booked with
            | true => exact absurd rfl hresult
            | false =>
              have hrecorded := hreplayed rfl
              rw [hunclaimed.not_recorded] at hrecorded
              cases hrecorded
      · rw [if_neg hcost]
        exact .free hstage fun _ _ => hcost
    next huser =>
      refine .free hstage fun user_id hid => ?_
      rw [huser] at hid
      cases hid

end Steps

section Measures

variable {M : Type} [AddCommGroup M]

/-- What is counted of the tasks at some stages. -/
def at_stages (stages : List Stage) (f : RequestLog → M) (task : Task) : M := if task.stage ∈ stages then f task.row else 0

/-- What a row adds to the quota that its key has used. -/
def tokens_of (key : Int) (row : RequestLog) : Int := if row.api_key_id = some key then row.input_tokens + row.output_tokens else 0

/-- What a row adds to the budget that its key has used. -/
def cost_of (key : Int) (row : RequestLog) : ℚ := if row.api_key_id = some key then row.cost else 0

/-- What a row takes from the wallet of its user. -/
def charge_of (user_id : Int) (row : RequestLog) : ℚ := if row.user_id = some user_id then row.cost else 0

def row_of (key : Int) (keys : KeyRepo) : Option StoredApiKey := keys.rows.find? (·.id = key)

def quota_of (key : Int) (keys : KeyRepo) : Int := ((row_of key keys).map fun row => row.used_quota).getD 0

def budget_of (key : Int) (keys : KeyRepo) : ℚ := ((row_of key keys).map fun row => row.used_budget).getD 0

/-- What a user has been charged, by the ledger. -/
def charged_to (user_id : Int) (wallets : Tables ℚ) : ℚ :=
  total (fun entry => if entry.user_id = user_id ∧ entry.kind = .charge then -entry.delta else 0) wallets.ledger

/-- The metrics count at once, the logs with the first statement of a task. -/
def figure_tally (figure : Figure) : Tally UInt64 where
  paid books := books.metrics.counter figure.counter
  row := figure.of_row
  pending task := -at_stages [.append] figure.of_row task
  missed task := -at_stages [.append] figure.of_row task

def quota_tally (key : Int) : Tally Int where
  paid books := quota_of key books.keys
  row := tokens_of key
  pending := at_stages [.usage] (tokens_of key)
  missed task := at_stages [.usage] (tokens_of key) task - at_stages [.append] (tokens_of key) task

def budget_tally (key : Int) : Tally ℚ where
  paid books := budget_of key books.keys
  row := cost_of key
  pending := at_stages [.usage] (cost_of key)
  missed task := at_stages [.usage] (cost_of key) task - at_stages [.append] (cost_of key) task

def wallet_tally (user_id : Int) : Tally ℚ where
  paid books := charged_to user_id books.wallets
  row := charge_of user_id
  pending := at_stages [.usage, .charge] (charge_of user_id)
  missed task := at_stages [.charge] (charge_of user_id) task - at_stages [.append] (charge_of user_id) task

/-- The charges that failed are counted. -/
def failure_tally : Tally UInt64 where
  paid books := books.metrics.counter .wallet_charge_failures
  row _ := 0
  pending _ := 0
  missed task := -at_stages [.charge] (fun _ => 1) task

variable {f : RequestLog → M} {stages : List Stage} {task : Task}

theorem row_record_usage {key id : Int} {keys : KeyRepo} {tokens : Int} {cost : ℚ} : row_of key (keys.record_usage id tokens cost) =
    (row_of key keys).map fun row =>
      if row.id = id then { row with used_quota := row.used_quota + tokens, used_budget := row.used_budget + max cost 0 } else row := by
  rw [row_of, row_of, KeyRepo.record_usage, KeyRepo.set_rows, List.find?_map]
  congr 2
  · simp only [decide_eq_true_eq]
  · funext row
    rw [Function.comp_apply]
    split <;> rfl

/-- Usage is counted for the key that it is recorded for. -/
theorem used_of_record_usage {key id : Int} {keys : KeyRepo} {tokens : Int} {cost : ℚ} (hpresent : (row_of key keys).isSome) :
    quota_of key (keys.record_usage id tokens cost) = quota_of key keys + (if id = key then tokens else 0) ∧
      budget_of key (keys.record_usage id tokens cost) = budget_of key keys + if id = key then max cost 0 else 0 := by
  obtain ⟨row, hrow⟩ := Option.isSome_iff_exists.mp hpresent
  have hid : row.id = key := by
    have hfound : decide (row.id = key) = true := @List.find?_some _ (fun row : StoredApiKey => row.id = key) _ _ hrow
    exact of_decide_eq_true hfound
  rw [quota_of, quota_of, budget_of, budget_of, row_record_usage, hrow, Option.map_some, Option.map_some, Option.map_some, hid]
  by_cases hsame : key = id
  · rw [if_pos hsame, if_pos hsame.symm, if_pos hsame.symm]
    exact ⟨rfl, rfl⟩
  · rw [if_neg hsame, if_neg (Ne.symm hsame), if_neg (Ne.symm hsame), add_zero, add_zero]
    exact ⟨rfl, rfl⟩

/-- Tokens that fit are counted as they are. -/
theorem Task.Called.signed_tokens (hcalled : task.Called) : signed task.tokens = task.row.input_tokens + task.row.output_tokens := by
  have htokens := hcalled.tokens
  have hfits := hcalled.fits
  change _ = signed task.entry.input_tokens + signed task.entry.output_tokens
  rw [signed_of_lt (by omega), signed_of_lt (by omega), signed_of_lt (by omega), htokens]
  exact Nat.cast_add _ _

/-- What is recorded of the use of a key is what the row of the request says. -/
theorem Task.Called.tokens_of (hcalled : task.Called) {key id : Int} (hkey : task.key_id = some id) :
    (if id = key then signed task.tokens else 0) = booking.tokens_of key task.row := by
  have hrow : task.row.api_key_id = some id := hcalled.key_id.symm.trans hkey
  rw [booking.tokens_of, hrow, hcalled.signed_tokens]
  exact if_congr Option.some_inj.symm rfl rfl

theorem Task.Called.cost_of (hcalled : task.Called) {key id : Int} (hkey : task.key_id = some id) :
    (if id = key then max task.entry.cost 0 else 0) = booking.cost_of key task.row := by
  have hrow : task.row.api_key_id = some id := hcalled.key_id.symm.trans hkey
  rw [booking.cost_of, hrow, max_eq_left hcalled.cost]
  exact if_congr Option.some_inj.symm rfl rfl

/-- What is not recorded would have added nothing. -/
theorem Task.Called.useless (hcalled : task.Called) (key : Int)
    (hkey : ∀ id, task.key_id = some id → ¬(0 < task.tokens ∨ 0 < task.entry.cost)) :
    booking.tokens_of key task.row = 0 ∧ booking.cost_of key task.row = 0 := by
  by_cases hsame : task.key_id = some key
  · have hrow : task.row.api_key_id = some key := hcalled.key_id.symm.trans hsame
    obtain ⟨htokens, hcost⟩ := not_or.mp (hkey key hsame)
    have hzero : task.tokens = 0 := by
      have := UInt64.lt_iff_toNat_lt.not.mp htokens
      exact UInt64.toNat_inj.mp (by simpa using this)
    rw [booking.tokens_of, booking.cost_of, if_pos hrow, if_pos hrow, ← hcalled.signed_tokens, hzero]
    exact ⟨rfl, le_antisymm (not_lt.mp hcost) hcalled.cost⟩
  · have hrow : task.row.api_key_id ≠ some key := fun hrow => hsame (hcalled.key_id.trans hrow)
    exact ⟨if_neg hrow, if_neg hrow⟩

theorem charged_to_booked {user_id other : Int} {wallets : Tables ℚ} : charged_to user_id (task.booked other wallets) =
    charged_to user_id wallets + if other = user_id then task.entry.cost else 0 := by
  rw [charged_to, charged_to, Task.booked, Tables.booked, total_append, total_cons, total_nil, add_zero, neg_neg]
  simp

theorem Task.Called.charge_of (hcalled : task.Called) {user_id other : Int} (huser : task.user_id = some other) :
    (if other = user_id then task.entry.cost else 0) = booking.charge_of user_id task.row := by
  have hrow : task.row.user_id = some other := hcalled.user_id.symm.trans huser
  rw [booking.charge_of, hrow]
  exact if_congr Option.some_inj.symm rfl rfl

theorem Task.Called.free (hcalled : task.Called) (user_id : Int) (hcost : ∀ user_id, task.user_id = some user_id → ¬0 < task.entry.cost) :
    booking.charge_of user_id task.row = 0 := by
  by_cases hsame : task.user_id = some user_id
  · exact (if_pos (hcalled.user_id.symm.trans hsame)).trans (le_antisymm (not_lt.mp (hcost user_id hsame)) hcalled.cost)
  · exact if_neg fun hrow => hsame (hcalled.user_id.trans hrow)

end Measures

section Kept

variable {task : Task} {books after : Books} {turn : Turn} {missed : List Task} {next : Option Task}

theorem figure_kept (figure : Figure) (hadvanced : task.Advanced books turn after missed next) :
    (figure_tally figure).Kept task books after missed next := by
  have hrow : ∀ id now, figure.of_row (task.entry.row id now) = figure.of_row task.row := by
    intro id now
    cases figure <;> rfl
  cases hadvanced with
  | logged hstage =>
    simp [Tally.Kept, figure_tally, at_stages, hstage, LogRepo.append, hrow]
    abel
  | uncharged hstage => simp [Tally.Kept, figure_tally, at_stages, hstage, note_figure]
  | unlogged hstage | used hstage | unused hstage | useless hstage | charged hstage | free hstage =>
    simp [Tally.Kept, figure_tally, at_stages, hstage]

theorem quota_kept {key : Int} (hcalled : task.Called) (hpresent : (row_of key books.keys).isSome)
    (hadvanced : task.Advanced books turn after missed next) : (quota_tally key).Kept task books after missed next := by
  have hrow : ∀ id now, tokens_of key (task.entry.row id now) = tokens_of key task.row := fun _ _ => rfl
  cases hadvanced with
  | logged hstage =>
    simp [Tally.Kept, quota_tally, at_stages, hstage, LogRepo.append, hrow]
  | used hstage hkey =>
    simp [Tally.Kept, quota_tally, at_stages, hstage, (used_of_record_usage hpresent).1, hcalled.tokens_of hkey]
  | useless hstage hkey => simp [Tally.Kept, quota_tally, at_stages, hstage, (hcalled.useless key hkey).1]
  | unlogged hstage | unused hstage | charged hstage | uncharged hstage | free hstage =>
    simp [Tally.Kept, quota_tally, at_stages, hstage]

theorem budget_kept {key : Int} (hcalled : task.Called) (hpresent : (row_of key books.keys).isSome)
    (hadvanced : task.Advanced books turn after missed next) : (budget_tally key).Kept task books after missed next := by
  have hrow : ∀ id now, cost_of key (task.entry.row id now) = cost_of key task.row := fun _ _ => rfl
  cases hadvanced with
  | logged hstage =>
    simp [Tally.Kept, budget_tally, at_stages, hstage, LogRepo.append, hrow]
  | used hstage hkey =>
    simp [Tally.Kept, budget_tally, at_stages, hstage, (used_of_record_usage hpresent).2, hcalled.cost_of hkey]
  | useless hstage hkey => simp [Tally.Kept, budget_tally, at_stages, hstage, (hcalled.useless key hkey).2]
  | unlogged hstage | unused hstage | charged hstage | uncharged hstage | free hstage =>
    simp [Tally.Kept, budget_tally, at_stages, hstage]

theorem wallet_kept {user_id : Int} (hcalled : task.Called) (hadvanced : task.Advanced books turn after missed next) :
    (wallet_tally user_id).Kept task books after missed next := by
  have hrow : ∀ id now, charge_of user_id (task.entry.row id now) = charge_of user_id task.row := fun _ _ => rfl
  cases hadvanced with
  | logged hstage =>
    simp [Tally.Kept, wallet_tally, at_stages, hstage, LogRepo.append, hrow]
  | charged hstage huser => simp [Tally.Kept, wallet_tally, at_stages, hstage, charged_to_booked, hcalled.charge_of huser]
  | free hstage hcost => simp [Tally.Kept, wallet_tally, at_stages, hstage, hcalled.free user_id hcost]
  | unlogged hstage | used hstage | unused hstage | useless hstage | uncharged hstage =>
    simp [Tally.Kept, wallet_tally, at_stages, hstage]

theorem failure_kept (hadvanced : task.Advanced books turn after missed next) : failure_tally.Kept task books after missed next := by
  cases hadvanced with
  | uncharged hstage =>
    simp [Tally.Kept, failure_tally, at_stages, hstage, GatewayMetrics.note_wallet_charge_failure, GatewayMetrics.counter]
  | logged hstage => simp [Tally.Kept, failure_tally, LogRepo.append]
  | unlogged hstage | used hstage | unused hstage | useless hstage | charged hstage | free hstage =>
    simp [Tally.Kept, failure_tally, at_stages, hstage]

end Kept

section Runs

/-- A request id is new, prices are checked before they are stored, and nobody else writes charges. -/
def World.Allowed (world : World) : Move → Prop
  | .record entry key_id tokens user_id =>
    (key_id = entry.api_key_id ∧ user_id = entry.user_id ∧ tokens.toNat = entry.input_tokens.toNat + entry.output_tokens.toNat ∧
      entry.input_tokens.toNat + entry.output_tokens.toNat < 9223372036854775808) ∧
      Unclaimed world.books.wallets entry.request_id ∧ ∀ task ∈ world.pending, task.entry.request_id ≠ entry.request_id
  | .set_prices prices => ∀ price ∈ prices, price.validate = .ok ()
  | .change_wallets (.apply _ _ _ kind _ _) => kind ≠ .charge
  | _ => True

/-- A key whose use nobody resets. -/
def Move.Leaves (key : Int) : Move → Prop
  | .change_keys (.reset_usage _ id) => id ≠ key
  | .change_keys (.delete _ id) => id ≠ key
  | .change_keys (.record_usage id _ _) => id ≠ key
  | _ => True

structure World.Sound (world : World) : Prop where
  called : ∀ task ∈ world.pending, task.Called
  distinct : (world.pending.map fun task => task.entry.request_id).Nodup
  unclaimed : ∀ task ∈ world.pending, Unclaimed world.books.wallets task.entry.request_id
  prices : ∀ price ∈ world.books.prices, price.validate = .ok ()

variable {floats : Floats} {hash : String → String} {world : World} {move : Move} {M : Type} [AddCommGroup M] {tally : Tally M}

theorem cost_for_nonneg {prices : List ModelPrice} (hprices : ∀ price ∈ prices, price.validate = .ok ()) (model : String)
    (input_tokens output_tokens cached_tokens cache_write_tokens : UInt64) :
    0 ≤ cost_for prices model input_tokens output_tokens cached_tokens cache_write_tokens := by
  have hspecific := most_specific_price_for prices model
  unfold cost_for
  cases hfound : price_for prices model with
  | none => exact le_rfl
  | some price =>
    have hmem : price ∈ prices := by
      rw [hfound] at hspecific
      cases hspecific with
      | named hprice => exact hprice
      | longest hprice => exact hprice
    obtain ⟨hinput, houtput, hcached, hwrite⟩ := ModelPrice.validate_ok (hprices price hmem)
    have hpart : ∀ (count : Nat) {rate : ℚ}, 0 ≤ rate → 0 ≤ (count : ℚ) * rate := fun count _ hrate => mul_nonneg (Nat.cast_nonneg count) hrate
    refine div_nonneg (add_nonneg (add_nonneg (add_nonneg ?_ ?_) ?_) ?_) (by norm_num)
    · exact hpart _ hinput
    · exact hpart _ hcached
    · exact hpart _ hwrite
    · exact hpart _ houtput

theorem Unclaimed.booked {wallets : Tables ℚ} {request_id : String} (hunclaimed : Unclaimed wallets request_id) {user_id : Int} {delta : ℚ}
    {kind : LedgerKind} {ref_id : Option String} {note : String} (hother : kind = .charge → ref_id ≠ some request_id) :
    Unclaimed (wallets.booked user_id delta kind ref_id note) request_id := by
  intro entry hentry hkind
  rcases List.mem_append.mp hentry with hold | hnew
  · exact hunclaimed entry hold hkind
  · obtain rfl := List.mem_singleton.mp hnew
    exact hother hkind

/-- What is done to the wallets by others leaves the charges as they are. -/
theorem perform_cases (wallets : Tables ℚ) (operation : Operation ℚ) :
    (wallets.perform operation).ledger = wallets.ledger ∨ ∃ faults user_id delta kind ref_id note,
      operation = .apply faults user_id delta kind ref_id note ∧ wallets.perform operation = wallets.booked user_id delta kind ref_id note := by
  cases operation with
  | apply faults user_id delta kind ref_id note =>
    rcases Tables.apply_cases wallets faults user_id delta kind ref_id note with ⟨hbooked, -⟩ | ⟨result, hsame, -⟩
    · exact .inr ⟨faults, user_id, delta, kind, ref_id, note, rfl, congrArg Prod.snd hbooked⟩
    · exact .inl (congrArg (fun after => after.2.ledger) hsame)
  | ensure_row faults user_id =>
    left
    change (wallets.ensure_row faults user_id).2.ledger = wallets.ledger
    unfold Tables.ensure_row
    split
    · rfl
    · next opened hopen => rw [Tables.insert_wallet_ok (Tables.attempt_ok hopen)]
  | create_user user_id => exact .inl rfl

theorem charged_to_perform {wallets : Tables ℚ} {operation : Operation ℚ} (hallowed : world.Allowed (.change_wallets operation)) (user_id : Int) :
    charged_to user_id (wallets.perform operation) = charged_to user_id wallets := by
  rcases perform_cases wallets operation with hledger | ⟨faults, other, delta, kind, ref_id, note, rfl, hbooked⟩
  · rw [charged_to, charged_to, hledger]
  · have hkind : kind ≠ .charge := hallowed
    rw [hbooked, charged_to, charged_to, Tables.booked, total_append, total_cons, total_nil, add_zero, if_neg fun hcharge => hkind hcharge.2,
      add_zero]

theorem Unclaimed.perform {wallets : Tables ℚ} {request_id : String} (hunclaimed : Unclaimed wallets request_id) {operation : Operation ℚ}
    (hallowed : world.Allowed (.change_wallets operation)) : Unclaimed (wallets.perform operation) request_id := by
  rcases perform_cases wallets operation with hledger | ⟨faults, other, delta, kind, ref_id, note, rfl, hbooked⟩
  · rw [Unclaimed, hledger]
    exact hunclaimed
  · rw [hbooked]
    exact hunclaimed.booked fun hkind => absurd hkind hallowed

/-- A task that was taken out of the list, and what it left. -/
theorem pending_split {pending : List Task} {i : Nat} {task : Task} (htask : pending[i]? = some task) :
    pending = pending.take i ++ task :: pending.drop (i + 1) := by
  obtain ⟨hi, rfl⟩ := List.getElem?_eq_some_iff.mp htask
  rw [← List.drop_eq_getElem_cons hi, List.take_append_drop]

/-- What a step leaves of a task is for the same request. -/
theorem Task.Advanced.next_eq {task : Task} {books after : Books} {turn : Turn} {missed : List Task} {next : Option Task}
    (hadvanced : task.Advanced books turn after missed next) : ∀ rest ∈ next, ∃ stage, rest = task.to_stage stage := by
  cases hadvanced with
  | logged | unlogged | used | unused | useless =>
    intro rest hrest
    obtain rfl := Option.some.inj hrest
    exact ⟨_, rfl⟩
  | charged | uncharged | free =>
    intro rest hrest
    cases hrest

theorem World.Sound.record (hsound : world.Sound) {entry : store.NewRequestLog} {key_id : Option Int} {tokens : UInt64} {user_id : Option Int}
    (hallowed : world.Allowed (.record entry key_id tokens user_id)) :
    (world.step floats hash (.record entry key_id tokens user_id)).Sound := by
  obtain ⟨⟨hkey, huser, htokens, hfits⟩, hunclaimed, hnew⟩ := hallowed
  refine ⟨fun task htask => ?_, ?_, fun task htask => ?_, hsound.prices⟩
  · rcases List.mem_append.mp htask with hold | hadded
    · exact hsound.called task hold
    · obtain rfl := List.mem_singleton.mp hadded
      exact ⟨hkey, huser, htokens, hfits, cost_for_nonneg hsound.prices _ _ _ _ _⟩
  · change ((world.pending ++ [_]).map fun task : Task => task.entry.request_id).Nodup
    rw [List.map_append, List.map_singleton, List.nodup_append_comm, List.singleton_append, List.nodup_cons]
    refine ⟨fun hmem => ?_, hsound.distinct⟩
    obtain ⟨task, htask, hsame⟩ := List.mem_map.mp hmem
    exact hnew task htask hsame
  · rcases List.mem_append.mp htask with hold | hadded
    · exact hsound.unclaimed task hold
    · obtain rfl := List.mem_singleton.mp hadded
      exact hunclaimed

theorem World.Sound.advance (hsound : world.Sound) (i : Nat) (turn : Turn) : (world.step floats hash (.advance i turn)).Sound := by
  cases htask : world.pending[i]? with
  | none =>
    have hsame : world.step floats hash (.advance i turn) = world := by simp only [World.step, htask]
    rw [hsame]
    exact hsound
  | some task =>
    have hmem : task ∈ world.pending := List.mem_of_getElem? htask
    have hadvanced := task.advanced world.books turn (hsound.unclaimed task hmem)
    have hsplit := pending_split htask
    have hstep : world.step floats hash (.advance i turn) = ⟨(task.advance world.books turn).1,
        world.pending.take i ++ (task.advance world.books turn).2.2.toList ++ world.pending.drop (i + 1),
        world.missed ++ (task.advance world.books turn).2.1⟩ := by simp only [World.step, htask]
    rw [hstep]
    generalize (task.advance world.books turn).1 = after, (task.advance world.books turn).2.1 = missed,
      (task.advance world.books turn).2.2 = next at hadvanced
    have hnext := hadvanced.next_eq
    have hold : ∀ other ∈ world.pending.take i ++ next.toList ++ world.pending.drop (i + 1),
        (∃ stage, other = task.to_stage stage) ∨ other ∈ world.pending := by
      intro other hother
      rcases List.mem_append.mp hother with hbefore | hafter
      · rcases List.mem_append.mp hbefore with htaken | hrest
        · exact .inr (List.mem_of_mem_take htaken)
        · exact .inl (hnext other (Option.mem_toList.mp hrest))
      · exact .inr (List.mem_of_mem_drop hafter)
    have hdistinct := hsound.distinct
    refine ⟨fun other hother => ?_, ?_, fun other hother => ?_, ?_⟩
    · rcases hold other hother with ⟨stage, rfl⟩ | hpending
      · exact { hsound.called task hmem with }
      · exact hsound.called other hpending
    · refine hdistinct.sublist ?_
      conv_rhs => rw [hsplit]
      rw [List.map_append, List.map_append, List.append_assoc, List.map_append, List.map_cons]
      refine (List.Sublist.refl _).append ?_
      cases next with
      | none => exact List.sublist_cons_self _ _
      | some rest =>
        obtain ⟨stage, rfl⟩ := hnext rest rfl
        exact List.Sublist.refl _
    · have hbefore : Unclaimed world.books.wallets other.entry.request_id := by
        rcases hold other hother with ⟨stage, rfl⟩ | hpending
        · exact hsound.unclaimed task hmem
        · exact hsound.unclaimed other hpending
      cases hadvanced with
      | charged hstage huser =>
        rw [hsplit, List.map_append, List.map_cons, List.nodup_middle, List.nodup_cons, ← List.map_append] at hdistinct
        rw [Option.toList_none, List.append_nil] at hother
        refine hbefore.booked fun _ hsame => hdistinct.1 ?_
        rw [Option.some.inj hsame]
        exact List.mem_map_of_mem (f := fun task : Task => task.entry.request_id) hother
      | logged | unlogged | used | unused | useless | uncharged | free => exact hbefore
    · cases hadvanced <;> exact hsound.prices

theorem World.Sound.step (hsound : world.Sound) (hallowed : world.Allowed move) : (world.step floats hash move).Sound := by
  cases move with
  | record entry key_id tokens user_id => exact hsound.record hallowed
  | advance i turn => exact hsound.advance i turn
  | set_prices prices => exact ⟨hsound.called, hsound.distinct, hsound.unclaimed, hallowed⟩
  | change_keys change =>
    simp only [World.step]
    split
    · exact ⟨hsound.called, hsound.distinct, hsound.unclaimed, hsound.prices⟩
    · exact hsound
  | change_wallets operation =>
    exact ⟨hsound.called, hsound.distinct, fun task htask => (hsound.unclaimed task htask).perform hallowed, hsound.prices⟩

/-- A tally that is kept by the steps of tasks, by new requests and by the changes of others is kept
    by every move. -/
structure Tally.Conserved (tally : Tally M) (world : World) (move : Move) : Prop where
  advanced : ∀ task ∈ world.pending, ∀ turn after missed next, task.Advanced world.books turn after missed next →
    tally.Kept task world.books after missed next
  recorded : ∀ floats entry key_id tokens user_id, move = .record entry key_id tokens user_id →
    tally.paid (world.books.record floats entry key_id tokens user_id).1 + tally.pending (world.books.record floats entry key_id tokens user_id).2 =
      tally.paid world.books
  priced : ∀ prices, move = .set_prices prices → tally.paid { world.books with prices } = tally.paid world.books
  keys : ∀ hash change keys, move = .change_keys change → change.commit hash world.books.keys = .ok keys →
    tally.paid { world.books with keys } = tally.paid world.books
  wallets : ∀ operation, move = .change_wallets operation →
    tally.paid { world.books with wallets := world.books.wallets.perform operation } = tally.paid world.books

theorem Tally.Conserved.step (hconserved : tally.Conserved world move) (hsound : world.Sound) :
    tally.balance (world.step floats hash move) = tally.balance world := by
  cases move with
  | record entry key_id tokens user_id =>
    have hrecorded := hconserved.recorded floats entry key_id tokens user_id rfl
    unfold Tally.balance
    rw [← hrecorded]
    change _ + total tally.pending (world.pending ++ [_]) + _ - _ = _
    rw [total_append, total_cons, total_nil, add_zero]
    change tally.paid (world.books.record floats entry key_id tokens user_id).1 +
      (total tally.pending world.pending + tally.pending (world.books.record floats entry key_id tokens user_id).2) +
        total tally.missed world.missed - total tally.row world.books.logs.rows = _
    abel
  | advance i turn =>
    cases htask : world.pending[i]? with
    | none => simp only [World.step, htask]
    | some task =>
      have hmem : task ∈ world.pending := List.mem_of_getElem? htask
      have hadvanced := task.advanced world.books turn (hsound.unclaimed task hmem)
      simp only [World.step, htask]
      exact Tally.balance_advance htask (hconserved.advanced task hmem turn _ _ _ hadvanced)
  | set_prices prices =>
    have hpriced := hconserved.priced prices rfl
    simp only [Tally.balance, World.step, hpriced]
  | change_keys change =>
    simp only [World.step]
    split
    next keys hcommit =>
      have hkeys := hconserved.keys hash change keys rfl hcommit
      simp only [Tally.balance, hkeys]
    · rfl
  | change_wallets operation =>
    have hwallets := hconserved.wallets operation rfl
    simp only [Tally.balance, World.step, hwallets]

theorem figure_conserved (figure : Figure) (world : World) (move : Move) : (figure_tally figure).Conserved world move where
  advanced _ _ _ _ _ _ hadvanced := figure_kept figure hadvanced
  recorded floats entry key_id tokens user_id _ := by
    have hobserved := observe_figure floats world.books.metrics (priced world.books.prices entry) 0 "" figure
    change (world.books.metrics.observe floats (measured (priced world.books.prices entry))).counter figure.counter +
      -figure.of_row ((priced world.books.prices entry).row 0 "") = _
    rw [hobserved]
    exact add_neg_cancel_right _ _
  priced _ _ := rfl
  keys _ _ _ _ _ := rfl
  wallets _ _ := rfl

theorem failure_conserved (world : World) (move : Move) : failure_tally.Conserved world move where
  advanced _ _ _ _ _ _ hadvanced := failure_kept hadvanced
  recorded _ _ _ _ _ _ := add_zero _
  priced _ _ := rfl
  keys _ _ _ _ _ := rfl
  wallets _ _ := rfl

theorem wallet_conserved (user_id : Int) (hsound : world.Sound) (hallowed : world.Allowed move) :
    (wallet_tally user_id).Conserved world move where
  advanced task htask _ _ _ _ hadvanced := wallet_kept (hsound.called task htask) hadvanced
  recorded _ _ _ _ _ _ := add_zero _
  priced _ _ := rfl
  keys _ _ _ _ _ := rfl
  wallets operation hmove := by
    subst hmove
    exact charged_to_perform hallowed user_id

/-- Rows keep their keys when they are changed. -/
theorem row_of_set_rows {key : Int} {keys : KeyRepo} {meant : StoredApiKey → Bool} {change : StoredApiKey → StoredApiKey}
    (hid : ∀ row, (change row).id = row.id) :
    row_of key (keys.set_rows meant change) = (row_of key keys).map fun row => if meant row then change row else row := by
  rw [row_of, row_of, KeyRepo.set_rows, List.find?_map]
  congr 2
  funext row
  rw [Function.comp_apply]
  split
  · rw [hid]
  · rfl

/-- What is counted of the use of a key. -/
def used_of (key : Int) (keys : KeyRepo) : Option (Int × ℚ) := (row_of key keys).map fun row => (row.used_quota, row.used_budget)

theorem used_of_set_rows {key : Int} {keys : KeyRepo} {meant : StoredApiKey → Bool} {change : StoredApiKey → StoredApiKey}
    (hid : ∀ row, (change row).id = row.id)
    (hkept : ∀ row, row.id = key → meant row = true → (change row).used_quota = row.used_quota ∧ (change row).used_budget = row.used_budget) :
    used_of key (keys.set_rows meant change) = used_of key keys := by
  rw [used_of, used_of, row_of_set_rows hid]
  cases hrow : row_of key keys with
  | none => rfl
  | some row =>
    have hkey : decide (row.id = key) = true := @List.find?_some _ (fun row : StoredApiKey => row.id = key) _ _ hrow
    rw [Option.map_some, Option.map_some, Option.map_some]
    split
    · next hmeant =>
      obtain ⟨hquota, hbudget⟩ := hkept row (of_decide_eq_true hkey) hmeant
      rw [hquota, hbudget]
    · rfl

theorem id_of_meant {user_id : Option Int} {id : Int} {row : StoredApiKey} (hmeant : KeyRepo.meant user_id id row = true) : row.id = id := by
  rw [KeyRepo.meant, Bool.and_eq_true, Bool.and_eq_true] at hmeant
  exact of_decide_eq_true hmeant.1.1

/-- Whatever else is done to the keys, what a key has used stays as it is. -/
theorem used_of_commit {key : Int} {keys after : KeyRepo} {change : KeyChange} (hpresent : (row_of key keys).isSome)
    (hleaves : (Move.change_keys change).Leaves key) (hcommit : change.commit hash keys = .ok after) : used_of key after = used_of key keys := by
  cases change with
  | create spec plaintext =>
    change keys.create hash spec plaintext = .ok after at hcommit
    unfold KeyRepo.create at hcommit
    split at hcommit
    · cases hcommit
    split at hcommit
    · cases hcommit
    obtain rfl := Except.ok.inj hcommit
    obtain ⟨row, hrow⟩ := Option.isSome_iff_exists.mp hpresent
    rw [used_of, used_of, hrow, row_of, KeyRepo.insert, List.find?_append, show keys.rows.find? (·.id = key) = some row from hrow]
    rfl
  | update user_id id spec =>
    change keys.update user_id id spec = .ok after at hcommit
    unfold KeyRepo.update at hcommit
    split at hcommit
    · cases hcommit
    obtain rfl := KeyRepo.ensure_affected_ok hcommit
    exact used_of_set_rows (fun _ => rfl) fun _ _ _ => ⟨rfl, rfl⟩
  | reset_usage user_id id =>
    obtain rfl := KeyRepo.ensure_affected_ok hcommit
    exact used_of_set_rows (fun _ => rfl) fun row hkey hmeant => absurd ((id_of_meant hmeant).symm.trans hkey) hleaves
  | set_enabled user_id id enabled =>
    obtain rfl := KeyRepo.ensure_affected_ok hcommit
    exact used_of_set_rows (fun _ => rfl) fun _ _ _ => ⟨rfl, rfl⟩
  | delete user_id id =>
    obtain rfl := KeyRepo.ensure_affected_ok hcommit
    rw [used_of, used_of, row_of, row_of, List.find?_filter]
    congr 2
    funext row
    by_cases hkey : row.id = key
    · have hother : KeyRepo.meant user_id id row = false := by
        by_contra hmeant
        exact hleaves ((id_of_meant (Bool.not_eq_false _ ▸ hmeant)).symm.trans hkey)
      simp [hkey, hother]
    · simp [hkey]
  | record_usage id tokens cost =>
    obtain rfl := Except.ok.inj hcommit
    exact used_of_set_rows (fun _ => rfl) fun row hkey hmeant => absurd ((of_decide_eq_true hmeant).symm.trans hkey) hleaves

theorem quota_conserved {key : Int} (hsound : world.Sound) (hpresent : (row_of key world.books.keys).isSome) (hleaves : move.Leaves key) :
    (quota_tally key).Conserved world move where
  advanced task htask _ _ _ _ hadvanced := quota_kept (hsound.called task htask) hpresent hadvanced
  recorded _ _ _ _ _ _ := add_zero _
  priced _ _ := rfl
  keys hash change keys hmove hcommit := by
    subst hmove
    have hused := congrArg (fun used => (used.map Prod.fst).getD 0) (used_of_commit hpresent hleaves hcommit)
    simp only [used_of, Option.map_map] at hused
    exact hused
  wallets _ _ := rfl

theorem budget_conserved {key : Int} (hsound : world.Sound) (hpresent : (row_of key world.books.keys).isSome) (hleaves : move.Leaves key) :
    (budget_tally key).Conserved world move where
  advanced task htask _ _ _ _ hadvanced := budget_kept (hsound.called task htask) hpresent hadvanced
  recorded _ _ _ _ _ _ := add_zero _
  priced _ _ := rfl
  keys hash change keys hmove hcommit := by
    subst hmove
    have hused := congrArg (fun used => (used.map Prod.snd).getD 0) (used_of_commit hpresent hleaves hcommit)
    simp only [used_of, Option.map_map] at hused
    exact hused
  wallets _ _ := rfl

/-- What a step does to the rows of the keys and of the logs. -/
theorem World.step_rows (hsound : world.Sound) : world.books.logs.rows <+: (world.step floats hash move).books.logs.rows := by
  cases move with
  | record | set_prices | change_wallets => exact List.prefix_rfl
  | advance i turn =>
    simp only [World.step]
    split
    · exact List.prefix_rfl
    next task htask =>
      have hadvanced := task.advanced world.books turn (hsound.unclaimed task (List.mem_of_getElem? htask))
      change _ <+: (task.advance world.books turn).1.logs.rows
      generalize (task.advance world.books turn).1 = after, (task.advance world.books turn).2.1 = missed,
        (task.advance world.books turn).2.2 = next at hadvanced
      cases hadvanced with
      | logged => exact List.prefix_append _ _
      | unlogged | used | unused | useless | charged | uncharged | free => exact List.prefix_rfl
  | change_keys change =>
    simp only [World.step]
    split <;> exact List.prefix_rfl

theorem World.step_present {key : Int} (hsound : world.Sound) (hleaves : move.Leaves key) (hpresent : (row_of key world.books.keys).isSome) :
    (row_of key (world.step floats hash move).books.keys).isSome := by
  cases move with
  | record | set_prices | change_wallets => exact hpresent
  | advance i turn =>
    simp only [World.step]
    split
    · exact hpresent
    next task htask =>
      have hadvanced := task.advanced world.books turn (hsound.unclaimed task (List.mem_of_getElem? htask))
      change (row_of key (task.advance world.books turn).1.keys).isSome
      generalize (task.advance world.books turn).1 = after, (task.advance world.books turn).2.1 = missed,
        (task.advance world.books turn).2.2 = next at hadvanced
      cases hadvanced with
      | used =>
        change (row_of key (world.books.keys.record_usage _ _ _)).isSome
        rw [row_record_usage, Option.isSome_map]
        exact hpresent
      | logged | unlogged | unused | useless | charged | uncharged | free => exact hpresent
  | change_keys change =>
    simp only [World.step]
    split
    next keys hcommit =>
      have hused := congrArg Option.isSome (used_of_commit hpresent hleaves hcommit)
      rw [used_of, used_of, Option.isSome_map, Option.isSome_map] at hused
      exact hused.trans hpresent
    · exact hpresent

variable {start : World} {moves : List Move}

theorem World.Sound.run (hsound : start.Sound) (hallowed : Along (World.step floats hash) World.Allowed start moves) :
    (moves.foldl (World.step floats hash) start).Sound ∧
      start.books.logs.rows <+: (moves.foldl (World.step floats hash) start).books.logs.rows := by
  induction moves generalizing start with
  | nil => exact ⟨hsound, List.prefix_rfl⟩
  | cons move moves ih =>
    obtain ⟨hafter, hrows⟩ := ih (hsound.step hallowed.1) hallowed.2
    exact ⟨hafter, (World.step_rows hsound).trans hrows⟩

/-- A tally is the same at the end of a run. -/
theorem Tally.balance_run (hconserved : ∀ world : World, ∀ move, world.Sound → world.Allowed move → tally.Conserved world move)
    (hsound : start.Sound) (hallowed : Along (World.step floats hash) World.Allowed start moves) :
    tally.balance (moves.foldl (World.step floats hash) start) = tally.balance start := by
  induction moves generalizing start with
  | nil => rfl
  | cons move moves ih =>
    rw [List.foldl_cons, ih (hsound.step hallowed.1) hallowed.2]
    exact (hconserved start move hsound hallowed.1).step hsound

theorem Tally.balance_run_key {key : Int}
    (hconserved : ∀ world : World, ∀ move, world.Sound → (row_of key world.books.keys).isSome → move.Leaves key → tally.Conserved world move)
    (hsound : start.Sound) (hallowed : Along (World.step floats hash) World.Allowed start moves)
    (hpresent : (row_of key start.books.keys).isSome) (hleaves : ∀ move ∈ moves, move.Leaves key) :
    tally.balance (moves.foldl (World.step floats hash) start) = tally.balance start := by
  induction moves generalizing start with
  | nil => rfl
  | cons move moves ih =>
    obtain ⟨hfirst, hrest⟩ := List.forall_mem_cons.mp hleaves
    rw [List.foldl_cons, ih (hsound.step hallowed.1) hallowed.2 (World.step_present hsound hfirst hpresent) hrest]
    exact (hconserved start move hsound hpresent hfirst).step hsound

/-- At rest a tally tells of the rows that were added. -/
theorem Tally.settled {after : World} {new : List RequestLog} (hbalance : tally.balance after = tally.balance start)
    (hstart : start.pending = [] ∧ start.missed = []) (hrest : after.pending = [])
    (hrows : start.books.logs.rows ++ new = after.books.logs.rows) :
    tally.paid after.books + total tally.missed after.missed = tally.paid start.books + total tally.row new := by
  simp only [Tally.balance, hstart.1, hstart.2, hrest, ← hrows, total_append, total_nil, add_zero] at hbalance
  calc
    _ = tally.paid after.books + total tally.missed after.missed - (total tally.row start.books.logs.rows + total tally.row new) +
          (total tally.row start.books.logs.rows + total tally.row new) := by abel
    _ = tally.paid start.books - total tally.row start.books.logs.rows +
          (total tally.row start.books.logs.rows + total tally.row new) := by rw [hbalance]
    _ = _ := by abel

end Runs

section Agreement

/-- What counts of the tasks that the database failed at some stages. -/
def World.missing {M : Type} [AddCommGroup M] (world : World) (stages : List Stage) (f : RequestLog → M) : M :=
  total (at_stages stages f) world.missed

/-- The metrics and the ledger tell of the requests what the logs tell of them, but for the
    statements that the database failed. -/
structure World.Agrees (start world : World) (new : List RequestLog) : Prop where
  logs : start.books.logs.rows ++ new = world.books.logs.rows
  figures : ∀ figure : Figure, world.books.metrics.counter figure.counter =
    start.books.metrics.counter figure.counter + total figure.of_row new + world.missing [.append] figure.of_row
  failures : world.books.metrics.counter .wallet_charge_failures =
    start.books.metrics.counter .wallet_charge_failures + world.missing [.charge] (fun _ => 1)
  wallets : ∀ user_id, charged_to user_id world.books.wallets + world.missing [.charge] (charge_of user_id) =
    charged_to user_id start.books.wallets + total (charge_of user_id) new + world.missing [.append] (charge_of user_id)

/-- So does what a key has used. -/
structure World.AgreesFor (key : Int) (start world : World) (new : List RequestLog) : Prop where
  quota : quota_of key world.books.keys + world.missing [.usage] (tokens_of key) =
    quota_of key start.books.keys + total (tokens_of key) new + world.missing [.append] (tokens_of key)
  budget : budget_of key world.books.keys + world.missing [.usage] (cost_of key) =
    budget_of key start.books.keys + total (cost_of key) new + world.missing [.append] (cost_of key)

variable {floats : Floats} {hash : String → String} {start : World} {moves : List Move}

/-- A key of the user 7. -/
def opened_key : StoredApiKey where
  id := 1
  owner_id := DEFAULT_OWNER_ID
  user_id := some 7
  name := "k"
  enabled := true
  allowed_models := []
  allowed_tags := []
  quota := 0
  used_quota := 0
  budget := 0
  used_budget := 0
  expires_at := none
  key_hash := "h"
  key_prefix := "p"

/-- The user has a key and no wallet yet, and a model has its price. -/
def opened : World where
  books :=
    { prices := [{ pattern := "m", input_per_m := 1, output_per_m := 2, cached_input_per_m := none, cache_write_per_m := none }]
      metrics := {}
      logs := {}
      keys := { rows := [opened_key], next_id := 2 }
      wallets := Tables.empty fun user_id => user_id = 7 }

def asked : store.NewRequestLog :=
  { owner_id := DEFAULT_OWNER_ID, request_id := "r", api_key_id := some 1, user_id := some 7, inbound_protocol := .chat, model := "m",
    input_tokens := 12, output_tokens := 3 }

/-- One request, whose task takes its three steps. -/
def one_request : List Move :=
  [.record asked (some 1) 15 (some 7), .advance 0 { now := "t" }, .advance 0 { now := "t" }, .advance 0 { now := "t" }]

end Agreement

end refract.gateway.booking
