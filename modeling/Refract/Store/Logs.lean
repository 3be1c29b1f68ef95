import Mathlib.Algebra.Group.Prod
import Mathlib.Algebra.Order.Ring.Rat
import Mathlib.Data.String.Basic
import Refract.Core.Override
import Refract.Machine.Interleaving
import Refract.Machine.Rows
import Refract.Store.Wallet

open refract.core refract.machine

namespace refract.store

/-- What is written of a request. -/
structure NewRequestLog where
  owner_id : Int
  request_id : String
  api_key_id : Option Int := none
  user_id : Option Int := none
  channel_id : Option Int := none
  channel_name : Option String := none
  inbound_protocol : Protocol
  upstream_protocol : Protocol := inbound_protocol
  model : String
  upstream_model : String := ""
  stream : Bool := false
  status : UInt16 := 200
  ttfb_ms : Option UInt64 := none
  duration_ms : UInt64 := 0
  input_tokens : UInt64 := 0
  output_tokens : UInt64 := 0
  cached_tokens : UInt64 := 0
  cache_write_tokens : UInt64 := 0
  reasoning_tokens : UInt64 := 0
  retries : UInt32 := 0
  cost : ℚ := 0
  error_kind : Option String := none
  error_message : Option String := none
  credential_hint : Option String := none
  affinity_rule : Option String := none
  request_body : Option String := none
  response_body : Option String := none

/-- Derived from the two protocols, so that it cannot contradict them. -/
def NewRequestLog.transcoded (self : NewRequestLog) : Bool := self.inbound_protocol ≠ self.upstream_protocol

/-- A row of the table. -/
structure RequestLog where
  id : Int
  owner_id : Int
  request_id : String
  created_at : String
  api_key_id : Option Int
  user_id : Option Int
  channel_id : Option Int
  channel_name : Option String
  inbound_protocol : String
  upstream_protocol : String
  transcoded : Bool
  model : String
  upstream_model : String
  stream : Bool
  status : Int
  ttfb_ms : Option Int
  duration_ms : Int
  input_tokens : Int
  output_tokens : Int
  cached_tokens : Int
  cache_write_tokens : Int
  reasoning_tokens : Int
  retries : Int
  cost : ℚ
  error_kind : Option String
  error_message : Option String
  credential_hint : Option String
  affinity_rule : Option String
  request_body : Option String
  response_body : Option String
  deriving DecidableEq, Repr

/-- The columns of a listing, which leaves the bodies out. -/
def RequestLog.summary (self : RequestLog) : RequestLog := { self with request_body := none, response_body := none }

def RequestLog.failed (self : RequestLog) : Bool := 400 ≤ self.status

structure LogFilter where
  model : Option String := none
  channel_id : Option Int := none
  api_key_id : Option Int := none
  user_id : Option Int := none
  request_id : Option String := none
  since : Option String := none
  until_ : Option String := none
  failures_only : Bool := false
  limit : Option Nat := none
  offset : Option Nat := none

/-- What `datetime` tells at a moment: the time, and the time so many hours or days before. -/
structure Datetime where
  now : String
  hours_before : Nat → String
  days_before : Nat → String

/-- The cast `as i64`. -/
def signed (n : UInt64) : Int := n.toInt64.toInt

/-- The row of an entry. -/
def NewRequestLog.row (self : NewRequestLog) (id : Int) (created_at : String) : RequestLog where
  id := id
  owner_id := self.owner_id
  request_id := self.request_id
  created_at := created_at
  api_key_id := self.api_key_id
  user_id := self.user_id
  channel_id := self.channel_id
  channel_name := self.channel_name
  inbound_protocol := self.inbound_protocol.as_str
  upstream_protocol := self.upstream_protocol.as_str
  transcoded := self.transcoded
  model := self.model
  upstream_model := self.upstream_model
  stream := self.stream
  status := self.status.toNat
  ttfb_ms := self.ttfb_ms.map signed
  duration_ms := signed self.duration_ms
  input_tokens := signed self.input_tokens
  output_tokens := signed self.output_tokens
  cached_tokens := signed self.cached_tokens
  cache_write_tokens := signed self.cache_write_tokens
  reasoning_tokens := signed self.reasoning_tokens
  retries := self.retries.toNat
  cost := self.cost
  error_kind := self.error_kind
  error_message := self.error_message
  credential_hint := self.credential_hint
  affinity_rule := self.affinity_rule
  request_body := self.request_body
  response_body := self.response_body

/-- The table, in the order of its keys, and the next key. No key is given twice. -/
structure LogRepo where
  rows : List RequestLog := []
  next_id : Int := 1

/-- How many rows one statement of a prune deletes at most. -/
def BATCH : Nat := 5000

/-- A condition that is left out where no value is given. -/
def optional {α : Type} (given : Option α) (holds : α → Bool) : Bool := given.all holds

def LogFilter.selects (self : LogFilter) (owner_id : Int) (row : RequestLog) : Bool :=
  row.owner_id = owner_id && optional self.model (row.model = ·) && optional self.channel_id (row.channel_id = some ·) &&
    optional self.api_key_id (row.api_key_id = some ·) && optional self.user_id (row.user_id = some ·) &&
    optional self.request_id (row.request_id = ·) && optional self.since (· ≤ row.created_at) &&
    optional self.until_ (row.created_at ≤ ·) && (!self.failures_only || row.failed)

namespace LogRepo

variable (self : LogRepo)

def append (now : String) (entry : NewRequestLog) : Int × LogRepo :=
  (self.next_id, { rows := self.rows ++ [entry.row self.next_id now], next_id := self.next_id + 1 })

/-- The rows that a filter selects, the newest first. -/
def matching (owner_id : Int) (filter : LogFilter) : List RequestLog := (self.rows.filter (filter.selects owner_id)).reverse

/-- How many rows a listing has at most. -/
def page_size (filter : LogFilter) : Nat := min (max (filter.limit.getD 50) 1) 500

def query (owner_id : Int) (filter : LogFilter) : List RequestLog :=
  (page (page_size filter) (filter.offset.getD 0) (self.matching owner_id filter)).map RequestLog.summary

def get (owner_id id : Int) : Except StoreError RequestLog :=
  match self.rows.find? fun row => row.owner_id = owner_id && row.id = id with
  | some row => .ok row
  | none => .error (.not_found "request log" id)

/-- `DELETE FROM request_logs WHERE id IN …` -/
def delete (chosen : List Int) : LogRepo := { self with rows := self.rows.filter fun row => row.id ∉ chosen }

/-- The rows that statistics are made of: those from a time on, of one user where one is given. -/
def scope (owner_id : Int) (user : Option (Option Int)) (since : String) : List RequestLog :=
  self.rows.filter fun row => row.owner_id = owner_id && optional user (row.user_id = ·) && since ≤ row.created_at

end LogRepo

section Statistics

/-- `AVG`, which is `NULL` of no values. -/
def average (values : List Int) : Option ℚ := if values = [] then none else some (total (fun value => (value : ℚ)) values / values.length)

structure StatsSummary where
  requests : Int
  failures : Int
  input_tokens : Int
  output_tokens : Int
  avg_duration_ms : ℚ
  avg_ttfb_ms : Option ℚ
  transcoded : Int
  cost : ℚ

structure ModelStat where
  model : String
  requests : Int
  input_tokens : Int
  output_tokens : Int
  cost : ℚ
  avg_ttfb_ms : Option ℚ
  avg_duration_ms : ℚ
  tokens_per_sec : Option ℚ

structure ChannelStat where
  channel_id : Option Int
  channel_name : String
  requests : Int
  failures : Int
  input_tokens : Int
  output_tokens : Int
  cost : ℚ
  avg_ttfb_ms : Option ℚ
  avg_duration_ms : ℚ

structure TimeBucket where
  bucket : String
  requests : Int
  failures : Int
  input_tokens : Int
  output_tokens : Int
  cost : ℚ

structure KeyUsageStat where
  api_key_id : Int
  requests : Int
  failures : Int
  input_tokens : Int
  output_tokens : Int
  cost : ℚ

variable (rows : List RequestLog)

def failed_in : Int := total (fun row => if row.failed then 1 else 0) rows

/-- `tokens_per_sec`: what is put out by the time that it takes after the first byte. -/
def output_rate : Option ℚ :=
  let millis := total (fun row => max (row.duration_ms - row.ttfb_ms.getD 0) 0) rows
  if millis = 0 then none else some (total RequestLog.output_tokens rows * 1000 / millis)

def StatsSummary.of_rows : StatsSummary where
  requests := rows.length
  failures := failed_in rows
  input_tokens := total RequestLog.input_tokens rows
  output_tokens := total RequestLog.output_tokens rows
  avg_duration_ms := (average (rows.map RequestLog.duration_ms)).getD 0
  avg_ttfb_ms := average (rows.filterMap RequestLog.ttfb_ms)
  transcoded := total (fun row => if row.transcoded then 1 else 0) rows
  cost := total RequestLog.cost rows

def ModelStat.of_rows (model : String) : ModelStat where
  model := model
  requests := rows.length
  input_tokens := total RequestLog.input_tokens rows
  output_tokens := total RequestLog.output_tokens rows
  cost := total RequestLog.cost rows
  avg_ttfb_ms := average (rows.filterMap RequestLog.ttfb_ms)
  avg_duration_ms := (average (rows.map RequestLog.duration_ms)).getD 0
  tokens_per_sec := output_rate rows

def ChannelStat.of_rows (channel : Option Int × Option String) : ChannelStat where
  channel_id := channel.1
  channel_name := channel.2.getD "(未知渠道)"
  requests := rows.length
  failures := failed_in rows
  input_tokens := total RequestLog.input_tokens rows
  output_tokens := total RequestLog.output_tokens rows
  cost := total RequestLog.cost rows
  avg_ttfb_ms := average (rows.filterMap RequestLog.ttfb_ms)
  avg_duration_ms := (average (rows.map RequestLog.duration_ms)).getD 0

def TimeBucket.of_rows (bucket : String) : TimeBucket where
  bucket := bucket
  requests := rows.length
  failures := failed_in rows
  input_tokens := total RequestLog.input_tokens rows
  output_tokens := total RequestLog.output_tokens rows
  cost := total RequestLog.cost rows

def KeyUsageStat.of_rows (api_key_id : Int) : KeyUsageStat where
  api_key_id := api_key_id
  requests := rows.length
  failures := failed_in rows
  input_tokens := total RequestLog.input_tokens rows
  output_tokens := total RequestLog.output_tokens rows
  cost := total RequestLog.cost rows

/-- `strftime` of a time as `datetime` writes it, by the day or by the hour. -/
def strftime (daily : Bool) (created_at : String) : String :=
  if daily then String.ofList (created_at.toList.take 10) else String.ofList (created_at.toList.take 13) ++ ":00"

end Statistics

namespace LogRepo

variable (self : LogRepo) (clock : Datetime) (owner_id : Int) (user : Option (Option Int)) (hours : Nat)

/-- `summary`, and `summary_for_user` where a user is given. -/
def summary : StatsSummary := .of_rows (self.scope owner_id user (clock.hours_before hours))

def by_model (limit : Nat) : List ModelStat :=
  (ranked (fun group => group.2.length) (group_by RequestLog.model (self.scope owner_id user (clock.hours_before hours)))).map
    (fun (model, rows) => .of_rows rows model) |>.take (min (max limit 1) 100)

def by_channel : List ChannelStat :=
  (ranked (fun group => group.2.length) (group_by (fun row => (row.channel_id, row.channel_name))
    (self.scope owner_id user (clock.hours_before hours)))).map fun (channel, rows) => .of_rows rows channel

def timeseries (daily : Bool) : List TimeBucket :=
  (sort_by_key Prod.fst (group_by (fun row => strftime daily row.created_at) (self.scope owner_id user (clock.hours_before hours)))).map
    fun (bucket, rows) => .of_rows rows bucket

def by_key : List KeyUsageStat :=
  (ranked (fun group => group.2.length) (group_by (fun row => row.api_key_id.getD 0)
    ((self.scope owner_id user (clock.hours_before hours)).filter fun row => row.api_key_id.isSome))).map
      fun (api_key_id, rows) => .of_rows rows api_key_id

end LogRepo

section Reports

/-- What a report counts: requests, failures, tokens in and out, and their cost. -/
abbrev Counts : Type := Int × Int × Int × Int × ℚ

def RequestLog.counts (self : RequestLog) : Counts :=
  (1, if self.failed then 1 else 0, self.input_tokens, self.output_tokens, self.cost)

def StatsSummary.counts (self : StatsSummary) : Counts :=
  (self.requests, self.failures, self.input_tokens, self.output_tokens, self.cost)

def ChannelStat.counts (self : ChannelStat) : Counts :=
  (self.requests, self.failures, self.input_tokens, self.output_tokens, self.cost)

def TimeBucket.counts (self : TimeBucket) : Counts :=
  (self.requests, self.failures, self.input_tokens, self.output_tokens, self.cost)

def KeyUsageStat.counts (self : KeyUsageStat) : Counts :=
  (self.requests, self.failures, self.input_tokens, self.output_tokens, self.cost)

/-- The failures of a model are not shown. -/
def ModelStat.counts (self : ModelStat) : Int × Int × Int × ℚ := (self.requests, self.input_tokens, self.output_tokens, self.cost)

/-- The counts but for the failures. -/
def Counts.but_failures (counts : Counts) : Int × Int × Int × ℚ := (counts.1, counts.2.2)

variable {rows : List RequestLog}

theorem total_counts (rows : List RequestLog) :
    total RequestLog.counts rows = (((rows.length : Int), failed_in rows, total RequestLog.input_tokens rows,
      total RequestLog.output_tokens rows, total RequestLog.cost rows) : Counts) := by
  induction rows with
  | nil => rfl
  | cons row rows ih =>
    rw [total_cons, ih, List.length_cons, Nat.cast_succ, add_comm (rows.length : Int)]
    rfl

theorem total_but_failures (rows : List RequestLog) :
    total (fun row => (RequestLog.counts row).but_failures) rows = (total RequestLog.counts rows).but_failures := by
  induction rows with
  | nil => rfl
  | cons row rows ih =>
    rw [total_cons, total_cons, ih]
    rfl

/-- The groups of a report, in any order, count what its rows count. -/
theorem total_of_groups {κ Stat M : Type} [DecidableEq κ] [AddCommMonoid M] {key : RequestLog → κ}
    {groups : List (κ × List RequestLog)} (hgroups : groups.Perm (group_by key rows)) {stat : κ × List RequestLog → Stat}
    {counts : Stat → M} {count : RequestLog → M} (hcounts : ∀ group, counts (stat group) = total count group.2) :
    total counts (groups.map stat) = total count rows := by
  rw [total_map]
  simp only [hcounts]
  rw [total_perm hgroups]
  exact total_group_by key count rows

variable (repo : LogRepo) (clock : Datetime) (owner_id : Int) (user : Option (Option Int)) (hours : Nat)

/-- The rows that a report is made of. -/
def reported : List RequestLog := repo.scope owner_id user (clock.hours_before hours)

/-- The reports of one time agree with each other. -/
structure ReportsAgree : Prop where
  channels : total ChannelStat.counts (repo.by_channel clock owner_id user hours) = (repo.summary clock owner_id user hours).counts
  times : ∀ daily, total TimeBucket.counts (repo.timeseries clock owner_id user hours daily) =
    (repo.summary clock owner_id user hours).counts
  keys : total KeyUsageStat.counts (repo.by_key clock owner_id user hours) +
    total RequestLog.counts ((reported repo clock owner_id user hours).filter fun row => !row.api_key_id.isSome) =
      (repo.summary clock owner_id user hours).counts
  users : user = none → total (fun user => (repo.summary clock owner_id (some user) hours).counts)
    (keys_of RequestLog.user_id (reported repo clock owner_id none hours)) = (repo.summary clock owner_id none hours).counts
  models : ∀ limit, (keys_of RequestLog.model (reported repo clock owner_id user hours)).length ≤ min (max limit 1) 100 →
    total ModelStat.counts (repo.by_model clock owner_id user hours limit) = (repo.summary clock owner_id user hours).counts.but_failures
  busiest : ∀ limit, ∀ row ∈ reported repo clock owner_id user hours,
    (∃ stat ∈ repo.by_model clock owner_id user hours limit, stat.model = row.model) ∨
      (repo.by_model clock owner_id user hours limit).length = min (max limit 1) 100 ∧
        ∀ stat ∈ repo.by_model clock owner_id user hours limit,
          (((reported repo clock owner_id user hours).filter (·.model = row.model)).length : Int) ≤ stat.requests

theorem summary_counts : (repo.summary clock owner_id user hours).counts =
    total RequestLog.counts (reported repo clock owner_id user hours) := (total_counts _).symm

/-- The rows of a user are those of all users that are the user's. -/
theorem reported_of_user (some_user : Option Int) : reported repo clock owner_id (some some_user) hours =
    (reported repo clock owner_id none hours).filter fun row => row.user_id = some_user := by
  rw [reported, reported, LogRepo.scope, LogRepo.scope, List.filter_filter]
  refine List.filter_congr fun row _ => ?_
  simp only [optional, Option.all_some, Option.all_none, Bool.and_true]
  exact Bool.and_right_comm _ _ _ ▸ Bool.and_comm _ _

/-- What a ranking of the models shows, before its length is limited. -/
def ranking : List (String × List RequestLog) :=
  ranked (fun group => group.2.length) (group_by RequestLog.model (reported repo clock owner_id user hours))

theorem by_model_eq (limit : Nat) : repo.by_model clock owner_id user hours limit =
    ((ranking repo clock owner_id user hours).take (min (max limit 1) 100)).map fun (model, rows) => .of_rows rows model :=
  List.map_take.symm

theorem reports_agree : ReportsAgree repo clock owner_id user hours := by
  refine ⟨?_, fun daily => ?_, ?_, fun huser => ?_, fun limit hfew => ?_, fun limit row hrow => ?_⟩
  · rw [summary_counts]
    exact total_of_groups (ranked_perm _ _) fun group => (total_counts group.2).symm
  · rw [summary_counts]
    exact total_of_groups (sort_by_key_perm _ _) fun group => (total_counts group.2).symm
  · have hkeyed : total KeyUsageStat.counts (repo.by_key clock owner_id user hours) =
        total RequestLog.counts ((reported repo clock owner_id user hours).filter fun row => row.api_key_id.isSome) :=
      total_of_groups (ranked_perm _ _) fun group => (total_counts group.2).symm
    rw [summary_counts, hkeyed]
    exact total_filter_add _
  · simp only [summary_counts, reported_of_user]
    exact total_by_key RequestLog.user_id RequestLog.counts (keys_of_nodup _ _) fun row hrow => (mem_keys_of _).mpr ⟨row, hrow, rfl⟩
  · have hlength : (ranking repo clock owner_id user hours).length ≤ min (max limit 1) 100 := by
      rw [ranking, (ranked_perm _ _).length_eq, group_by, List.length_map]
      exact hfew
    rw [by_model_eq, List.take_of_length_le hlength, summary_counts, ← total_but_failures]
    refine total_of_groups (ranked_perm _ _) fun group => ?_
    rw [total_but_failures, total_counts]
    rfl
  · have hgroup : (row.model, (reported repo clock owner_id user hours).filter (·.model = row.model)) ∈
        ranking repo clock owner_id user hours :=
      (ranked_perm _ _).mem_iff.mpr ((mem_group_by _).mpr ⟨⟨row, hrow, rfl⟩, rfl⟩)
    rw [by_model_eq]
    rw [← List.take_append_drop (min (max limit 1) 100) (ranking repo clock owner_id user hours), List.mem_append] at hgroup
    rcases hgroup with hshown | hleft_out
    · exact .inl ⟨_, List.mem_map_of_mem hshown, rfl⟩
    · refine .inr ⟨?_, fun stat hstat => ?_⟩
      · have hlong := List.length_pos_of_mem hleft_out
        rw [List.length_drop] at hlong
        rw [List.length_map, List.length_take]
        omega
      · obtain ⟨group, hshown, rfl⟩ := List.mem_map.mp hstat
        exact Int.ofNat_le.mpr (le_of_left_out (fun group : String × List RequestLog => group.2.length) hshown hleft_out)

end Reports

/-- What is done to the table. A statement of a prune deletes the rows that the database chose. -/
inductive LogStatement where
  | append (now : String) (entry : NewRequestLog)
  | delete (cutoff : String) (chosen : List Int)

namespace LogRepo

def step (self : LogRepo) : LogStatement → LogRepo
  | .append now entry => (self.append now entry).2
  | .delete _ chosen => self.delete chosen

/-- The rows that a prune is to delete. -/
def outdated (self : LogRepo) (cutoff : String) : List RequestLog := self.rows.filter fun row => row.created_at < cutoff

end LogRepo

/-- What `SELECT id … WHERE created_at < ? LIMIT ?` may give, which is in no order. -/
structure LogRepo.Chosen (repo : LogRepo) (cutoff : String) (chosen : List Int) : Prop where
  distinct : chosen.Nodup
  outdated : chosen ⊆ (repo.outdated cutoff).map RequestLog.id
  length : chosen.length = min BATCH (repo.outdated cutoff).length

/-- The clock does not go back, and a prune deletes what it may. -/
def LogRepo.Allowed (repo : LogRepo) : LogStatement → Prop
  | .append now _ => ∀ row ∈ repo.rows, row.created_at ≤ now
  | .delete cutoff chosen => repo.Chosen cutoff chosen

/-- The keys of the rows go up. -/
structure LogRepo.Keyed (repo : LogRepo) : Prop where
  ids : repo.rows.Pairwise fun a b => a.id < b.id
  next : ∀ row ∈ repo.rows, row.id < repo.next_id

/-- So do their times. -/
structure LogRepo.Sound (repo : LogRepo) : Prop extends repo.Keyed where
  times : repo.rows.Pairwise fun a b => a.created_at ≤ b.created_at

namespace LogRepo

variable {repo : LogRepo} {statement : LogStatement} {cutoff : String} {chosen : List Int} {row : RequestLog}

theorem sound_empty : Sound {} := ⟨⟨.nil, by simp⟩, .nil⟩

theorem Keyed.append (hkeyed : repo.Keyed) (now : String) (entry : NewRequestLog) : (repo.append now entry).2.Keyed := by
  refine ⟨?_, fun row hrow => ?_⟩
  · refine List.pairwise_append.mpr ⟨hkeyed.ids, List.pairwise_singleton _ _, fun row hrow new hnew => ?_⟩
    rw [List.mem_singleton.mp hnew]
    exact hkeyed.next row hrow
  · change row.id < repo.next_id + 1
    rcases List.mem_append.mp hrow with hold | hnew
    · have := hkeyed.next row hold
      omega
    · have hid : row.id = repo.next_id := by rw [List.mem_singleton.mp hnew]; rfl
      omega

theorem Keyed.delete (hkeyed : repo.Keyed) (chosen : List Int) : (repo.delete chosen).Keyed :=
  ⟨hkeyed.ids.filter _, fun row hrow => hkeyed.next row (List.mem_of_mem_filter hrow)⟩

theorem Sound.step (hsound : repo.Sound) (hallowed : repo.Allowed statement) : (repo.step statement).Sound := by
  cases statement with
  | append now entry =>
    refine ⟨hsound.toKeyed.append now entry, ?_⟩
    refine List.pairwise_append.mpr ⟨hsound.times, List.pairwise_singleton _ _, fun row hrow new hnew => ?_⟩
    rw [List.mem_singleton.mp hnew]
    exact hallowed row hrow
  | delete cutoff chosen => exact ⟨hsound.toKeyed.delete chosen, hsound.times.filter _⟩

theorem Keyed.ids_nodup (hkeyed : repo.Keyed) : (repo.rows.map RequestLog.id).Nodup :=
  List.pairwise_map.mpr (hkeyed.ids.imp fun hlt => hlt.ne)

/-- A prune deletes what was written before its cutoff. -/
theorem Keyed.outdated_of_chosen (hkeyed : repo.Keyed) (hchosen : repo.Chosen cutoff chosen) (hrow : row ∈ repo.rows)
    (hmem : row.id ∈ chosen) : row.created_at < cutoff := by
  obtain ⟨old, hold, hid⟩ := List.mem_map.mp (hchosen.outdated hmem)
  obtain ⟨hold, hbefore⟩ := List.mem_filter.mp hold
  obtain rfl := List.inj_on_of_nodup_map hkeyed.ids_nodup hold hrow hid
  exact of_decide_eq_true hbefore

end LogRepo

section Reading

variable {repo : LogRepo} {statement : LogStatement} {meanwhile : List LogStatement} {row : RequestLog} {owner_id : Int} {filter : LogFilter}

/-- A row behind which so many rows stand in the table that a filter selects. -/
def LogRepo.Behind (owner_id : Int) (filter : LogFilter) (row : RequestLog) (depth : Nat) (repo : LogRepo) : Prop :=
  ∃ older newer, repo.rows = older ++ row :: newer ∧ (newer.filter (filter.selects owner_id)).length = depth

/-- A listing has the newest rows first. -/
theorem LogRepo.Behind.stands {depth : Nat} (hbehind : repo.Behind owner_id filter row depth) (hselected : filter.selects owner_id row) :
    Stands row depth (repo.matching owner_id filter) := by
  obtain ⟨older, newer, hrows, rfl⟩ := hbehind
  refine ⟨(newer.filter (filter.selects owner_id)).reverse, (older.filter (filter.selects owner_id)).reverse, ?_, List.length_reverse⟩
  rw [LogRepo.matching, hrows, List.filter_append, List.filter_cons_of_pos hselected, List.reverse_append, List.reverse_cons,
    List.append_assoc, List.singleton_append]

/-- A statement that spares the row. -/
def LogStatement.Spares (row : RequestLog) : LogStatement → Prop
  | .append _ _ => True
  | .delete cutoff _ => cutoff ≤ row.created_at

/-- What comes after a row that is spared is spared, and more may come. -/
theorem LogRepo.Behind.step {depth : Nat} (hsound : repo.Sound) (hallowed : repo.Allowed statement) (hspares : statement.Spares row)
    (hbehind : repo.Behind owner_id filter row depth) : ∃ deeper, depth ≤ deeper ∧ (repo.step statement).Behind owner_id filter row deeper := by
  obtain ⟨older, newer, hrows, rfl⟩ := hbehind
  cases statement with
  | append now entry =>
    refine ⟨_, ?_, older, newer ++ [entry.row repo.next_id now], ?_, rfl⟩
    · rw [List.filter_append, List.length_append]
      omega
    · change repo.rows ++ [entry.row repo.next_id now] = _
      rw [hrows, List.append_assoc, List.cons_append]
  | delete cutoff chosen =>
    have htimes := hsound.times
    rw [hrows, List.pairwise_append, List.pairwise_cons] at htimes
    have hkept : ∀ kept ∈ row :: newer, decide (kept.id ∉ chosen) = true := by
      intro kept hkept
      have hlater : row.created_at ≤ kept.created_at := by
        rcases List.mem_cons.mp hkept with rfl | hnewer
        · exact le_rfl
        · exact htimes.2.1.1 kept hnewer
      have hmem : kept ∈ repo.rows := by
        rw [hrows]
        exact List.mem_append_right _ hkept
      exact decide_eq_true fun hchosen => absurd (hsound.outdated_of_chosen hallowed hmem hchosen) (not_lt.mpr (le_trans hspares hlater))
    refine ⟨_, le_rfl, older.filter fun row => row.id ∉ chosen, newer, ?_, rfl⟩
    change repo.rows.filter _ = _
    rw [hrows, List.filter_append, List.filter_eq_self.mpr hkept]

theorem LogRepo.Behind.run {depth : Nat} (hsound : repo.Sound) (hallowed : Along LogRepo.step LogRepo.Allowed repo meanwhile)
    (hspares : ∀ statement ∈ meanwhile, statement.Spares row) (hbehind : repo.Behind owner_id filter row depth) :
    (meanwhile.foldl LogRepo.step repo).Sound ∧
      ∃ deeper, depth ≤ deeper ∧ (meanwhile.foldl LogRepo.step repo).Behind owner_id filter row deeper := by
  induction meanwhile generalizing repo depth with
  | nil => exact ⟨hsound, depth, le_rfl, hbehind⟩
  | cons statement meanwhile ih =>
    obtain ⟨hfirst, hrest⟩ := List.forall_mem_cons.mp hspares
    obtain ⟨deeper, hdeeper, hnext⟩ := hbehind.step hsound hallowed.1 hfirst
    obtain ⟨hafter, deepest, hdeepest, hlast⟩ := ih (hsound.step hallowed.1) hallowed.2 hrest hnext
    exact ⟨hafter, deepest, hdeeper.trans hdeepest, hlast⟩

/-- The listing page after page, and what is done to the table after each page. -/
def LogRepo.read_on (owner_id : Int) (filter : LogFilter) : Nat → LogRepo → List (List LogStatement) → List (List RequestLog)
  | offset, repo, [] => [repo.query owner_id { filter with offset := some offset }]
  | offset, repo, meanwhile :: later =>
    repo.query owner_id { filter with offset := some offset } ::
      read_on owner_id filter (offset + page_size filter) (meanwhile.foldl step repo) later

/-- The tables that the pages are read of. -/
def LogRepo.tables (owner_id : Int) (filter : LogFilter) : LogRepo → List (List LogStatement) → List (List RequestLog)
  | repo, [] => [repo.matching owner_id filter]
  | repo, meanwhile :: later => repo.matching owner_id filter :: tables owner_id filter (meanwhile.foldl step repo) later

theorem LogRepo.read_on_eq (offset : Nat) (repo : LogRepo) (later : List (List LogStatement)) :
    repo.read_on owner_id filter offset later =
      (pages (page_size filter) offset (repo.tables owner_id filter later)).map (List.map RequestLog.summary) := by
  induction later generalizing offset repo with
  | nil => rfl
  | cons meanwhile later ih =>
    rw [read_on, tables, pages, List.map_cons, ih]
    rfl

theorem LogRepo.Behind.sinks {depth : Nat} {later : List (List LogStatement)} (hsound : repo.Sound)
    (hselected : filter.selects owner_id row) (hallowed : Along LogRepo.step LogRepo.Allowed repo later.flatten)
    (hspares : ∀ statement ∈ later.flatten, statement.Spares row) (hbehind : repo.Behind owner_id filter row depth) :
    Sinks row depth (repo.tables owner_id filter later) := by
  induction later generalizing repo depth with
  | nil => exact ⟨depth, le_rfl, hbehind.stands hselected, trivial⟩
  | cons meanwhile later ih =>
    rw [List.flatten_cons] at hallowed hspares
    obtain ⟨hfirst, hrest⟩ := along_append.mp hallowed
    obtain ⟨hspare, hspares⟩ := List.forall_mem_append.mp hspares
    obtain ⟨hafter, deeper, hdeeper, hnext⟩ := hbehind.run hsound hfirst hspare
    exact ⟨depth, le_rfl, hbehind.stands hselected, (ih hafter hrest hspares hnext).weaken hdeeper⟩

/-- Who reads the logs page after page, up to one that is not full, has been given every row that
    was there from the first page on, whatever was written and pruned between the pages. -/
theorem pages_miss_nothing {history : List LogStatement} {later : List (List LogStatement)}
    (hallowed : Along LogRepo.step LogRepo.Allowed {} (history ++ later.flatten))
    (hrow : row ∈ (history.foldl LogRepo.step {}).rows) (hselected : filter.selects owner_id row)
    (hspares : ∀ cutoff chosen, .delete cutoff chosen ∈ later.flatten → cutoff ≤ row.created_at)
    (hshort : ∃ last ∈ ((history.foldl LogRepo.step {}).read_on owner_id filter 0 later).getLast?, last.length < LogRepo.page_size filter) :
    ∃ read ∈ (history.foldl LogRepo.step {}).read_on owner_id filter 0 later, row.summary ∈ read := by
  obtain ⟨hhistory, hlater⟩ := along_append.mp hallowed
  have hsound : (history.foldl LogRepo.step {}).Sound :=
    (hhistory.throughout (fun _ _ hsound hallowed => hsound.step hallowed) LogRepo.sound_empty).finish
  have hspared : ∀ statement ∈ later.flatten, statement.Spares row := by
    intro statement hstatement
    cases statement with
    | append now entry => trivial
    | delete cutoff chosen => exact hspares cutoff chosen hstatement
  obtain ⟨older, newer, hrows⟩ := List.append_of_mem hrow
  have hbehind : (history.foldl LogRepo.step {}).Behind owner_id filter row _ := ⟨older, newer, hrows, rfl⟩
  have hsinks := (hbehind.sinks hsound hselected hlater hspared).weaken (Nat.zero_le _)
  rw [LogRepo.read_on_eq] at hshort ⊢
  obtain ⟨last, hlast, hlt⟩ := hshort
  rw [List.getLast?_map] at hlast
  obtain ⟨read, hread, rfl⟩ := Option.map_eq_some_iff.mp hlast
  obtain ⟨found, hfound, hmem⟩ := hsinks.mem_pages ⟨read, hread, by rwa [List.length_map] at hlt⟩
  exact ⟨_, List.mem_map_of_mem hfound, List.mem_map_of_mem hmem⟩

/-- A log of a request that an owner makes for a model. -/
def logged (model : String) : NewRequestLog := { owner_id := 1, request_id := model, inbound_protocol := .chat, model := model }

/-- A log is deleted and another one written between the first page and the second. -/
theorem pages_miss_nothing_meanwhile :
    ∃ read ∈ ([.append "2024-05-01 10:00:00" (logged "o1"), .append "2024-05-02 10:00:00" (logged "o3"),
        .append "2024-05-02 10:00:00" (logged "o4")].foldl LogRepo.step {}).read_on 1 { limit := some 1 } 0
        [[.delete "2024-05-02 10:00:00" [1], .append "2024-05-02 10:00:01" (logged "o5")], [], []],
      ((logged "o3").row 2 "2024-05-02 10:00:00").summary ∈ read := by
  refine pages_miss_nothing ?_ (List.mem_cons_of_mem _ List.mem_cons_self) rfl ?_ ⟨[], rfl, Nat.one_pos⟩
  · have hfirst : ("2024-05-01 10:00:00" : String) ≤ "2024-05-02 10:00:00" := by decide
    have hlast : ("2024-05-02 10:00:00" : String) ≤ "2024-05-02 10:00:01" := by decide
    refine ⟨fun row hrow => absurd hrow List.not_mem_nil, ?_, ?_, ⟨List.nodup_singleton _, ?_, ?_⟩, ?_, trivial⟩
    · exact List.forall_mem_singleton.mpr hfirst
    · exact List.forall_mem_cons.mpr ⟨hfirst, List.forall_mem_singleton.mpr le_rfl⟩
    · intro id hid
      obtain rfl := List.mem_singleton.mp hid
      exact List.mem_map_of_mem (List.mem_filter.mpr ⟨List.mem_cons_self, by decide⟩)
    · decide
    · exact List.forall_mem_cons.mpr ⟨hlast, List.forall_mem_singleton.mpr hlast⟩
  · intro cutoff chosen hdelete
    have hsame : cutoff = "2024-05-02 10:00:00" ∧ chosen = [1] := by simpa using hdelete
    exact hsame.1.le

end Reading

section Pruning

/-- One statement of a prune, and the logs that are written before its next. -/
structure Batch where
  cutoff : String
  chosen : List Int
  meanwhile : List (String × NewRequestLog) := []

def Batch.written (self : Batch) (repo : LogRepo) : LogRepo :=
  self.meanwhile.foldl (fun repo (now, entry) => (repo.append now entry).2) repo

/-- How many rows a statement deletes. -/
def LogRepo.affected (repo : LogRepo) (chosen : List Int) : Nat := (repo.rows.filter fun row => row.id ∈ chosen).length

/-- The batches of a prune, up to the first that is not full. It is still going on where the batches
    end before. -/
def LogRepo.prune : List Batch → LogRepo → Option (Nat × LogRepo)
  | [], _ => none
  | batch :: later, repo =>
    let affected := repo.affected batch.chosen
    if affected < BATCH then some (affected, repo.delete batch.chosen)
    else (prune later (batch.written (repo.delete batch.chosen))).map fun (total, repo) => (affected + total, repo)

/-- Every statement deletes what it may, and the clock does not go back between them. -/
def LogRepo.Prunable : List Batch → LogRepo → Prop
  | [], _ => True
  | batch :: later, repo =>
    repo.Chosen batch.cutoff batch.chosen ∧ (∀ next ∈ later, batch.cutoff ≤ next.cutoff) ∧
      Prunable later (batch.written (repo.delete batch.chosen))

/-- A prune at once: the rows from a time on are kept. -/
def LogRepo.kept_from (cutoff : String) (repo : LogRepo) : LogRepo := { repo with rows := repo.rows.filter fun row => cutoff ≤ row.created_at }

variable {repo : LogRepo} {batch : Batch} {batches : List Batch} {cutoff : String} {chosen : List Int}

/-- What is written does not depend on the rows that are there. -/
theorem Batch.written_rows (batch : Batch) (repo : LogRepo) :
    ∃ new next, ∀ rows, batch.written { repo with rows := rows } = { rows := rows ++ new, next_id := next } := by
  obtain ⟨_, _, meanwhile⟩ := batch
  suffices hwritten : ∀ next_id : Int, ∃ new next, ∀ rows, (meanwhile.foldl (fun repo (now, entry) => (repo.append now entry).2)
      { rows := rows, next_id := next_id } : LogRepo) = { rows := rows ++ new, next_id := next } from hwritten repo.next_id
  induction meanwhile with
  | nil => exact fun next_id => ⟨[], next_id, fun rows => by rw [List.append_nil]; rfl⟩
  | cons written meanwhile ih =>
    intro next_id
    obtain ⟨new, next, hnew⟩ := ih (next_id + 1)
    refine ⟨written.2.row next_id written.1 :: new, next, fun rows => ?_⟩
    have hrest := hnew (rows ++ [written.2.row next_id written.1])
    rw [List.append_assoc, List.singleton_append] at hrest
    exact hrest

theorem LogRepo.Keyed.written (hkeyed : repo.Keyed) (batch : Batch) : (batch.written repo).Keyed := by
  unfold Batch.written
  exact List.foldlRecOn batch.meanwhile _ hkeyed fun repo hkeyed written _ => hkeyed.append written.1 written.2

/-- As many rows are deleted as were chosen. -/
theorem LogRepo.Keyed.affected (hkeyed : repo.Keyed) (hchosen : repo.Chosen cutoff chosen) :
    repo.affected chosen = chosen.length := by
  have hids : ((repo.rows.filter fun row => row.id ∈ chosen).map RequestLog.id).Nodup :=
    hkeyed.ids_nodup.sublist (List.filter_sublist.map _)
  have hperm : ((repo.rows.filter fun row => row.id ∈ chosen).map RequestLog.id).Perm chosen := by
    refine (List.perm_ext_iff_of_nodup hids hchosen.distinct).mpr fun id => ?_
    rw [List.mem_map]
    constructor
    · rintro ⟨row, hrow, rfl⟩
      exact of_decide_eq_true (List.mem_filter.mp hrow).2
    · intro hid
      obtain ⟨old, hold, rfl⟩ := List.mem_map.mp (hchosen.outdated hid)
      exact ⟨old, List.mem_filter.mpr ⟨List.mem_of_mem_filter hold, decide_eq_true hid⟩, rfl⟩
  rw [LogRepo.affected, ← hperm.length_eq, List.length_map]

/-- A batch that is not full leaves nothing that is outdated. -/
theorem LogRepo.Keyed.delete_rest (hkeyed : repo.Keyed) (hchosen : repo.Chosen cutoff chosen) (hfew : repo.affected chosen < BATCH) :
    repo.affected chosen = (repo.outdated cutoff).length ∧ repo.delete chosen = repo.kept_from cutoff := by
  have haffected := hkeyed.affected hchosen
  have hlength := hchosen.length
  refine ⟨by omega, ?_⟩
  have hids : ((repo.outdated cutoff).map RequestLog.id).Nodup := hkeyed.ids_nodup.sublist (List.filter_sublist.map _)
  have hperm : chosen.Perm ((repo.outdated cutoff).map RequestLog.id) := by
    refine (List.subperm_of_subset hchosen.distinct hchosen.outdated).perm_of_length_le ?_
    rw [List.length_map]
    omega
  have hrows : repo.rows.filter (fun row => row.id ∉ chosen) = repo.rows.filter fun row => cutoff ≤ row.created_at := by
    refine List.filter_congr fun row hrow => decide_eq_decide.mpr ?_
    rw [← not_lt, not_iff_not]
    constructor
    · exact hkeyed.outdated_of_chosen hchosen hrow
    · intro hbefore
      exact hperm.mem_iff.mpr (List.mem_map_of_mem (List.mem_filter.mpr ⟨hrow, decide_eq_true hbefore⟩))
  rw [LogRepo.delete, LogRepo.kept_from, hrows]

/-- The one table is the other without some rows, each of them from before a time. -/
structure LogRepo.Ahead (since : String) (deleted : Nat) (left right : LogRepo) : Prop where
  next_id : left.next_id = right.next_id
  length : right.rows.length = deleted + left.rows.length
  kept : ∀ cutoff, since ≤ cutoff → left.kept_from cutoff = right.kept_from cutoff
  outdated : ∀ cutoff, since ≤ cutoff → (right.outdated cutoff).length = deleted + (left.outdated cutoff).length

theorem LogRepo.Keyed.ahead_delete (hkeyed : repo.Keyed) (hchosen : repo.Chosen cutoff chosen) :
    Ahead cutoff (repo.affected chosen) (repo.delete chosen) repo := by
  have hsplit : ∀ rows : List RequestLog, rows.length =
      (rows.filter fun row => row.id ∈ chosen).length + (rows.filter fun row => row.id ∉ chosen).length := by
    intro rows
    simp only [decide_not]
    exact List.length_eq_length_filter_add _
  refine ⟨rfl, hsplit repo.rows, fun later hlater => ?_, fun later hlater => ?_⟩
  · have hrows : (repo.rows.filter fun row => row.id ∉ chosen).filter (fun row => later ≤ row.created_at) =
        repo.rows.filter fun row => later ≤ row.created_at := by
      rw [List.filter_filter]
      refine List.filter_congr fun row hrow => ?_
      by_cases hkept : later ≤ row.created_at
      · have hspared : row.id ∉ chosen := fun hmem =>
          absurd (hkeyed.outdated_of_chosen hchosen hrow hmem) (not_lt.mpr (hlater.trans hkept))
        rw [decide_eq_true hkept, decide_eq_true hspared, Bool.and_self]
      · rw [decide_eq_false hkept, Bool.false_and]
    rw [kept_from, kept_from, LogRepo.delete, hrows]
  · have hrows : (repo.outdated later).filter (fun row => row.id ∈ chosen) = repo.rows.filter fun row => row.id ∈ chosen := by
      rw [LogRepo.outdated, List.filter_filter]
      refine List.filter_congr fun row hrow => ?_
      by_cases hmem : row.id ∈ chosen
      · have hbefore := (hkeyed.outdated_of_chosen hchosen hrow hmem).trans_le hlater
        rw [decide_eq_true hmem, decide_eq_true hbefore, Bool.and_self]
      · rw [decide_eq_false hmem, Bool.false_and]
    rw [hsplit (repo.outdated later), hrows, LogRepo.outdated, List.filter_filter, LogRepo.delete, LogRepo.outdated, List.filter_filter]
    simp only [Bool.and_comm, LogRepo.affected]

theorem LogRepo.Ahead.written {since : String} {deleted : Nat} {left right : LogRepo} (hahead : Ahead since deleted left right)
    (batch : Batch) : Ahead since deleted (batch.written left) (batch.written right) := by
  obtain ⟨new, next, hwritten⟩ := batch.written_rows right
  have hleft : batch.written left = { rows := left.rows ++ new, next_id := next } := by
    rw [← hwritten left.rows, ← hahead.next_id]
  have hright : batch.written right = { rows := right.rows ++ new, next_id := next } := hwritten right.rows
  rw [hleft, hright]
  refine ⟨rfl, ?_, fun later hlater => ?_, fun later hlater => ?_⟩
  · rw [List.length_append, List.length_append, hahead.length, add_assoc]
  · have hkept := congrArg LogRepo.rows (hahead.kept later hlater)
    simp only [kept_from] at hkept
    simp only [kept_from, List.filter_append, hkept]
  · have hold := hahead.outdated later hlater
    simp only [LogRepo.outdated] at hold
    simp only [LogRepo.outdated, List.filter_append, List.length_append, hold, add_assoc]

/-- The table with all that is written between the batches, if no batch deletes anything. -/
def written_by (batches : List Batch) (repo : LogRepo) : LogRepo := batches.foldl (fun repo batch => batch.written repo) repo

theorem LogRepo.Ahead.written_by {since : String} {deleted : Nat} {left right : LogRepo} (hahead : Ahead since deleted left right)
    (batches : List Batch) : Ahead since deleted (written_by batches left) (written_by batches right) := by
  induction batches generalizing left right with
  | nil => exact hahead
  | cons batch batches ih => exact ih (hahead.written batch)

theorem LogRepo.Keyed.prune_ends (hkeyed : repo.Keyed) (hprunable : Prunable batches repo) {pruned : Nat} {after : LogRepo}
    (hends : prune batches repo = some (pruned, after)) :
    ∃ made last rest, batches = made ++ last :: rest ∧ after = (store.written_by made repo).kept_from last.cutoff ∧
      pruned = ((store.written_by made repo).outdated last.cutoff).length := by
  induction batches generalizing repo pruned after with
  | nil => cases hends
  | cons batch later ih =>
    obtain ⟨hchosen, hcutoffs, hlater⟩ := hprunable
    simp only [prune] at hends
    split at hends
    · next hfew =>
      obtain ⟨rfl, rfl⟩ := Prod.mk.inj (Option.some.inj hends)
      obtain ⟨hcount, hdelete⟩ := hkeyed.delete_rest hchosen hfew
      exact ⟨[], batch, later, rfl, hdelete, hcount⟩
    · obtain ⟨⟨rest_pruned, rest_after⟩, hrest, hsame⟩ := Option.map_eq_some_iff.mp hends
      obtain ⟨rfl, rfl⟩ := Prod.mk.inj hsame
      obtain ⟨made, last, rest, rfl, rfl, rfl⟩ := ih ((hkeyed.delete batch.chosen).written batch) hlater hrest
      have hahead := ((hkeyed.ahead_delete hchosen).written batch).written_by made
      have hcutoff := hcutoffs last (List.mem_append_right _ List.mem_cons_self)
      exact ⟨batch :: made, last, rest, rfl, hahead.kept last.cutoff hcutoff, (hahead.outdated last.cutoff hcutoff).symm⟩

/-- Every full batch takes its share of the rows. -/
theorem LogRepo.Keyed.prune_goes_on (hkeyed : repo.Keyed) (hprunable : Prunable batches repo) (hgoes_on : prune batches repo = none) :
    batches.length * BATCH ≤ (store.written_by batches repo).rows.length := by
  induction batches generalizing repo with
  | nil => exact (Nat.zero_mul _).trans_le (Nat.zero_le _)
  | cons batch later ih =>
    obtain ⟨hchosen, hcutoffs, hlater⟩ := hprunable
    simp only [prune] at hgoes_on
    split at hgoes_on
    · cases hgoes_on
    · next hfull =>
      have hrest := ih ((hkeyed.delete batch.chosen).written batch) hlater (Option.map_eq_none_iff.mp hgoes_on)
      have hlength := (((hkeyed.ahead_delete hchosen).written batch).written_by later).length
      rw [List.length_cons, Nat.succ_mul]
      change _ ≤ (store.written_by later (batch.written repo)).rows.length
      omega

def two_logs : List LogStatement :=
  [.append "2024-05-01 10:00:00" (logged "o1"), .append "2024-05-02 10:00:00" (logged "o3")]

def one_batch : Batch := { cutoff := "2024-05-02 10:00:00", chosen := [1] }

end Pruning

section Bounds

/-- Texts of one length are told apart before what follows them. -/
theorem append_cons_lt {a b x y : List Char} {c d : Char} (hlength : a.length = b.length) :
    a ++ c :: x < b ++ d :: y ↔ a < b ∨ a = b ∧ (c < d ∨ c = d ∧ x < y) := by
  induction a generalizing b with
  | nil =>
    obtain rfl := List.eq_nil_of_length_eq_zero hlength.symm
    simp [List.cons_lt_cons_iff]
  | cons first a ih =>
    cases b with
    | nil => cases hlength
    | cons other b =>
      rw [List.cons_append, List.cons_append, List.cons_lt_cons_iff, List.cons_lt_cons_iff, ih (Nat.succ.inj hlength), List.cons.injEq]
      tauto

/-- The day of a time that `datetime` wrote. -/
def day_of (created_at : String) : String := String.ofList (created_at.toList.take 10)

/-- A time as `datetime` writes it, with a blank after the day. -/
def Dated (created_at : String) : Prop := ∃ day clock, day.length = 10 ∧ created_at = day ++ " " ++ clock

variable {day time created_at : String}

theorem Dated.rest (hdated : Dated created_at) : ∃ clock, (day_of created_at).toList.length = 10 ∧
    created_at.toList = (day_of created_at).toList ++ ' ' :: clock := by
  obtain ⟨day, clock, hlength, rfl⟩ := hdated
  have htake : (day ++ " " ++ clock).toList.take 10 = day.toList := by
    rw [String.toList_append, String.toList_append, List.append_assoc]
    exact List.take_left' hlength
  refine ⟨clock.toList, ?_, ?_⟩
  · rw [day_of, String.toList_ofList, htake]
    exact hlength
  · rw [day_of, String.toList_ofList, htake, String.toList_append, String.toList_append, List.append_assoc]
    rfl

/-- A bound with a `T` after its day comes after all times of the day, and before those of the next. -/
theorem Dated.lt_bound (hdated : Dated created_at) (hday : day.length = 10) :
    created_at < day ++ "T" ++ time ↔ day_of created_at ≤ day := by
  obtain ⟨clock, hlength, hrest⟩ := hdated.rest
  have hbound : (day ++ "T" ++ time).toList = day.toList ++ 'T' :: time.toList := by
    rw [String.toList_append, String.toList_append, List.append_assoc]
    rfl
  have hblank : ' ' < 'T' := by decide
  rw [String.lt_iff_toList_lt, hrest, hbound, append_cons_lt (hlength.trans hday.symm), String.le_iff_toList_le, le_iff_lt_or_eq]
  simp [hblank]

theorem Dated.ne_bound (hdated : Dated created_at) (hday : day.length = 10) : created_at ≠ day ++ "T" ++ time := by
  rintro rfl
  obtain ⟨clock, hlength, hrest⟩ := hdated.rest
  rw [String.toList_append, String.toList_append, List.append_assoc] at hrest
  obtain ⟨-, hsame⟩ := List.append_inj hrest (hday.trans hlength.symm)
  have hblank : 'T' = ' ' := (List.cons.inj hsame).1
  exact absurd hblank (by decide)

/-- A bound in the form of RFC 3339 counts whole days: none of its own day is left in where it is
    the start, and all of it where it is the end. -/
theorem bound_of_day (repo : LogRepo) (owner_id : Int) (filter : LogFilter) (hday : day.length = 10)
    (hdated : ∀ row ∈ repo.rows, Dated row.created_at) :
    repo.matching owner_id { filter with since := some (day ++ "T" ++ time) } =
        (repo.matching owner_id { filter with since := none }).filter (fun row => day < day_of row.created_at) ∧
      repo.matching owner_id { filter with until_ := some (day ++ "T" ++ time) } =
        (repo.matching owner_id { filter with until_ := none }).filter fun row => day_of row.created_at ≤ day := by
  constructor
  · rw [LogRepo.matching, LogRepo.matching, List.filter_reverse, List.filter_filter]
    refine congrArg List.reverse (List.filter_congr fun row hrow => ?_)
    have hbound : day ++ "T" ++ time ≤ row.created_at ↔ day < day_of row.created_at := by
      rw [← not_lt, (hdated row hrow).lt_bound hday, not_le]
    simp only [LogFilter.selects, optional, Option.all_some, Option.all_none, decide_eq_decide.mpr hbound]
    cases decide (day < day_of row.created_at) <;> simp
  · rw [LogRepo.matching, LogRepo.matching, List.filter_reverse, List.filter_filter]
    refine congrArg List.reverse (List.filter_congr fun row hrow => ?_)
    have hbound : row.created_at ≤ day ++ "T" ++ time ↔ day_of row.created_at ≤ day := by
      rw [le_iff_lt_or_eq, or_iff_left ((hdated row hrow).ne_bound hday), (hdated row hrow).lt_bound hday]
    simp only [LogFilter.selects, optional, Option.all_some, Option.all_none, decide_eq_decide.mpr hbound]
    cases decide (day_of row.created_at ≤ day) <;> simp

/-- A log of the day that the bound begins in is not listed. -/
theorem bound_of_day_since :
    LogRepo.matching { rows := [(logged "o1").row 1 "2024-05-01 10:00:00"], next_id := 2 } 1 { since := some ("2024-05-01" ++ "T" ++ "00:00:00Z") } =
        (LogRepo.matching { rows := [(logged "o1").row 1 "2024-05-01 10:00:00"], next_id := 2 } 1 {}).filter
          (fun row => "2024-05-01" < day_of row.created_at) ∧
      LogRepo.matching { rows := [(logged "o1").row 1 "2024-05-01 10:00:00"], next_id := 2 } 1 { until_ := some ("2024-05-01" ++ "T" ++ "00:00:00Z") } =
        (LogRepo.matching { rows := [(logged "o1").row 1 "2024-05-01 10:00:00"], next_id := 2 } 1 {}).filter
          fun row => day_of row.created_at ≤ "2024-05-01" := by
  exact bound_of_day _ 1 {} (by decide) (List.forall_mem_singleton.mpr ⟨"2024-05-01", "10:00:00", by decide, by decide⟩)

end Bounds

end refract.store
