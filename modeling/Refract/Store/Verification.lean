import Refract.Machine.Interleaving
import Refract.Store.Health

open refract.machine refract.upstream

namespace refract.store

inductive CodePurpose where
  | verify_email
  | reset_password
  deriving DecidableEq, Repr

/-- The outcome of a check. -/
inductive CodeVerifyOutcome where
  | ok
  | invalid
  | expired
  | locked
  deriving DecidableEq, Repr

/-- A row of the table `verification_codes`. -/
structure VerificationCode where
  id : Int
  user_id : Int
  purpose : CodePurpose
  code_hash : String
  attempts : Nat := 0
  expires_at : DateTime
  consumed : Bool := false
  deriving DecidableEq, Repr

/-- How many wrong guesses lock a code. -/
def MAX_ATTEMPTS : Nat := 5

def VerificationCode.is_for (self : VerificationCode) (user_id : Int) (purpose : CodePurpose) : Bool :=
  self.user_id = user_id && self.purpose = purpose && !self.consumed

/-- The table of codes, in the order of their numbers. -/
structure VerificationRepo where
  rows : List VerificationCode := []
  next_id : Int := 1

namespace VerificationRepo

variable (self : VerificationRepo) (user_id : Int) (purpose : CodePurpose) (id : Int)

def consume_all : List VerificationCode :=
  self.rows.map fun row => if row.is_for user_id purpose then { row with consumed := true } else row

/-- The codes that there are for the purpose are given up, in the same transaction. -/
def issue (code_hash : String) (expires_at : DateTime) : VerificationRepo where
  rows := self.consume_all user_id purpose ++ [{ id := self.next_id, user_id, purpose, code_hash, expires_at }]
  next_id := self.next_id + 1

/-- The newest code that is not consumed. -/
def latest : Option VerificationCode := (self.rows.filter (·.is_for user_id purpose)).getLast?

/-- Changes the row with a number. -/
def set_row (change : VerificationCode → VerificationCode) : VerificationRepo :=
  { self with rows := self.rows.map fun row => if row.id = id then change row else row }

def count_attempt : VerificationRepo := self.set_row id fun row => { row with attempts := row.attempts + 1 }

def consume : VerificationRepo := self.set_row id fun row => { row with consumed := true }

def attempts_of : Nat := ((self.rows.find? (·.id = id)).map (·.attempts)).getD 0

end VerificationRepo

/-- What happened to the codes. -/
inductive CodeEvent where
  | issued (user_id : Int) (purpose : CodePurpose) (id : Int) (expires_at : DateTime)
  | compared (id : Int) (right : Bool)
  | accepted (user_id : Int) (purpose : CodePurpose) (id : Int) (time : DateTime)
  | refused (user_id : Int) (purpose : CodePurpose) (outcome : CodeVerifyOutcome)
  deriving DecidableEq, Repr

namespace CodeEvent

/-- The number and the end of a code that was issued for a purpose. -/
def issue (user_id : Int) (purpose : CodePurpose) : CodeEvent → Option (Int × DateTime)
  | .issued user purpose' id expires_at => if user = user_id ∧ purpose' = purpose then some (id, expires_at) else none
  | _ => none

def accepts (id : Int) : CodeEvent → Bool
  | .accepted _ _ other _ => other = id
  | _ => false

end CodeEvent

section Past

variable (past : List CodeEvent) (user_id : Int) (purpose : CodePurpose) (id : Int)

def latest_issued : Option (Int × DateTime) := (past.filterMap (·.issue user_id purpose)).getLast?

def wrong_guesses : Nat := past.count (.compared id false)

def successes : Nat := past.countP (·.accepts id)

/-- A code is accepted only as long as it is the latest and has not expired. -/
def AcceptedLive : Prop := ∀ before user_id purpose id time, before ++ [.accepted user_id purpose id time] <+: past →
  ∃ expires_at, latest_issued before user_id purpose = some (id, expires_at) ∧ time < expires_at

/-- Codes cannot be guessed: each is compared with few wrong guesses, and used once
    at most. -/
structure CodesHold : Prop where
  guesses : ∀ id, wrong_guesses past id ≤ MAX_ATTEMPTS
  once : ∀ id, successes past id ≤ 1
  live : AcceptedLive past

end Past

/-- The codes, the clock and what happened. -/
structure Codes where
  repo : VerificationRepo := {}
  now : DateTime := 0
  past : List CodeEvent := []

namespace Codes

variable (self : Codes)

def tell (event : CodeEvent) : Codes := { self with past := self.past ++ [event] }

def change (repo : VerificationRepo) (event : CodeEvent) : Codes := { self with repo, past := self.past ++ [event] }

end Codes

inductive CodeRequest where
  | issue (user_id : Int) (purpose : CodePurpose) (code : String) (ttl_minutes : Nat)
  | verify (user_id : Int) (purpose : CodePurpose) (code : String)

/-- An operation on codes under way. -/
inductive CodeUse where
  | arrived (request : CodeRequest)
  | issuing (user_id : Int) (purpose : CodePurpose) (code_hash : String) (expires_at : DateTime)
  | verifying (user_id : Int) (purpose : CodePurpose) (code_hash : String) (now : DateTime)
  /-- A wrong guess is yet to be counted. -/
  | counting (user_id : Int) (purpose : CodePurpose) (id : Int)
  /-- A code that was guessed is yet to be consumed. -/
  | consuming (user_id : Int) (purpose : CodePurpose) (id : Int)

section System

variable (hash_code : Int → String → String)

/-- Reads the newest code and compares it. What is written follows in a statement of
    its own. -/
def verify_code (shared : Codes) (user_id : Int) (purpose : CodePurpose) (code_hash : String) (now : DateTime) :
    Codes × Option CodeUse :=
  match shared.repo.latest user_id purpose with
  | none => (shared.tell (.refused user_id purpose .invalid), none)
  | some row =>
    if MAX_ATTEMPTS ≤ row.attempts then (shared.tell (.refused user_id purpose .locked), none)
    else if row.expires_at ≤ now then (shared.tell (.refused user_id purpose .expired), none)
    else if row.code_hash ≠ code_hash then (shared.tell (.compared row.id false), some (.counting user_id purpose row.id))
    else (shared.tell (.compared row.id true), some (.consuming user_id purpose row.id))

/-- The next step of an operation, up to a statement of the database, which may
    fail. -/
def CodeUse.advance (shared : Codes) (use : CodeUse) (fault : Bool) : Codes × Option CodeUse :=
  match use with
  | .arrived (.issue user_id purpose code ttl_minutes) =>
    (shared, some (.issuing user_id purpose (hash_code user_id code) (shared.now + Duration.from_secs (60 * ttl_minutes))))
  | .arrived (.verify user_id purpose code) => (shared, some (.verifying user_id purpose (hash_code user_id code) shared.now))
  | .issuing user_id purpose code_hash expires_at =>
    if fault then (shared, none)
    else
      (shared.change (shared.repo.issue user_id purpose code_hash expires_at)
        (.issued user_id purpose shared.repo.next_id expires_at), none)
  | .verifying user_id purpose code_hash now =>
    if fault then (shared, none) else verify_code shared user_id purpose code_hash now
  | .counting user_id purpose id =>
    if fault then (shared, none)
    else
      let repo := shared.repo.count_attempt id
      (shared.change repo (.refused user_id purpose (if MAX_ATTEMPTS ≤ repo.attempts_of id then .locked else .invalid)), none)
  | .consuming user_id purpose id =>
    if fault then (shared, none) else (shared.change (shared.repo.consume id) (.accepted user_id purpose id shared.now), none)

/-- Issues and checks of codes, each in its own time. Time passes. -/
def code_uses : Interleaving Codes CodeUse Bool Duration where
  opens
    | .arrived _ => true
    | _ => false
  advance := CodeUse.advance hash_code
  happen shared elapsed := { shared with now := shared.now + elapsed }

end System

/-- The operation has compared a code for the purpose, and is yet to write what
    follows from it. -/
def CodeUse.Acts (user_id : Int) (purpose : CodePurpose) (use : CodeUse) : Prop :=
  ∃ id, use = .counting user_id purpose id ∨ use = .consuming user_id purpose id

/-- No code is read or issued while another operation for the purpose is yet to write
    what it found, which then is written, before the code has expired. -/
def Exclusive (world : World Codes CodeUse) : Move CodeUse Bool Duration → Prop
  | .advance id fault =>
    match world.pending id with
    | some (.issuing user_id purpose _ _) | some (.verifying user_id purpose _ _) =>
      fault = false → world.Others id fun use => ¬use.Acts user_id purpose
    | some (.counting _ _ _) => fault = false
    | some (.consuming _ _ id) => fault = false → ∀ row ∈ world.shared.repo.rows, row.id = id → world.shared.now < row.expires_at
    | _ => True
  | _ => True

section Past

variable {past : List CodeEvent} {event : CodeEvent} {user_id : Int} {purpose : CodePurpose} {id : Int}

theorem wrong_guesses_concat :
    wrong_guesses (past ++ [event]) id = wrong_guesses past id + if event = .compared id false then 1 else 0 := by
  rw [wrong_guesses, List.count_append, List.count_singleton]
  simp [wrong_guesses]

theorem successes_concat : successes (past ++ [event]) id = successes past id + if event.accepts id then 1 else 0 := by
  simp [successes, List.countP_singleton]

theorem latest_issued_concat :
    latest_issued (past ++ [event]) user_id purpose = (event.issue user_id purpose).or (latest_issued past user_id purpose) := by
  cases hissue : event.issue user_id purpose with
  | none => simp [latest_issued, hissue]
  | some issued => simp [latest_issued, hissue]

theorem AcceptedLive.concat (hlive : AcceptedLive past)
    (hevent : ∀ user_id purpose id time, event = .accepted user_id purpose id time →
      ∃ expires_at, latest_issued past user_id purpose = some (id, expires_at) ∧ time < expires_at) :
    AcceptedLive (past ++ [event]) := by
  intro before user_id purpose id time hbegins
  rcases List.prefix_concat_iff.mp hbegins with heq | hbegins
  · obtain ⟨rfl, hsame⟩ := List.append_inj' heq rfl
    exact hevent user_id purpose id time (List.singleton_inj.mp hsame).symm
  · exact hlive before user_id purpose id time hbegins

end Past

section Rows

variable {repo : VerificationRepo} {row : VerificationCode} {user_id : Int} {purpose : CodePurpose} {id : Int}

theorem VerificationCode.is_for_iff : row.is_for user_id purpose = true ↔ row.user_id = user_id ∧ row.purpose = purpose ∧ row.consumed = false := by
  simp [is_for, and_assoc]

theorem VerificationRepo.mem_latest (hlatest : repo.latest user_id purpose = some row) :
    row ∈ repo.rows ∧ row.is_for user_id purpose = true := List.mem_filter.mp (List.mem_of_getLast? hlatest)

theorem VerificationRepo.mem_set_row {change : VerificationCode → VerificationCode} :
    row ∈ (repo.set_row id change).rows ↔ ∃ old ∈ repo.rows, row = if old.id = id then change old else old := by
  simp only [set_row, List.mem_map, eq_comm]

theorem VerificationRepo.mem_issue {code_hash : String} {expires_at : DateTime} :
    row ∈ (repo.issue user_id purpose code_hash expires_at).rows ↔
      (∃ old ∈ repo.rows, row = if old.is_for user_id purpose then { old with consumed := true } else old) ∨
        row = { id := repo.next_id, user_id, purpose, code_hash, expires_at } := by
  simp only [issue, consume_all, List.mem_append, List.mem_map, List.mem_singleton, eq_comm]

end Rows

/-- The codes have numbers of their own. -/
structure VerificationRepo.Numbered (repo : VerificationRepo) : Prop where
  nodup : (repo.rows.map (·.id)).Nodup
  below : ∀ row ∈ repo.rows, row.id < repo.next_id

namespace VerificationRepo

variable {repo : VerificationRepo} {id : Int}

theorem Numbered.eq_of_id (hnumbered : repo.Numbered) {row other : VerificationCode} (hrow : row ∈ repo.rows)
    (hother : other ∈ repo.rows) (hid : row.id = other.id) : row = other :=
  List.inj_on_of_nodup_map hnumbered.nodup hrow hother hid

theorem Numbered.set_row (hnumbered : repo.Numbered) {change : VerificationCode → VerificationCode}
    (hid : ∀ row, (change row).id = row.id) : (repo.set_row id change).Numbered := by
  have hkept : ∀ row : VerificationCode, (if row.id = id then change row else row).id = row.id := by
    intro row
    split
    · exact hid row
    · rfl
  constructor
  · have hids : (repo.set_row id change).rows.map (·.id) = repo.rows.map (·.id) := by
      rw [VerificationRepo.set_row, List.map_map]
      exact List.map_congr_left fun row _ => hkept row
    rw [hids]
    exact hnumbered.nodup
  · intro row hrow
    obtain ⟨old, hold, rfl⟩ := mem_set_row.mp hrow
    rw [hkept]
    exact hnumbered.below old hold

theorem Numbered.issue (hnumbered : repo.Numbered) (user_id : Int) (purpose : CodePurpose) (code_hash : String) (expires_at : DateTime) :
    (repo.issue user_id purpose code_hash expires_at).Numbered := by
  have hids : (repo.issue user_id purpose code_hash expires_at).rows.map (·.id) = repo.rows.map (·.id) ++ [repo.next_id] := by
    simp only [VerificationRepo.issue, consume_all, List.map_append, List.map_map, List.map_cons, List.map_nil]
    congr 1
    refine List.map_congr_left fun row _ => ?_
    rw [Function.comp_apply]
    split <;> rfl
  have hfresh : repo.next_id ∉ repo.rows.map (·.id) := by
    intro hmem
    obtain ⟨row, hrow, hid⟩ := List.mem_map.mp hmem
    exact (hid ▸ hnumbered.below row hrow).false
  have hnext : repo.next_id < (repo.issue user_id purpose code_hash expires_at).next_id := Int.lt_succ repo.next_id
  constructor
  · rw [hids, List.nodup_append_comm]
    exact List.nodup_cons.mpr ⟨hfresh, hnumbered.nodup⟩
  · intro row hrow
    have hid := List.mem_map_of_mem (f := (·.id)) hrow
    rw [hids, List.mem_append, List.mem_singleton] at hid
    rcases hid with hold | hnew
    · obtain ⟨old, hold, hid⟩ := List.mem_map.mp hold
      exact hid ▸ (hnumbered.below old hold).trans hnext
    · exact hnew ▸ hnext

end VerificationRepo

/-- What the codes and the operations under way know of each other. -/
structure Codes.Coherent (world : World Codes CodeUse) : Prop where
  numbered : world.shared.repo.Numbered
  few : ∀ row ∈ world.shared.repo.rows, row.attempts ≤ MAX_ATTEMPTS
  /-- All wrong guesses are counted, apart from the one that an operation is yet to
      count. -/
  settled : ∀ row ∈ world.shared.repo.rows, (∀ op user_id purpose, world.pending op ≠ some (.counting user_id purpose row.id)) →
    wrong_guesses world.shared.past row.id = row.attempts
  counting : ∀ op user_id purpose id, world.pending op = some (.counting user_id purpose id) →
    ∃ row ∈ world.shared.repo.rows, row.id = id ∧ row.is_for user_id purpose = true ∧ row.attempts < MAX_ATTEMPTS ∧
      wrong_guesses world.shared.past id = row.attempts + 1
  consuming : ∀ op user_id purpose id, world.pending op = some (.consuming user_id purpose id) →
    ∃ row ∈ world.shared.repo.rows, row.id = id ∧ row.is_for user_id purpose = true
  spent : ∀ row ∈ world.shared.repo.rows,
    successes world.shared.past row.id ≤ 1 ∧ (row.consumed = false → successes world.shared.past row.id = 0)
  newest : ∀ row ∈ world.shared.repo.rows, row.consumed = false →
    latest_issued world.shared.past row.user_id row.purpose = some (row.id, row.expires_at)
  unknown : ∀ id, (∀ row ∈ world.shared.repo.rows, row.id ≠ id) →
    wrong_guesses world.shared.past id = 0 ∧ successes world.shared.past id = 0
  alone : ∀ op other use use' user_id purpose, world.pending op = some use → world.pending other = some use' →
    use.Acts user_id purpose → use'.Acts user_id purpose → op = other
  live : AcceptedLive world.shared.past

namespace Codes.Coherent

variable {world : World Codes CodeUse} {id : Nat}

theorem holds (hcoherent : Coherent world) : CodesHold world.shared.past where
  guesses number := by
    by_cases hrow : ∃ row ∈ world.shared.repo.rows, row.id = number
    · obtain ⟨row, hrow, rfl⟩ := hrow
      by_cases hcounting : ∃ op user_id purpose, world.pending op = some (.counting user_id purpose row.id)
      · obtain ⟨op, user_id, purpose, hpending⟩ := hcounting
        obtain ⟨_, -, -, -, hfew, hguesses⟩ := hcoherent.counting op user_id purpose row.id hpending
        omega
      · have hsettled := hcoherent.settled row hrow fun op user_id purpose hpending => hcounting ⟨op, user_id, purpose, hpending⟩
        exact hsettled ▸ hcoherent.few row hrow
    · have hnone := hcoherent.unknown number fun row hrow' hid => hrow ⟨row, hrow', hid⟩
      omega
  once number := by
    by_cases hrow : ∃ row ∈ world.shared.repo.rows, row.id = number
    · obtain ⟨row, hrow, rfl⟩ := hrow
      exact (hcoherent.spent row hrow).1
    · have hnone := hcoherent.unknown number fun row hrow' hid => hrow ⟨row, hrow', hid⟩
      omega
  live := hcoherent.live

/-- An operation goes on that was not counting and does not act. Nothing is told of
    any code. -/
theorem quiet (hcoherent : Coherent world) {shared : Codes} {next : Option CodeUse} (hrepo : shared.repo = world.shared.repo)
    (hpast : shared.past = world.shared.past ∨ ∃ user_id purpose outcome, shared.past = world.shared.past ++ [.refused user_id purpose outcome])
    (hbefore : ∀ user_id purpose number, world.pending id ≠ some (.counting user_id purpose number))
    (hnext : ∀ use user_id purpose, next = some use → ¬use.Acts user_id purpose) : Coherent (world.set id shared next) := by
  have hguesses : ∀ number, wrong_guesses shared.past number = wrong_guesses world.shared.past number := by
    intro number
    rcases hpast with hpast | ⟨_, _, _, hpast⟩ <;> simp [hpast, wrong_guesses_concat]
  have hsuccesses : ∀ number, successes shared.past number = successes world.shared.past number := by
    intro number
    rcases hpast with hpast | ⟨_, _, _, hpast⟩ <;> simp [hpast, successes_concat, CodeEvent.accepts]
  have hlatest : ∀ user_id purpose, latest_issued shared.past user_id purpose = latest_issued world.shared.past user_id purpose := by
    intro user_id purpose
    rcases hpast with hpast | ⟨_, _, _, hpast⟩ <;> simp [hpast, latest_issued_concat, CodeEvent.issue]
  have hpending : ∀ op use user_id purpose, (world.set id shared next).pending op = some use → use.Acts user_id purpose →
      world.pending op = some use := by
    intro op use user_id purpose hpending hacts
    rcases World.set_pending_cases hpending with ⟨-, hsame⟩ | ⟨-, hother⟩
    · exact absurd hacts (hnext use user_id purpose hsame)
    · exact hother
  refine {
    numbered := hrepo ▸ hcoherent.numbered
    few := fun row hrow => hcoherent.few row (hrepo ▸ hrow)
    settled := fun row hrow hfree => ?_
    counting := fun op user_id purpose number hop => ?_
    consuming := fun op user_id purpose number hop => ?_
    spent := fun row hrow => ?_
    newest := fun row hrow hopen => ?_
    unknown := fun number hnone => ?_
    alone := fun op other use use' user_id purpose hop hother hacts hacts' =>
      hcoherent.alone op other use use' user_id purpose (hpending op use user_id purpose hop hacts)
        (hpending other use' user_id purpose hother hacts') hacts hacts'
    live := ?_ }
  · rw [World.set_shared, hrepo] at hrow
    rw [World.set_shared, hguesses]
    refine hcoherent.settled row hrow fun op user_id purpose hop => ?_
    by_cases hid : op = id
    · exact hbefore user_id purpose row.id (hid ▸ hop)
    · exact hfree op user_id purpose ((World.set_pending_of_ne hid).trans hop)
  · rw [World.set_shared, hrepo, hguesses]
    exact hcoherent.counting op user_id purpose number (hpending op _ user_id purpose hop ⟨number, .inl rfl⟩)
  · rw [World.set_shared, hrepo]
    exact hcoherent.consuming op user_id purpose number (hpending op _ user_id purpose hop ⟨number, .inr rfl⟩)
  · rw [World.set_shared, hrepo] at hrow
    rw [World.set_shared, hsuccesses]
    exact hcoherent.spent row hrow
  · rw [World.set_shared, hrepo] at hrow
    rw [World.set_shared, hlatest]
    exact hcoherent.newest row hrow hopen
  · rw [World.set_shared, hrepo] at hnone
    rw [World.set_shared, hguesses, hsuccesses]
    exact hcoherent.unknown number hnone
  · rw [World.set_shared]
    rcases hpast with hpast | ⟨_, _, _, hpast⟩ <;> rw [hpast]
    · exact hcoherent.live
    · exact hcoherent.live.concat fun _ _ _ _ hnone => nomatch hnone

/-- What is under way after an operation has ended. -/
theorem ended_cases {shared : Codes} {op : Nat} {use : CodeUse} (hpending : (world.set id shared none).pending op = some use) :
    op ≠ id ∧ world.pending op = some use := by
  rcases World.set_pending_cases hpending with ⟨-, hnone⟩ | hother
  · cases hnone
  · exact hother

/-- The row that an operation acts on is known by its number. -/
theorem acts_unique (hcoherent : Coherent world) {op : Nat} {use : CodeUse} {user_id other_user : Int} {purpose other_purpose : CodePurpose}
    {row : VerificationCode} (hrow : row ∈ world.shared.repo.rows) (hfor : row.is_for user_id purpose = true)
    (hpending : world.pending op = some use)
    (hacts : use = .counting other_user other_purpose row.id ∨ use = .consuming other_user other_purpose row.id) :
    use.Acts user_id purpose := by
  have hfound : ∃ other ∈ world.shared.repo.rows, other.id = row.id ∧ other.is_for other_user other_purpose = true := by
    rcases hacts with rfl | rfl
    · obtain ⟨other, hother, hid, hfor, -, -⟩ := hcoherent.counting op _ _ _ hpending
      exact ⟨other, hother, hid, hfor⟩
    · exact hcoherent.consuming op _ _ _ hpending
  obtain ⟨other, hother, hid, hsame⟩ := hfound
  obtain rfl := hcoherent.numbered.eq_of_id hother hrow hid
  obtain ⟨rfl, rfl, -⟩ := VerificationCode.is_for_iff.mp hfor
  obtain ⟨rfl, rfl, -⟩ := VerificationCode.is_for_iff.mp hsame
  exact ⟨_, hacts⟩

theorem issued (hcoherent : Coherent world) {user_id : Int} {purpose : CodePurpose} {code_hash : String} {expires_at : DateTime}
    (hpending : world.pending id = some (.issuing user_id purpose code_hash expires_at))
    (hfree : world.Others id fun use => ¬use.Acts user_id purpose) :
    Coherent (world.set id (world.shared.change (world.shared.repo.issue user_id purpose code_hash expires_at)
      (.issued user_id purpose world.shared.repo.next_id expires_at)) none) := by
  have hguesses : ∀ number, wrong_guesses (world.shared.past ++ [.issued user_id purpose world.shared.repo.next_id expires_at]) number =
      wrong_guesses world.shared.past number := fun number => by simp [wrong_guesses_concat]
  have hsuccesses : ∀ number, successes (world.shared.past ++ [.issued user_id purpose world.shared.repo.next_id expires_at]) number =
      successes world.shared.past number := fun number => by simp [successes_concat, CodeEvent.accepts]
  have hnew := hcoherent.unknown world.shared.repo.next_id fun row hrow hid => (hid ▸ hcoherent.numbered.below row hrow).false
  -- The row that an operation acts on is left alone.
  have hkept : ∀ op use other_user other_purpose, op ≠ id → world.pending op = some use → use.Acts other_user other_purpose →
      ∀ row ∈ world.shared.repo.rows, row.is_for other_user other_purpose = true →
        row ∈ (world.shared.repo.issue user_id purpose code_hash expires_at).rows := by
    intro op use other_user other_purpose hop hother hacts row hrow hfor
    refine VerificationRepo.mem_issue.mpr (.inl ⟨row, hrow, ?_⟩)
    by_cases hsame : row.is_for user_id purpose = true
    · obtain ⟨rfl, rfl, -⟩ := VerificationCode.is_for_iff.mp hfor
      obtain ⟨rfl, rfl, -⟩ := VerificationCode.is_for_iff.mp hsame
      exact absurd hacts (hfree op use hop hother)
    · rw [if_neg hsame]
  have hrows : ∀ row ∈ (world.shared.repo.issue user_id purpose code_hash expires_at).rows,
      (∃ old ∈ world.shared.repo.rows, row.id = old.id ∧ row.attempts = old.attempts ∧ (row.consumed = false →
        row = old ∧ ¬(row.user_id = user_id ∧ row.purpose = purpose))) ∨
      row = { id := world.shared.repo.next_id, user_id, purpose, code_hash, expires_at } := by
    intro row hrow
    rcases VerificationRepo.mem_issue.mp hrow with ⟨old, hold, rfl⟩ | hnew
    · refine .inl ⟨old, hold, ?_⟩
      by_cases hsame : old.is_for user_id purpose = true
      · rw [if_pos hsame]
        exact ⟨rfl, rfl, fun hopen => nomatch hopen⟩
      · rw [if_neg hsame]
        exact ⟨rfl, rfl, fun hopen => ⟨rfl, fun hfor => hsame (VerificationCode.is_for_iff.mpr ⟨hfor.1, hfor.2, hopen⟩)⟩⟩
    · exact .inr hnew
  refine {
    numbered := hcoherent.numbered.issue ..
    few := fun row hrow => ?_
    settled := fun row hrow hnone => ?_
    counting := fun op other_user other_purpose number hop => ?_
    consuming := fun op other_user other_purpose number hop => ?_
    spent := fun row hrow => ?_
    newest := fun row hrow hopen => ?_
    unknown := fun number hnone => ?_
    alone := fun op other use use' _ _ hop hother => hcoherent.alone op other use use' _ _ (ended_cases hop).2 (ended_cases hother).2
    live := hcoherent.live.concat fun _ _ _ _ hnone => nomatch hnone }
  · rcases hrows row hrow with ⟨old, hold, -, hattempts, -⟩ | rfl
    · exact hattempts ▸ hcoherent.few old hold
    · exact Nat.zero_le _
  · rw [World.set_shared, Codes.change, hguesses]
    rcases hrows row hrow with ⟨old, hold, hid, hattempts, -⟩ | rfl
    · rw [hid, hattempts]
      refine hcoherent.settled old hold fun op other_user other_purpose hop => ?_
      by_cases hsame : op = id
      · cases (hsame ▸ hop).symm.trans hpending
      · exact hnone op other_user other_purpose (hid ▸ (World.set_pending_of_ne hsame).trans hop)
    · exact hnew.1
  · obtain ⟨hne, hother⟩ := ended_cases hop
    obtain ⟨row, hrow, hid, hfor, hfew, hcount⟩ := hcoherent.counting op other_user other_purpose number hother
    refine ⟨row, hkept op _ other_user other_purpose hne hother ⟨number, .inl rfl⟩ row hrow hfor, hid, hfor, hfew, ?_⟩
    rw [World.set_shared, Codes.change, hguesses]
    exact hcount
  · obtain ⟨hne, hother⟩ := ended_cases hop
    obtain ⟨row, hrow, hid, hfor⟩ := hcoherent.consuming op other_user other_purpose number hother
    exact ⟨row, hkept op _ other_user other_purpose hne hother ⟨number, .inr rfl⟩ row hrow hfor, hid, hfor⟩
  · rw [World.set_shared, Codes.change, hsuccesses]
    rcases hrows row hrow with ⟨old, hold, hid, -, hopen⟩ | rfl
    · rw [hid]
      refine ⟨(hcoherent.spent old hold).1, fun hconsumed => (hcoherent.spent old hold).2 ?_⟩
      exact (hopen hconsumed).1 ▸ hconsumed
    · exact ⟨hnew.2.trans_le (Nat.zero_le 1), fun _ => hnew.2⟩
  · rw [World.set_shared, Codes.change, latest_issued_concat, CodeEvent.issue]
    rcases hrows row hrow with ⟨old, hold, hid, -, hsame⟩ | rfl
    · obtain ⟨rfl, hother⟩ := hsame hopen
      rw [if_neg fun hfor => hother ⟨hfor.1.symm, hfor.2.symm⟩]
      exact hcoherent.newest row hold hopen
    · rw [if_pos ⟨rfl, rfl⟩]
      rfl
  · rw [World.set_shared, Codes.change, hguesses, hsuccesses]
    refine hcoherent.unknown number fun row hrow hid => ?_
    refine hnone _ (VerificationRepo.mem_issue.mpr (.inl ⟨row, hrow, rfl⟩)) ?_
    split <;> exact hid

/-- A code is compared. A wrong guess is yet to be counted, a right one yet to be
    used. -/
theorem compared (hcoherent : Coherent world) {user_id : Int} {purpose : CodePurpose} {row : VerificationCode} (right : Bool)
    (hbefore : ∀ user_id purpose number, world.pending id ≠ some (.counting user_id purpose number))
    (hfree : world.Others id fun use => ¬use.Acts user_id purpose) (hrow : row ∈ world.shared.repo.rows)
    (hfor : row.is_for user_id purpose = true) (hfew : row.attempts < MAX_ATTEMPTS) :
    Coherent (world.set id (world.shared.tell (.compared row.id right))
      (some (if right then .consuming user_id purpose row.id else .counting user_id purpose row.id))) := by
  have hsuccesses : ∀ number, successes (world.shared.past ++ [.compared row.id right]) number = successes world.shared.past number :=
    fun number => by simp [successes_concat, CodeEvent.accepts]
  have hlatest : ∀ user_id purpose, latest_issued (world.shared.past ++ [.compared row.id right]) user_id purpose =
      latest_issued world.shared.past user_id purpose := fun user_id purpose => by simp [latest_issued_concat, CodeEvent.issue]
  have hguesses : ∀ number, number ≠ row.id ∨ right = true → wrong_guesses (world.shared.past ++ [.compared row.id right]) number =
      wrong_guesses world.shared.past number := by
    rintro number (hnumber | rfl)
    · simp [wrong_guesses_concat, Ne.symm hnumber]
    · simp [wrong_guesses_concat]
  -- Nobody else acts on the row.
  have hothers : ∀ op other_user other_purpose number use, op ≠ id → world.pending op = some use →
      use = .counting other_user other_purpose number ∨ use = .consuming other_user other_purpose number → number ≠ row.id := by
    rintro op other_user other_purpose number use hop hpending hacts rfl
    exact hfree op use hop hpending (hcoherent.acts_unique hrow hfor hpending hacts)
  have hsettled : wrong_guesses world.shared.past row.id = row.attempts := by
    refine hcoherent.settled row hrow fun op other_user other_purpose hpending => ?_
    by_cases hop : op = id
    · exact hbefore other_user other_purpose row.id (hop ▸ hpending)
    · exact hothers op other_user other_purpose row.id _ hop hpending (.inl rfl) rfl
  refine {
    numbered := hcoherent.numbered
    few := hcoherent.few
    settled := fun other hother hnone => ?_
    counting := fun op other_user other_purpose number hop => ?_
    consuming := fun op other_user other_purpose number hop => ?_
    spent := fun other hother => ?_
    newest := fun other hother hopen => ?_
    unknown := fun number hnone => ?_
    alone := fun op other use use' other_user other_purpose hop hother hacts hacts' => ?_
    live := hcoherent.live.concat fun _ _ _ _ hnone => nomatch hnone }
  · have hfirst : other.id ≠ row.id ∨ right = true := by
      by_contra hboth
      obtain ⟨hid, hwrong⟩ := not_or.mp hboth
      refine hnone id user_id purpose ?_
      rw [World.set_pending_self, if_neg hwrong, not_not.mp hid]
    rw [World.set_shared, Codes.tell, hguesses other.id hfirst]
    refine hcoherent.settled other hother fun op other_user other_purpose hpending => ?_
    by_cases hop : op = id
    · exact hbefore other_user other_purpose other.id (hop ▸ hpending)
    · exact hnone op other_user other_purpose ((World.set_pending_of_ne hop).trans hpending)
  · rcases World.set_pending_cases hop with ⟨-, hsame⟩ | ⟨hne, hother⟩
    · cases right with
      | true => cases hsame
      | false =>
        obtain ⟨rfl, rfl, rfl⟩ := CodeUse.counting.inj (Option.some.inj hsame)
        refine ⟨row, hrow, rfl, hfor, hfew, ?_⟩
        simp [Codes.tell, wrong_guesses_concat, hsettled]
    · obtain ⟨other, hrow', hid, hfor', hfew', hcount⟩ := hcoherent.counting op other_user other_purpose number hother
      refine ⟨other, hrow', hid, hfor', hfew', ?_⟩
      rw [World.set_shared, Codes.tell, hguesses number (.inl (hothers op _ _ number _ hne hother (.inl rfl)))]
      exact hcount
  · rcases World.set_pending_cases hop with ⟨-, hsame⟩ | ⟨-, hother⟩
    · cases right with
      | true =>
        obtain ⟨rfl, rfl, rfl⟩ := CodeUse.consuming.inj (Option.some.inj hsame)
        exact ⟨row, hrow, rfl, hfor⟩
      | false => cases hsame
    · exact hcoherent.consuming op other_user other_purpose number hother
  · rw [World.set_shared, Codes.tell, hsuccesses]
    exact hcoherent.spent other hother
  · rw [World.set_shared, Codes.tell, hlatest]
    exact hcoherent.newest other hother hopen
  · rw [World.set_shared, Codes.tell, hsuccesses, hguesses number (.inl fun hid => hnone row hrow hid.symm)]
    exact hcoherent.unknown number hnone
  · have hacting : ∀ use, some (if right then CodeUse.consuming user_id purpose row.id else .counting user_id purpose row.id) = some use →
        use.Acts other_user other_purpose → user_id = other_user ∧ purpose = other_purpose := by
      rintro use hsame ⟨number, hacts⟩
      cases right with
      | true =>
        obtain rfl := Option.some.inj hsame
        rcases hacts with hnone | hacts
        · cases hnone
        · exact ⟨(CodeUse.consuming.inj hacts).1, (CodeUse.consuming.inj hacts).2.1⟩
      | false =>
        obtain rfl := Option.some.inj hsame
        rcases hacts with hacts | hnone
        · exact ⟨(CodeUse.counting.inj hacts).1, (CodeUse.counting.inj hacts).2.1⟩
        · cases hnone
    rcases World.set_pending_cases hop with ⟨rfl, hsame⟩ | ⟨hne, hold⟩
    · rcases World.set_pending_cases hother with ⟨rfl, -⟩ | ⟨hne', hold'⟩
      · rfl
      · obtain ⟨rfl, rfl⟩ := hacting use hsame hacts
        exact absurd hacts' (hfree other use' hne' hold')
    · rcases World.set_pending_cases hother with ⟨rfl, hsame⟩ | ⟨-, hold'⟩
      · obtain ⟨rfl, rfl⟩ := hacting use' hsame hacts'
        exact absurd hacts (hfree op use hne hold)
      · exact hcoherent.alone op other use use' other_user other_purpose hold hold' hacts hacts'

/-- An operation writes what it found to a row that nobody else acts on. -/
theorem acted (hcoherent : Coherent world) {use : CodeUse} {user_id : Int} {purpose : CodePurpose} {row : VerificationCode}
    (hpending : world.pending id = some use) (hrow : row ∈ world.shared.repo.rows) (hfor : row.is_for user_id purpose = true)
    (hacts : use = .counting user_id purpose row.id ∨ use = .consuming user_id purpose row.id) {op : Nat} {other : CodeUse}
    {other_user : Int} {other_purpose : CodePurpose} {number : Int} (hop : op ≠ id) (hother : world.pending op = some other)
    (hothers : other = .counting other_user other_purpose number ∨ other = .consuming other_user other_purpose number) :
    number ≠ row.id := by
  rintro rfl
  exact hop (hcoherent.alone op id other use user_id purpose hother hpending
    (hcoherent.acts_unique hrow hfor hother hothers) ⟨row.id, hacts⟩)

theorem counted (hcoherent : Coherent world) {user_id : Int} {purpose : CodePurpose} {number : Int} {outcome : CodeVerifyOutcome}
    (hpending : world.pending id = some (.counting user_id purpose number)) :
    Coherent (world.set id (world.shared.change (world.shared.repo.count_attempt number) (.refused user_id purpose outcome)) none) := by
  obtain ⟨row, hrow, rfl, hfor, hfew, hcount⟩ := hcoherent.counting id user_id purpose number hpending
  have hguesses : ∀ number, wrong_guesses (world.shared.past ++ [.refused user_id purpose outcome]) number =
      wrong_guesses world.shared.past number := fun number => by simp [wrong_guesses_concat]
  have hsuccesses : ∀ number, successes (world.shared.past ++ [.refused user_id purpose outcome]) number =
      successes world.shared.past number := fun number => by simp [successes_concat, CodeEvent.accepts]
  have hlatest : ∀ user_id' purpose', latest_issued (world.shared.past ++ [.refused user_id purpose outcome]) user_id' purpose' =
      latest_issued world.shared.past user_id' purpose' := fun _ _ => by simp [latest_issued_concat, CodeEvent.issue]
  have hrows : ∀ other ∈ (world.shared.repo.count_attempt row.id).rows,
      ∃ old ∈ world.shared.repo.rows, other = { old with attempts := old.attempts + if old = row then 1 else 0 } := by
    intro other hother
    obtain ⟨old, hold, rfl⟩ := VerificationRepo.mem_set_row.mp hother
    refine ⟨old, hold, ?_⟩
    by_cases hid : old.id = row.id
    · rw [if_pos hid, if_pos (hcoherent.numbered.eq_of_id hold hrow hid)]
    · have hne : old ≠ row := fun hsame => hid (hsame ▸ rfl)
      rw [if_neg hid, if_neg hne]
      rfl
  have hkept : ∀ other ∈ world.shared.repo.rows, other.id ≠ row.id → other ∈ (world.shared.repo.count_attempt row.id).rows :=
    fun other hother hid => VerificationRepo.mem_set_row.mpr ⟨other, hother, (if_neg hid).symm⟩
  refine {
    numbered := hcoherent.numbered.set_row fun _ => rfl
    few := fun other hother => ?_
    settled := fun other hother hnone => ?_
    counting := fun op other_user other_purpose number hop => ?_
    consuming := fun op other_user other_purpose number hop => ?_
    spent := fun other hother => ?_
    newest := fun other hother hopen => ?_
    unknown := fun number hnone => ?_
    alone := fun op other use use' _ _ hop hother => hcoherent.alone op other use use' _ _ (ended_cases hop).2 (ended_cases hother).2
    live := hcoherent.live.concat fun _ _ _ _ hnone => nomatch hnone }
  · obtain ⟨old, hold, rfl⟩ := hrows other hother
    by_cases hsame : old = row
    · subst hsame
      rw [if_pos rfl]
      exact hfew
    · rw [if_neg hsame]
      exact hcoherent.few old hold
  · rw [World.set_shared, Codes.change, hguesses]
    obtain ⟨old, hold, rfl⟩ := hrows other hother
    by_cases hsame : old = row
    · subst hsame
      rw [if_pos rfl]
      exact hcount
    · rw [if_neg hsame]
      refine hcoherent.settled old hold fun op other_user other_purpose hop => ?_
      by_cases hid : op = id
      · obtain ⟨-, -, hrowid⟩ := CodeUse.counting.inj (Option.some.inj ((hid ▸ hop).symm.trans hpending))
        exact hsame (hcoherent.numbered.eq_of_id hold hrow hrowid)
      · exact hnone op other_user other_purpose ((World.set_pending_of_ne hid).trans hop)
  · obtain ⟨hne, hother⟩ := ended_cases hop
    obtain ⟨other, hold, hid, hfor', hfew', hcount'⟩ := hcoherent.counting op other_user other_purpose number hother
    have hnumber := hcoherent.acted hpending hrow hfor (.inl rfl) hne hother (.inl rfl)
    refine ⟨other, hkept other hold (hid ▸ hnumber), hid, hfor', hfew', ?_⟩
    rw [World.set_shared, Codes.change, hguesses]
    exact hcount'
  · obtain ⟨hne, hother⟩ := ended_cases hop
    obtain ⟨other, hold, hid, hfor'⟩ := hcoherent.consuming op other_user other_purpose number hother
    have hnumber := hcoherent.acted hpending hrow hfor (.inl rfl) hne hother (.inr rfl)
    exact ⟨other, hkept other hold (hid ▸ hnumber), hid, hfor'⟩
  · rw [World.set_shared, Codes.change, hsuccesses]
    obtain ⟨old, hold, rfl⟩ := hrows other hother
    exact hcoherent.spent old hold
  · rw [World.set_shared, Codes.change, hlatest]
    obtain ⟨old, hold, rfl⟩ := hrows other hother
    exact hcoherent.newest old hold hopen
  · rw [World.set_shared, Codes.change, hguesses, hsuccesses]
    refine hcoherent.unknown number fun old hold hid => ?_
    refine hnone _ (VerificationRepo.mem_set_row.mpr ⟨old, hold, rfl⟩) ?_
    split <;> exact hid

theorem consumed (hcoherent : Coherent world) {user_id : Int} {purpose : CodePurpose} {number : Int}
    (hpending : world.pending id = some (.consuming user_id purpose number))
    (hfresh : ∀ row ∈ world.shared.repo.rows, row.id = number → world.shared.now < row.expires_at) :
    Coherent (world.set id (world.shared.change (world.shared.repo.consume number)
      (.accepted user_id purpose number world.shared.now)) none) := by
  obtain ⟨row, hrow, rfl, hfor⟩ := hcoherent.consuming id user_id purpose number hpending
  obtain ⟨huser, hpurpose, hopen⟩ := VerificationCode.is_for_iff.mp hfor
  have hguesses : ∀ number, wrong_guesses (world.shared.past ++ [.accepted user_id purpose row.id world.shared.now]) number =
      wrong_guesses world.shared.past number := fun number => by simp [wrong_guesses_concat]
  have hlatest : ∀ user_id' purpose', latest_issued (world.shared.past ++ [.accepted user_id purpose row.id world.shared.now]) user_id' purpose' =
      latest_issued world.shared.past user_id' purpose' := fun _ _ => by simp [latest_issued_concat, CodeEvent.issue]
  have hsuccesses : ∀ number, successes (world.shared.past ++ [.accepted user_id purpose row.id world.shared.now]) number =
      successes world.shared.past number + if row.id = number then 1 else 0 := fun number => by
    simp [successes_concat, CodeEvent.accepts]
  have hrows : ∀ other ∈ (world.shared.repo.consume row.id).rows,
      ∃ old ∈ world.shared.repo.rows, other = { old with consumed := old.consumed || old = row } := by
    intro other hother
    obtain ⟨old, hold, rfl⟩ := VerificationRepo.mem_set_row.mp hother
    refine ⟨old, hold, ?_⟩
    by_cases hid : old.id = row.id
    · simp [hcoherent.numbered.eq_of_id hold hrow hid]
    · have hne : old ≠ row := fun hsame => hid (hsame ▸ rfl)
      simp [hid, hne]
  have hkept : ∀ other ∈ world.shared.repo.rows, other.id ≠ row.id → other ∈ (world.shared.repo.consume row.id).rows :=
    fun other hother hid => VerificationRepo.mem_set_row.mpr ⟨other, hother, (if_neg hid).symm⟩
  refine {
    numbered := hcoherent.numbered.set_row fun _ => rfl
    few := fun other hother => ?_
    settled := fun other hother hnone => ?_
    counting := fun op other_user other_purpose number hop => ?_
    consuming := fun op other_user other_purpose number hop => ?_
    spent := fun other hother => ?_
    newest := fun other hother hother_open => ?_
    unknown := fun number hnone => ?_
    alone := fun op other use use' _ _ hop hother => hcoherent.alone op other use use' _ _ (ended_cases hop).2 (ended_cases hother).2
    live := hcoherent.live.concat fun _ _ _ _ hsame => ?_ }
  · obtain ⟨old, hold, rfl⟩ := hrows other hother
    exact hcoherent.few old hold
  · rw [World.set_shared, Codes.change, hguesses]
    obtain ⟨old, hold, rfl⟩ := hrows other hother
    refine hcoherent.settled old hold fun op other_user other_purpose hop => ?_
    by_cases hid : op = id
    · cases (hid ▸ hop).symm.trans hpending
    · exact hnone op other_user other_purpose ((World.set_pending_of_ne hid).trans hop)
  · obtain ⟨hne, hother⟩ := ended_cases hop
    obtain ⟨other, hold, hid, hfor', hfew', hcount'⟩ := hcoherent.counting op other_user other_purpose number hother
    have hnumber := hcoherent.acted hpending hrow hfor (.inr rfl) hne hother (.inl rfl)
    refine ⟨other, hkept other hold (hid ▸ hnumber), hid, hfor', hfew', ?_⟩
    rw [World.set_shared, Codes.change, hguesses]
    exact hcount'
  · obtain ⟨hne, hother⟩ := ended_cases hop
    obtain ⟨other, hold, hid, hfor'⟩ := hcoherent.consuming op other_user other_purpose number hother
    have hnumber := hcoherent.acted hpending hrow hfor (.inr rfl) hne hother (.inr rfl)
    exact ⟨other, hkept other hold (hid ▸ hnumber), hid, hfor'⟩
  · rw [World.set_shared, Codes.change, hsuccesses]
    obtain ⟨old, hold, rfl⟩ := hrows other hother
    by_cases hsame : old = row
    · subst hsame
      rw [if_pos rfl, (hcoherent.spent old hrow).2 hopen]
      exact ⟨le_rfl, fun hconsumed => by simp at hconsumed⟩
    · have hid : row.id ≠ old.id := fun hid => hsame (hcoherent.numbered.eq_of_id hold hrow hid.symm)
      simpa [hid, hsame] using hcoherent.spent old hold
  · rw [World.set_shared, Codes.change, hlatest]
    obtain ⟨old, hold, rfl⟩ := hrows other hother
    exact hcoherent.newest old hold (Bool.or_eq_false_iff.mp hother_open).1
  · have hother : ∀ old ∈ world.shared.repo.rows, old.id ≠ number := by
      intro old hold hid
      refine hnone _ (VerificationRepo.mem_set_row.mpr ⟨old, hold, rfl⟩) ?_
      split <;> exact hid
    rw [World.set_shared, Codes.change, hguesses, hsuccesses, if_neg (hother row hrow)]
    exact hcoherent.unknown number hother
  · obtain ⟨rfl, rfl, rfl, rfl⟩ := CodeEvent.accepted.inj hsame
    exact ⟨row.expires_at, huser ▸ hpurpose ▸ hcoherent.newest row hrow hopen, hfresh row hrow rfl⟩

/-- Every step that is exclusive keeps the codes and the operations in agreement. -/
theorem step {hash_code : Int → String → String} (hcoherent : Coherent world) {move : Move CodeUse Bool Duration}
    (hexclusive : Exclusive world move) : Coherent ((code_uses hash_code).step world move) := by
  rcases (code_uses hash_code).step_cases world move with
    hsame | ⟨op, use, rfl, hnone, hopens, hstep⟩ | ⟨op, use, fault, rfl, hpending, hstep⟩ | ⟨elapsed, rfl, hstep⟩
  · rw [hsame]
    exact hcoherent
  · rw [hstep]
    refine hcoherent.quiet rfl (.inl rfl) (fun _ _ _ hsome => ?_) fun use' user_id purpose hsame hacts => ?_
    · cases hnone.symm.trans hsome
    · obtain rfl := Option.some.inj hsame
      obtain ⟨number, rfl | rfl⟩ := hacts <;> cases hopens
  · rw [hstep]
    have hfault : (∀ user_id purpose number, use ≠ .counting user_id purpose number) → Coherent (world.set op world.shared none) :=
      fun hnot => hcoherent.quiet rfl (.inl rfl) (fun user_id purpose number hsome => hnot user_id purpose number
        (Option.some.inj (hpending.symm.trans hsome))) fun _ _ _ hnone => nomatch hnone
    simp only [Exclusive, hpending] at hexclusive
    cases use with
    | arrived request =>
      have hnext : ∀ use, (∀ user_id purpose, ¬use.Acts user_id purpose) → Coherent (world.set op world.shared (some use)) :=
        fun use hquiet => hcoherent.quiet rfl (.inl rfl) (fun _ _ _ hsome => (nomatch hpending.symm.trans hsome))
          fun _ user_id purpose hsame => Option.some.inj hsame ▸ hquiet user_id purpose
      cases request with
      | issue => exact hnext _ (by rintro _ _ ⟨_, hacts | hacts⟩ <;> cases hacts)
      | verify => exact hnext _ (by rintro _ _ ⟨_, hacts | hacts⟩ <;> cases hacts)
    | issuing user_id purpose code_hash expires_at =>
      cases fault with
      | true => exact hfault fun _ _ _ hsame => nomatch hsame
      | false => exact hcoherent.issued hpending (hexclusive rfl)
    | verifying user_id purpose code_hash now =>
      cases fault with
      | true => exact hfault fun _ _ _ hsame => nomatch hsame
      | false =>
        have hnot : ∀ user_id purpose number, world.pending op ≠ some (.counting user_id purpose number) :=
          fun _ _ _ hsome => nomatch hpending.symm.trans hsome
        have hrefused : ∀ outcome, Coherent (world.set op (world.shared.tell (.refused user_id purpose outcome)) none) :=
          fun outcome => hcoherent.quiet rfl (.inr ⟨user_id, purpose, outcome, rfl⟩) hnot fun _ _ _ hnone => nomatch hnone
        simp only [code_uses, CodeUse.advance, Bool.false_eq_true, if_false, verify_code]
        cases hlatest : world.shared.repo.latest user_id purpose with
        | none => exact hrefused .invalid
        | some row =>
          obtain ⟨hrow, hfor⟩ := VerificationRepo.mem_latest hlatest
          dsimp only
          by_cases hlocked : MAX_ATTEMPTS ≤ row.attempts
          · simp only [if_pos hlocked]
            exact hrefused .locked
          · by_cases hexpired : row.expires_at ≤ now
            · simp only [if_neg hlocked, if_pos hexpired]
              exact hrefused .expired
            · have hcompared := fun right => hcoherent.compared right hnot (hexclusive rfl) hrow hfor (not_le.mp hlocked)
              by_cases hwrong : row.code_hash ≠ code_hash
              · simp only [if_neg hlocked, if_neg hexpired, if_pos hwrong]
                exact hcompared false
              · simp only [if_neg hlocked, if_neg hexpired, if_neg hwrong]
                exact hcompared true
    | counting user_id purpose number =>
      cases hexclusive
      exact hcoherent.counted hpending
    | consuming user_id purpose number =>
      cases fault with
      | true => exact hfault fun _ _ _ hsame => nomatch hsame
      | false => exact hcoherent.consumed hpending (hexclusive rfl)
  · rw [hstep]
    exact { hcoherent with }

end Codes.Coherent

/-- As long as checks and issues do not meddle with each other, codes cannot be
    guessed and are used once. -/
theorem codes_hold (hash_code : Int → String → String) (moves : List (Move CodeUse Bool Duration))
    (hexclusive : (code_uses hash_code).Meets Exclusive (.idle {}) moves) :
    CodesHold ((code_uses hash_code).run (.idle {}) moves).shared.past := by
  have hstart : Codes.Coherent (.idle {}) := {
    numbered := ⟨List.nodup_nil, fun _ hrow => nomatch hrow⟩
    few := fun _ hrow => nomatch hrow
    settled := fun _ hrow => nomatch hrow
    counting := fun _ _ _ _ hpending => nomatch hpending
    consuming := fun _ _ _ _ hpending => nomatch hpending
    spent := fun _ hrow => nomatch hrow
    newest := fun _ hrow => nomatch hrow
    unknown := fun _ _ => ⟨rfl, rfl⟩
    alone := fun _ _ _ _ _ _ hpending => nomatch hpending
    live := fun _ _ _ _ _ hbegins => absurd (List.prefix_nil.mp hbegins) (by simp) }
  exact ((code_uses hash_code).invariant_run Codes.Coherent (fun _ _ hcoherent hexclusive => hcoherent.step hexclusive)
    hstart hexclusive).holds

/-- Codes as they are, in place of their digests. -/
def plain (user_id : Int) (code : String) : String := toString user_id ++ ":" ++ code

def issuing : List (Move CodeUse Bool Duration) :=
  [.begin 0 (.arrived (.issue 1 .verify_email "123456" 10)), .advance 0 false, .advance 0 false]

def guess (op : Nat) (code : String) : List (Move CodeUse Bool Duration) :=
  [.begin op (.arrived (.verify 1 .verify_email code)), .advance op false]

/-- A check that is left to itself. -/
def alone : List (Move CodeUse Bool Duration) := issuing ++ guess 1 "123456" ++ [.advance 1 false, .advance 1 false]

theorem alone_holds : CodesHold ((code_uses plain).run (.idle {}) alone).shared.past := by
  refine codes_hold plain alone ⟨trivial, trivial, fun _ => World.set_others.mpr (World.set_others.mpr (World.idle_others _)), trivial,
    trivial, fun _ => ?_, fun _ => ?_, trivial⟩
  · rintro (_ | _ | other) use hother hpending
    · cases hpending
    · exact absurd rfl hother
    · cases hpending
  · intro row hrow _
    obtain rfl := List.mem_singleton.mp hrow
    exact Nat.lt_of_sub_ne_zero (by decide)

/-- Two checks read the code before either of them uses it. -/
def at_once : List (Move CodeUse Bool Duration) :=
  issuing ++ guess 1 "123456" ++ guess 2 "123456" ++ [.advance 1 false, .advance 2 false, .advance 1 false, .advance 2 false]

theorem at_once_not_holds : ¬CodesHold ((code_uses plain).run (.idle {}) at_once).shared.past := by
  intro hholds
  have hsuccesses : successes ((code_uses plain).run (.idle {}) at_once).shared.past 1 = 2 := rfl
  exact absurd (hholds.once 1) (by rw [hsuccesses]; decide)

end refract.store
