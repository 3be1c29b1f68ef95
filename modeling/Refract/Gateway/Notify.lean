import Refract.Router.Events
import Refract.Store.Marks

open refract.core refract.machine refract.router refract.store

namespace refract.gateway

/-- How many refusals in a row take a channel out of service. -/
def AUTH_DISABLE_THRESHOLD : Nat := 3

/-- What handles the events of the router, as far as channels are taken out of
    service. -/
structure EventWorker where
  auth_streaks : Endpoint → Nat := fun _ => 0

/-- Counts the refusals of an endpoint in a row. The channel that is returned is to
    be taken out of service. -/
def EventWorker.handle (self : EventWorker) (event : RouterEvent) (kind : ErrorKind) : EventWorker × Option Int :=
  match event with
  | .failure key _ _ =>
    if kind = .unauthenticated ∨ kind = .permissionDenied then
      let streak := self.auth_streaks key + 1
      if AUTH_DISABLE_THRESHOLD ≤ streak then (⟨Function.update self.auth_streaks key 0⟩, some key.1)
      else (⟨Function.update self.auth_streaks key streak⟩, none)
    else (self, none)
  | .success key _ => (⟨Function.update self.auth_streaks key 0⟩, none)

/-- The channels, with those who put them into service and take them out of it. -/
structure Supervision where
  repo : ChannelRepo := {}
  /-- The events that wait for the worker, with the kind of a failure. -/
  events : List (RouterEvent × ErrorKind) := []
  worker : EventWorker := {}
  /-- The channel that the worker is about to take out of service. -/
  disabling : Option Int := none
  /-- The channels that are yet to be tested in this round. -/
  retests : List Int := []
  /-- The channel that has passed its test. -/
  restoring : Option Int := none
  /-- Whether an operator has taken a channel out of service since an operator last
      put it into service. -/
  held : Int → Bool := fun _ => false

/-- A transaction that requests of operators make. -/
def by_hand : ChannelChange → Bool
  | .set_auto_disabled _ | .restore_auto_disabled _ => false
  | _ => true

/-- Whether an operator keeps a channel out of service after a transaction. The form
    of a channel says so only if the channel was in service. -/
def holds (repo : ChannelRepo) (change : ChannelChange) (held : Bool) (id : Int) : Bool :=
  match change with
  | .set_enabled other enabled => if id = other then !enabled else held
  | .set_enabled_many ids enabled => if ids.contains id && (repo.get id).isSome then !enabled else held
  | .update channel => if id = channel.id then !channel.enabled && (held || (repo.get id).any (·.enabled)) else held
  | _ => held

/-- What happens around the channels. -/
inductive Occasion where
  | operate (change : ChannelChange)
  | emit (event : RouterEvent) (kind : ErrorKind)
  /-- The worker takes the next event. -/
  | recv
  | auto_disable (fault : Bool)
  /-- A round of tests begins. -/
  | list
  | test (success : Bool)
  | restore (fault : Bool)

namespace Supervision

variable (self : Supervision)

def operate (change : ChannelChange) : Supervision :=
  match change.commit self.repo with
  | some after => { self with repo := after, held := fun id => holds self.repo change (self.held id) id }
  | none => self

def recv : Supervision :=
  match self.disabling, self.events with
  | none, (event, kind) :: events =>
    { self with events, worker := (self.worker.handle event kind).1, disabling := (self.worker.handle event kind).2 }
  | _, _ => self

/-- A transaction of the gateway itself, which may fail. -/
def transact (change : ChannelChange) (fault : Bool) : Supervision :=
  { self with repo := if fault then self.repo else self.repo.perform change }

def auto_disable (fault : Bool) : Supervision :=
  match self.disabling with
  | some id => { self.transact (.set_auto_disabled id) fault with disabling := none }
  | none => self

def list : Supervision :=
  if self.retests = [] ∧ self.restoring = none then
    { self with retests := (self.repo.list.filter (·.auto_disabled)).map (·.id) }
  else self

def test (success : Bool) : Supervision :=
  match self.restoring, self.retests with
  | none, id :: retests => { self with retests, restoring := if success then some id else none }
  | _, _ => self

def restore (fault : Bool) : Supervision :=
  match self.restoring with
  | some id => { self.transact (.restore_auto_disabled id) fault with restoring := none }
  | none => self

def step : Occasion → Supervision
  | .operate change => if by_hand change then self.operate change else self
  | .emit event kind => { self with events := self.events ++ [(event, kind)] }
  | .recv => self.recv
  | .auto_disable fault => self.auto_disable fault
  | .list => self.list
  | .test success => self.test success
  | .restore fault => self.restore fault

/-- A channel that an operator has taken out of service is out of service. -/
def Obeyed : Prop := ∀ channel ∈ self.repo.list, self.held channel.id = true → channel.enabled = false

/-- The worker leaves the channels alone that an operator keeps out of service, and
    no channel that an operator takes out of service by its form carries the mark. -/
def Deferential : Occasion → Prop
  | .auto_disable false => ∀ id, self.disabling = some id → self.held id = false
  | .operate (.update channel) =>
    channel.enabled = false → ∀ row, self.repo.get channel.id = some row → row.enabled = true → row.auto_disabled = false
  | _ => True

end Supervision

/-- What keeps an operator's word. -/
structure Supervision.Kept (state : Supervision) : Prop where
  numbered : state.repo.Numbered
  known : ∀ id, state.held id = true → id < state.repo.next_id
  /-- A channel that is out of service by hand is not marked. -/
  unmarked : ∀ row ∈ state.repo.rows, row.owner_id = DEFAULT_OWNER_ID → state.held row.id = true →
    row.enabled = false ∧ row.auto_disabled = false

namespace Supervision

variable {self : Supervision}

theorem Kept.obeyed (hkept : self.Kept) : self.Obeyed := by
  intro channel hchannel hheld
  obtain ⟨hrow, howner⟩ := ChannelRepo.mem_list.mp hchannel
  exact (hkept.unmarked channel hrow howner hheld).1

/-- Only channels that there are can be kept out of service. -/
theorem Kept.holds_lt (hkept : self.Kept) {change : ChannelChange} {after : ChannelRepo}
    (hcommit : change.commit self.repo = some after) {id : Int} (hholds : holds self.repo change (self.held id) id = true) :
    id < self.repo.next_id := by
  have hfound : ∀ id, (self.repo.get id).isSome = true → id < self.repo.next_id := by
    intro id hsome
    obtain ⟨row, hget⟩ := Option.isSome_iff_exists.mp hsome
    exact hkept.numbered.get_lt hget
  cases change with
  | set_enabled other enabled =>
    by_cases hid : id = other
    · obtain ⟨⟨row, hrow, howned⟩, -⟩ := ChannelRepo.ensure_affected_eq_some.mp hcommit
      exact hfound id (List.find?_isSome.mpr ⟨row, hrow, hid ▸ howned⟩)
    · rw [holds, if_neg hid] at hholds
      exact hkept.known id hholds
  | set_enabled_many ids enabled =>
    by_cases hid : (ids.contains id && (self.repo.get id).isSome) = true
    · exact hfound id (Bool.and_eq_true_iff.mp hid).2
    · rw [holds, if_neg hid] at hholds
      exact hkept.known id hholds
  | update channel =>
    by_cases hid : id = channel.id
    · rw [holds, if_pos hid, Bool.and_eq_true, Bool.or_eq_true] at hholds
      rcases hholds.2 with hheld | hwas
      · exact hkept.known id hheld
      · obtain ⟨row, hget, -⟩ := (Option.any_eq_true ..).mp hwas
        exact hkept.numbered.get_lt hget
    · rw [holds, if_neg hid] at hholds
      exact hkept.known id hholds
  | _ => exact hkept.known id hholds

/-- After a transaction, the operators' word has to be kept on the rows that there
    were. -/
theorem Kept.commit (hkept : self.Kept) {change : ChannelChange} {after : ChannelRepo} {held : Int → Bool}
    (hcommit : change.commit self.repo = some after) (hknown : ∀ id, held id = true → id < self.repo.next_id)
    (hrows : ∀ old ∈ self.repo.rows, old.owner_id = DEFAULT_OWNER_ID → held old.id = true →
      if change.meant old then (change.rewrite old).enabled = false ∧ (change.rewrite old).auto_disabled = false
      else self.held old.id = true) :
    Kept { self with repo := after, held } where
  numbered := hkept.numbered.commit hcommit
  known id hheld := (hknown id hheld).trans_le (ChannelRepo.next_id_le_commit hcommit)
  unmarked row hrow howner hheld := by
    rcases change.commit_rows hcommit hrow with ⟨old, hold, rfl⟩ | ⟨hnew, -⟩
    · by_cases hmeant : change.meant old = true
      · simp only [if_pos hmeant] at howner hheld ⊢
        rw [change.rewrite_owner_id] at howner
        rw [ChannelChange.rewrite_id hmeant] at hheld
        simpa only [if_pos hmeant] using hrows old hold howner hheld
      · simp only [if_neg hmeant] at howner hheld ⊢
        have hbefore := hrows old hold howner hheld
        rw [if_neg hmeant] at hbefore
        exact hkept.unmarked old hold howner hbefore
    · exact absurd (hknown row.id hheld) hnew.not_gt

theorem Kept.operate (hkept : self.Kept) {change : ChannelChange} (hhand : by_hand change = true)
    (hdeferential : self.Deferential (.operate change)) : (self.operate change).Kept := by
  unfold Supervision.operate
  cases hcommit : change.commit self.repo with
  | none => exact hkept
  | some after =>
    refine hkept.commit hcommit (fun id => hkept.holds_lt hcommit) fun old hold howner hholds => ?_
    cases change with
    | set_enabled other enabled =>
      by_cases hid : old.id = other
      · simp only [holds, hid, if_true, Bool.not_eq_true'] at hholds
        simp [ChannelChange.meant, ChannelChange.rewrite, ChannelRepo.owned, hid, howner, hholds]
      · rw [holds, if_neg hid] at hholds
        simp [ChannelChange.meant, ChannelRepo.owned, hid, hholds]
    | set_enabled_many ids enabled =>
      have hsome : (self.repo.get old.id).isSome = true :=
        Option.isSome_of_eq_some (hkept.numbered.get_eq_some hold (by simp [ChannelRepo.owned, howner]))
      by_cases hid : ids.contains old.id = true
      · simp only [holds, hid, hsome, Bool.and_self, if_true, Bool.not_eq_true'] at hholds
        simp [ChannelChange.meant, ChannelChange.rewrite, List.contains_iff_mem.mp hid, howner, hholds]
      · have hnot : old.id ∉ ids := fun hmem => hid (List.contains_iff_mem.mpr hmem)
        simp only [holds, hid, Bool.false_and, Bool.false_eq_true, if_false] at hholds
        simp [ChannelChange.meant, hnot, hholds]
    | update channel =>
      by_cases hid : old.id = channel.id
      · have howned : ChannelRepo.owned channel.id old = true := by simp [ChannelRepo.owned, hid, howner]
        have hget := hkept.numbered.get_eq_some hold howned
        simp only [holds, hid, if_true, hget, Option.any_some, Bool.and_eq_true, Bool.not_eq_true', Bool.or_eq_true] at hholds
        have hmark : old.auto_disabled = false := by
          rcases hholds.2 with hheld | hwas
          · exact (hkept.unmarked old hold howner (hid ▸ hheld)).2
          · exact hdeferential hholds.1 old hget hwas
        have hmeant : (ChannelChange.update channel).meant old = true := howned
        rw [if_pos hmeant]
        exact ⟨hholds.1, hmark⟩
      · rw [holds, if_neg hid] at hholds
        simp [ChannelChange.meant, ChannelRepo.owned, hid, hholds]
    | set_balance id balance =>
      split
      · exact hkept.unmarked old hold howner hholds
      · exact hholds
    | create | replace_all | delete_many | delete => exact hholds
    | set_auto_disabled | restore_auto_disabled => cases hhand

/-- A transaction of the gateway that leaves the channels alone that are out of
    service by hand. -/
theorem Kept.transact (hkept : self.Kept) {change : ChannelChange} {fault : Bool}
    (hrows : fault = false → ∀ old ∈ self.repo.rows, self.held old.id = true → change.meant old = true →
      old.auto_disabled = true) : (self.transact change fault).Kept := by
  unfold Supervision.transact
  cases fault with
  | true => exact hkept
  | false =>
    unfold ChannelRepo.perform
    cases hcommit : change.commit self.repo with
    | none => exact hkept
    | some after =>
      refine hkept.commit hcommit hkept.known fun old hold howner hheld => ?_
      by_cases hmeant : change.meant old = true
      · have hmark := hrows rfl old hold hheld hmeant
        cases hmark.symm.trans (hkept.unmarked old hold howner hheld).2
      · rwa [if_neg hmeant]

theorem Kept.step (hkept : self.Kept) (occasion : Occasion) (hdeferential : self.Deferential occasion) :
    (self.step occasion).Kept := by
  have hframe : ∀ state : Supervision, state.repo = self.repo → state.held = self.held → state.Kept := by
    intro state hrepo hheld
    refine ⟨hrepo ▸ hkept.numbered, ?_, ?_⟩
    · rw [hheld, hrepo]
      exact hkept.known
    · rw [hheld, hrepo]
      exact hkept.unmarked
  cases occasion with
  | operate change =>
    by_cases hhand : by_hand change = true
    · simp only [Supervision.step, hhand, if_true]
      exact hkept.operate hhand hdeferential
    · simp only [Supervision.step, hhand, Bool.false_eq_true, if_false]
      exact hkept
  | emit event kind => exact hframe _ rfl rfl
  | recv =>
    refine hframe _ ?_ ?_ <;> simp only [Supervision.step, Supervision.recv] <;> split <;> rfl
  | auto_disable fault =>
    simp only [Supervision.step, Supervision.auto_disable]
    cases hdisabling : self.disabling with
    | none => exact hkept
    | some id =>
      have htransacted : (self.transact (.set_auto_disabled id) fault).Kept := by
        refine hkept.transact fun hfault old hold hheld hmeant => ?_
        subst hfault
        simp only [ChannelChange.meant, ChannelRepo.owned, Bool.and_eq_true, decide_eq_true_eq] at hmeant
        have hfree := hdeferential id hdisabling
        rw [← hmeant.1, hheld] at hfree
        cases hfree
      exact ⟨htransacted.numbered, htransacted.known, htransacted.unmarked⟩
  | list =>
    refine hframe _ ?_ ?_ <;> simp only [Supervision.step, Supervision.list] <;> split <;> rfl
  | test success =>
    refine hframe _ ?_ ?_ <;> simp only [Supervision.step, Supervision.test] <;> split <;> rfl
  | restore fault =>
    simp only [Supervision.step, Supervision.restore]
    cases hrestoring : self.restoring with
    | none => exact hkept
    | some id =>
      have htransacted : (self.transact (.restore_auto_disabled id) fault).Kept :=
        hkept.transact fun _ old _ _ hmeant => (Bool.and_eq_true_iff.mp hmeant).2
      exact ⟨htransacted.numbered, htransacted.known, htransacted.unmarked⟩

end Supervision

/-- As long as the worker defers to the operators, a channel that an operator takes
    out of service stays so until an operator puts it back. -/
theorem operators_obeyed (occasions : List Occasion)
    (hdeferential : Along Supervision.step Supervision.Deferential {} occasions) :
    Throughout Supervision.step Supervision.Obeyed {} occasions := by
  have hstart : Supervision.Kept {} := ⟨.empty, fun _ hheld => (nomatch hheld), fun _ hrow => (nomatch hrow)⟩
  have hkept := hdeferential.throughout (fun _ occasion hkept => hkept.step occasion) hstart
  exact fun before hbefore => (hkept before hbefore).obeyed

/-- A refusal by the upstream of the first channel. -/
def refusal : Occasion := .emit (.failure first_endpoint false 1) .unauthenticated

/-- An operator takes a channel out of service while its failures wait for the
    worker, which goes on to do the same. -/
def delayed : List Occasion :=
  [.operate (.create lone), refusal, refusal, refusal, .operate (.set_enabled 1 false), .recv, .recv, .recv, .auto_disable false]

/-- One failure less: the worker takes nothing out of service. -/
theorem spared_obeyed :
    Throughout Supervision.step Supervision.Obeyed {}
      [.operate (.create lone), refusal, refusal, .operate (.set_enabled 1 false), .recv, .recv, .list, .test true, .restore false] :=
  operators_obeyed _ ⟨trivial, trivial, trivial, trivial, trivial, trivial, trivial, trivial, trivial, trivial⟩

/-- The worker marks the channel. -/
def marked : Supervision := delayed.foldl Supervision.step {}

theorem marked_list : marked.step .list = { marked with retests := [1] } := by
  have hlist : marked.repo.list = [{ lone with enabled := false, auto_disabled := true }] :=
    ChannelRepo.list_of_singleton rfl rfl
  rw [Supervision.step, Supervision.list, if_pos ⟨rfl, rfl⟩, hlist]
  rfl

/-- A test puts the channel back into service. -/
theorem delayed_not_obeyed :
    ¬Throughout Supervision.step Supervision.Obeyed {} (delayed ++ [.list, .test true, .restore false]) := by
  intro hall
  have hend := hall.finish
  have hmarked : delayed.foldl Supervision.step {} = marked := rfl
  rw [List.foldl_append, hmarked, List.foldl_cons, marked_list] at hend
  have hdisabled := hend lone (ChannelRepo.mem_list.mpr ⟨.head _, rfl⟩) rfl
  cases hdisabled

end refract.gateway

namespace refract.gateway.webhook

section Memory

variable {κ : Type}

/-- The memory tells as much about the window before a time as the log of all that was let
    through. -/
structure Remembers (window : Nat) (memory : κ → Option Nat) (log : List (κ × Nat)) (now : Nat) : Prop where
  past : ∀ entry ∈ log, entry.2 ≤ now
  sound : ∀ key time, memory key = some time → (key, time) ∈ log
  complete : ∀ entry ∈ log, now - entry.2 < window → ∃ later, entry.2 ≤ later ∧ memory entry.1 = some later

variable {window now time : Nat} {memory : κ → Option Nat} {log : List (κ × Nat)} {key : κ}

theorem Remembers.mono (hremembers : Remembers window memory log now) {later : Nat} (hlater : now ≤ later) :
    Remembers window memory log later where
  past entry hentry := (hremembers.past entry hentry).trans hlater
  sound := hremembers.sound
  complete entry hentry hwithin := hremembers.complete entry hentry (by omega)

variable [DecidableEq κ]

/-- Lets a key through, unless it was let through within the window. What is older than two
    windows is then forgotten. -/
def let_through (window : Nat) (memory : κ → Option Nat) (key : κ) (now : Nat) : Bool × (κ → Option Nat) :=
  if (memory key).any fun time => now - time < window then (false, memory)
  else (true, fun other => (Function.update memory key (some now) other).filter fun time => now - time < window * 2)

/-- A key is in a log within the window. -/
def recent (window : Nat) (log : List (κ × Nat)) (key : κ) (now : Nat) : Bool :=
  log.any fun entry => entry.1 = key && now - entry.2 < window

/-- Nothing that matters is forgotten. -/
theorem Remembers.recent_eq (hremembers : Remembers window memory log now) :
    recent window log key now = (memory key).any fun time => now - time < window := by
  rw [Bool.eq_iff_iff, recent, List.any_eq_true, Option.any_eq_true]
  constructor
  · rintro ⟨entry, hentry, hwithin⟩
    rw [Bool.and_eq_true, decide_eq_true_eq, decide_eq_true_eq] at hwithin
    obtain ⟨later, hle, hmemory⟩ := hremembers.complete entry hentry hwithin.2
    exact ⟨later, hwithin.1 ▸ hmemory, decide_eq_true (by omega)⟩
  · rintro ⟨time, hmemory, hwithin⟩
    exact ⟨(key, time), hremembers.sound key time hmemory, by simpa using hwithin⟩

theorem Remembers.let_through (hremembers : Remembers window memory log now) :
    Remembers window (let_through window memory key now).2 (if recent window log key now then log else (key, now) :: log) now := by
  rw [hremembers.recent_eq]
  unfold webhook.let_through
  split
  · exact hremembers
  · refine ⟨List.forall_mem_cons.mpr ⟨le_rfl, hremembers.past⟩, fun other time htime => ?_, fun entry hentry hwithin => ?_⟩
    · obtain ⟨hwritten, -⟩ := Option.filter_eq_some_iff.mp htime
      by_cases hother : other = key
      · rw [hother, Function.update_self] at hwritten
        cases hwritten
        exact hother ▸ .head _
      · rw [Function.update_of_ne hother] at hwritten
        exact .tail _ (hremembers.sound other time hwritten)
    · have hpast : entry.2 ≤ now := by
        rcases List.mem_cons.mp hentry with rfl | hentry
        · exact le_rfl
        · exact hremembers.past entry hentry
      by_cases hkey : entry.1 = key
      · refine ⟨now, hpast, ?_⟩
        rw [hkey]
        exact Option.filter_eq_some_iff.mpr ⟨Function.update_self .., decide_eq_true (by omega)⟩
      · have hlogged : entry ∈ log := by
          rcases List.mem_cons.mp hentry with rfl | hentry
          · exact absurd rfl hkey
          · exact hentry
        obtain ⟨later, hle, hmemory⟩ := hremembers.complete entry hlogged hwithin
        exact ⟨later, hle, Option.filter_eq_some_iff.mpr ⟨(Function.update_of_ne hkey ..).trans hmemory, decide_eq_true (by omega)⟩⟩

end Memory

section Alerts

/-- How long the same alert is not sent again, in nanoseconds. -/
def DEDUP_WINDOW : Nat := 300 * 1000000000

inductive NoticeKind where
  | suspended
  | recovered
  | auto_disabled
  deriving DecidableEq, Repr

def NoticeKind.as_str : NoticeKind → String
  | .suspended => "endpoint.suspended"
  | .recovered => "endpoint.recovered"
  | .auto_disabled => "channel.auto_disabled"

/-- The protocol as `{:?}` shows it. -/
def debug_protocol : Option Protocol → String
  | none => "None"
  | some .chat => "Some(Chat)"
  | some .responses => "Some(Responses)"
  | some .messages => "Some(Messages)"
  | some .gemini => "Some(Gemini)"

/-- What an alert is about. -/
structure Topic where
  event : NoticeKind
  channel : String
  protocol : Option Protocol
  deriving DecidableEq

structure Notice where
  topic : Topic
  detail : String
  deriving DecidableEq

def Topic.key (self : Topic) : String :=
  self.event.as_str ++ ":" ++ self.channel ++ ":" ++ debug_protocol self.protocol

theorem first_colon {front front' rest rest' : List Char} (hfront : ':' ∉ front) (hfront' : ':' ∉ front')
    (heq : front ++ ':' :: rest = front' ++ ':' :: rest') : front = front' ∧ rest = rest' := by
  induction front generalizing front' with
  | nil =>
    cases front' with
    | nil => exact ⟨rfl, (List.cons.inj heq).2⟩
    | cons c front' => exact absurd ((List.cons.inj heq).1 ▸ .head _) hfront'
  | cons c front ih =>
    cases front' with
    | nil => exact absurd ((List.cons.inj heq).1 ▸ .head _) hfront
    | cons c' front' =>
      obtain ⟨hchar, htail⟩ := List.cons.inj heq
      obtain ⟨hfronts, hrest⟩ := ih (fun h => hfront (.tail _ h)) (fun h => hfront' (.tail _ h)) htail
      exact ⟨by rw [hchar, hfronts], hrest⟩

theorem last_colon {front front' last last' : List Char} (hlast : ':' ∉ last) (hlast' : ':' ∉ last')
    (heq : front ++ ':' :: last = front' ++ ':' :: last') : front = front' ∧ last = last' := by
  have hreversed := congrArg List.reverse heq
  simp only [List.reverse_append, List.reverse_cons, List.append_assoc, List.singleton_append] at hreversed
  obtain ⟨hback, hfront⟩ := first_colon (by rwa [List.mem_reverse]) (by rwa [List.mem_reverse]) hreversed
  exact ⟨List.reverse_inj.mp hfront, List.reverse_inj.mp hback⟩

/-- Alerts about different things are not taken for each other, whatever the channels are called. -/
theorem key_injective : Function.Injective Topic.key := by
  intro a b heq
  obtain ⟨event, channel, protocol⟩ := a
  obtain ⟨event', channel', protocol'⟩ := b
  have hchars := congrArg String.toList heq
  have hcolon : ":".toList = [':'] := rfl
  simp only [Topic.key, String.toList_append, List.append_assoc, hcolon, List.singleton_append] at hchars
  have hplain : ∀ event : NoticeKind, ':' ∉ event.as_str.toList := by intro event; cases event <;> decide
  have hclosed : ∀ protocol, ':' ∉ (debug_protocol protocol).toList := by
    rintro (_ | _ | _ | _ | _) <;> decide
  obtain ⟨hevent, hrest⟩ := first_colon (hplain event) (hplain event') hchars
  obtain ⟨hchannel, hprotocol⟩ := last_colon (hclosed protocol) (hclosed protocol') hrest
  have hkind : event = event' := by
    cases event <;> cases event' <;> first | rfl | exact absurd hevent (by decide)
  have hendpoint : protocol = protocol' := by
    rcases protocol with _ | _ | _ | _ | _ <;> rcases protocol' with _ | _ | _ | _ | _ <;>
      first | rfl | exact absurd hprotocol (by decide)
  rw [hkind, hendpoint, String.toList_inj.mp hchannel]

/-- An event of the router with all that it tells. -/
structure Told where
  event : RouterEvent
  kind : ErrorKind
  channel_name : String
  message : String

/-- What the worker has to report. A channel that could not be taken out of service is not
    reported. -/
def notice (worker : EventWorker) (told : Told) (fault : Bool) : Option Notice :=
  match told.event, (worker.handle told.event told.kind).2 with
  | .failure key _ _, some _ =>
    if fault then none
    else some ⟨⟨.auto_disabled, told.channel_name, some key.2⟩,
      "连续 " ++ toString AUTH_DISABLE_THRESHOLD ++ " 次凭据/权限错误，渠道已自动停用：" ++ told.message⟩
  | .failure key suspended _, none =>
    if suspended then some ⟨⟨.suspended, told.channel_name, some key.2⟩, "端点被熔断暂停：" ++ told.message⟩ else none
  | .success key recovered, _ =>
    if recovered then some ⟨⟨.recovered, told.channel_name, some key.2⟩, "端点已从熔断中恢复"⟩ else none

/-- The worker takes an event. -/
structure Turn where
  told : Told
  /-- The channel cannot be taken out of service. -/
  fault : Bool := false
  webhook_url : Option String
  now : Nat

structure Desk where
  worker : EventWorker := {}
  dedup : String → Option Nat := fun _ => none

def Desk.notify (self : Desk) (notice : Notice) (url : Option String) (now : Nat) : Desk × Option Notice :=
  match url with
  | none => (self, none)
  | some _ =>
    let (passed, dedup) := let_through DEDUP_WINDOW self.dedup notice.topic.key now
    ({ self with dedup }, if passed then some notice else none)

def Desk.handle (self : Desk) (turn : Turn) : Desk × Option Notice :=
  let after := { self with worker := (self.worker.handle turn.told.event turn.told.kind).1 }
  match notice self.worker turn.told turn.fault with
  | some notice => after.notify notice turn.webhook_url turn.now
  | none => (after, none)

/-- The alerts that are sent, event by event. -/
def Desk.run : Desk → List Turn → List (Option Notice)
  | _, [] => []
  | self, turn :: turns => (self.handle turn).2 :: Desk.run (self.handle turn).1 turns

/-- A worker that keeps all it has sent, to send nothing twice within the window. -/
structure Journal where
  worker : EventWorker := {}
  sent : List (Topic × Nat) := []

def Journal.handle (self : Journal) (turn : Turn) : Journal × Option Notice :=
  let worker := (self.worker.handle turn.told.event turn.told.kind).1
  match notice self.worker turn.told turn.fault, turn.webhook_url with
  | some notice, some _ =>
    if recent DEDUP_WINDOW self.sent notice.topic turn.now then ({ self with worker }, none)
    else ({ worker, sent := (notice.topic, turn.now) :: self.sent }, some notice)
  | _, _ => ({ self with worker }, none)

def Journal.run : Journal → List Turn → List (Option Notice)
  | _, [] => []
  | self, turn :: turns => (self.handle turn).2 :: Journal.run (self.handle turn).1 turns

/-- The log under the keys of the memory. -/
def keyed (sent : List (Topic × Nat)) : List (String × Nat) := sent.map (Prod.map Topic.key id)

theorem recent_keyed (window : Nat) (sent : List (Topic × Nat)) (topic : Topic) (now : Nat) :
    recent window (keyed sent) topic.key now = recent window sent topic now := by
  simp only [recent, keyed, List.any_map]
  congr 1
  funext entry
  simp [key_injective.eq_iff]

/-- The worker remembers what it needs of what was sent. -/
structure Kept (desk : Desk) (journal : Journal) (now : Nat) : Prop where
  worker : desk.worker = journal.worker
  dedup : Remembers DEDUP_WINDOW desk.dedup (keyed journal.sent) now

variable {desk : Desk} {journal : Journal} {now : Nat} {turn : Turn} {turns : List Turn}

/-- Both send the same. -/
theorem Kept.handle (hkept : Kept desk journal now) (hlater : now ≤ turn.now) :
    (desk.handle turn).2 = (journal.handle turn).2 ∧ Kept (desk.handle turn).1 (journal.handle turn).1 turn.now := by
  have hdedup := hkept.dedup.mono hlater
  simp only [Desk.handle, Journal.handle, hkept.worker]
  rcases hnotice : notice journal.worker turn.told turn.fault with _ | notice
  · exact ⟨rfl, rfl, hdedup⟩
  · rcases hurl : turn.webhook_url with _ | url
    · exact ⟨rfl, rfl, hdedup⟩
    · have hsame : recent DEDUP_WINDOW journal.sent notice.topic turn.now =
          (desk.dedup notice.topic.key).any fun time => turn.now - time < DEDUP_WINDOW := by
        rw [← recent_keyed, hdedup.recent_eq]
      have hafter : Remembers DEDUP_WINDOW (let_through DEDUP_WINDOW desk.dedup notice.topic.key turn.now).2
          (if recent DEDUP_WINDOW (keyed journal.sent) notice.topic.key turn.now then keyed journal.sent
            else (notice.topic.key, turn.now) :: keyed journal.sent) turn.now := hdedup.let_through
      rw [recent_keyed] at hafter
      simp only [Desk.notify]
      by_cases hrecent : recent DEDUP_WINDOW journal.sent notice.topic turn.now = true
      · have hpassed : (let_through DEDUP_WINDOW desk.dedup notice.topic.key turn.now).1 = false := by
          rw [let_through, if_pos (hsame ▸ hrecent)]
        rw [if_pos hrecent] at hafter
        simp only [hrecent, if_true, hpassed, Bool.false_eq_true, if_false, true_and]
        exact ⟨rfl, hafter⟩
      · have hpassed : (let_through DEDUP_WINDOW desk.dedup notice.topic.key turn.now).1 = true := by
          rw [let_through, if_neg (hsame ▸ hrecent)]
        rw [if_neg hrecent] at hafter
        simp only [hrecent, hpassed, if_true, Bool.false_eq_true, if_false, true_and]
        exact ⟨rfl, hafter⟩

theorem Kept.run (hkept : Kept desk journal now) (hlater : ∀ turn ∈ turns, now ≤ turn.now)
    (hclock : turns.Pairwise fun a b => a.now ≤ b.now) : desk.run turns = journal.run turns := by
  induction turns generalizing desk journal now with
  | nil => rfl
  | cons turn turns ih =>
    obtain ⟨hfirst, hrest⟩ := List.pairwise_cons.mp hclock
    obtain ⟨hsent, hnext⟩ := hkept.handle (hlater turn (.head _))
    rw [Desk.run, Journal.run, hsent, ih hnext hfirst hrest]

/-- The worker forgets nothing that matters: of the alerts it has to report, with an address to
    send them to, it sends exactly those about something that no alert was sent about within the
    last five minutes. -/
theorem alerts_sent_once (hclock : turns.Pairwise fun a b => a.now ≤ b.now) : Desk.run {} turns = Journal.run {} turns := by
  have hstart : Kept {} {} 0 :=
    ⟨rfl, ⟨List.forall_mem_nil _, fun _ _ htime => absurd htime (Option.some_ne_none _).symm, List.forall_mem_nil _⟩⟩
  exact hstart.run (fun turn _ => Nat.zero_le _) hclock

/-- Two outages of an endpoint within a minute. -/
def outages : List Turn :=
  [⟨⟨.failure (1, .chat) true 3, .upstreamError, "a", "down"⟩, false, some "https://example.com/hook", 1000000000⟩,
    ⟨⟨.failure (1, .chat) true 3, .upstreamError, "a", "down"⟩, false, some "https://example.com/hook", 40 * 1000000000⟩]

theorem alerts_sent_once_outages :
    Desk.run {} outages = [some ⟨⟨.suspended, "a", some .chat⟩, "端点被熔断暂停：down"⟩, none] :=
  (alerts_sent_once (by simp [outages])).trans (by decide)

end Alerts

end refract.gateway.webhook
