import Refract.Gateway.Affinity
import Refract.Gateway.Catalog

open refract.core refract.json refract.machine refract.router refract.store

namespace refract.gateway

namespace AppState

variable (self : AppState) (channel_id : Int)

/-- Forgets what is known about a channel. -/
def forget_channel : AppState :=
  { self with
    affinity := self.affinity.forget_channel channel_id
    keys := self.keys.forget_channel channel_id }

/-- No binding is to a channel, and no place in its keys is kept. -/
structure NoTrace (state : AppState) (id : Int) : Prop where
  affinity : state.affinity.Unused id
  keys : state.keys.Blank id

theorem forget_channel_noTrace : (self.forget_channel channel_id).NoTrace channel_id where
  affinity := AffinityEngine.forget_channel_unused channel_id
  keys := KeySelector.forget_channel_blank

end AppState

/-- What the gateway keeps in memory beside the table of channels. -/
structure Memory where
  catalog : Catalog
  planner : RoutePlanner
  affinity : AffinityEngine
  keys : KeySelector := {}
  now : Instant := 0
  /-- The channels that were deleted. -/
  deleted : List Int := []

namespace Memory

variable (self : Memory)

def state : AppState where
  channels := self.catalog.snapshot.value
  planner := self.planner
  affinity := self.affinity
  keys := self.keys

/-- The table or the snapshot has changed. -/
def edited (catalog : Catalog) : Memory :=
  { self with catalog, deleted := self.deleted ++ self.catalog.repo.removed catalog.repo }

end Memory

/-- A request under way. -/
inductive Flight where
  | arrived (request : GatewayRequest)
  | resolved (request : GatewayRequest) (decision : Option AffinityDecision)
  | executing (decision : Option AffinityDecision) (route : Route)
  /-- A candidate is called with a key of its channel. -/
  | calling (decision : Option AffinityDecision) (route : Route) (candidate : Candidate) (rotator : KeyRotator)
  | served (decision : Option AffinityDecision) (winner : Int)
  | streaming (decision : Option AffinityDecision) (channel_id : Int)

/-- How a request goes on. -/
inductive Turn (ρ : Type) where
  | resolve
  | plan (handling : Handling) (source : ρ)
  /-- Takes a key of the candidate at a place. -/
  | start (place random : Nat)
  | rotate (kind : ErrorKind)
  /-- Leaves the candidate. -/
  | fail_over
  | answer
  | record (streams : Bool)
  /-- All candidates have failed. -/
  | give_up
  | finish (broken : Bool)
  | cancel

section System

variable {ρ : Type} (serde : Serde) (rng : Rng ρ) (shared : Memory)

def Flight.advance : Flight → Turn ρ → Memory × Option Flight
  | .arrived request, .resolve =>
    let resolved := resolve_affinity serde shared.affinity request shared.now
    ({ shared with affinity := resolved.2 }, some (.resolved request resolved.1))
  | .resolved request decision, .plan handling source =>
    let planned := planned_route rng handling shared.state request source
    let pinned := pin shared.state decision shared.affinity planned
    let channels := allowed_channels shared.state.channels request.principal
    ({ shared with
       affinity := pinned.2
       planner := (shared.planner.plan rng channels request.model request.inbound source).2.1 },
      if pinned.1.attempts.isEmpty then none else some (.executing decision (settled_route decision pinned.1)))
  | .executing decision route, .start place random =>
    match route.attempts[place]? with
    | none => (shared, some (.executing decision route))
    | some candidate =>
      let pool := candidate.channel.key_pool candidate.endpoint
      let started := shared.keys.start candidate.channel_id pool route.identity ⟨random % pool.len, Nat.mod_lt _ pool.len_pos⟩
      ({ shared with keys := started.2 }, some (.calling decision route candidate started.1))
  | .executing decision _, .give_up =>
    ({ shared with affinity := decision.elim shared.affinity (settle_affinity_on_failure shared.affinity) }, none)
  | .calling decision route candidate rotator, .rotate kind =>
    (shared, some (.calling decision route candidate (rotator.rotate kind).2))
  | .calling decision route _ _, .fail_over => (shared, some (.executing decision route))
  | .calling decision route candidate rotator, .answer =>
    ({ shared with keys := rotator.commit shared.keys candidate.channel_id route.identity },
      some (.served decision candidate.channel_id))
  | .served decision winner, .record streams =>
    ({ shared with affinity := decision.elim shared.affinity (shared.affinity.record · winner shared.now) },
      if streams then some (.streaming decision winner) else none)
  | .streaming decision channel_id, .finish broken =>
    ({ shared with
       affinity := (decision.filter fun decision => broken && !decision.skip_retry_on_failure).elim shared.affinity
         fun decision => shared.affinity.forget_if_bound_to decision.cache_key channel_id }, none)
  | _, .cancel => (shared, none)
  | flight, _ => (shared, some flight)

/-- The channel that a request is about to leave a trace of. -/
def Flight.names : Flight → Turn ρ → Option Int
  | .executing _ route, .start place _ =>
    (route.attempts[place]?.filter fun c => (c.channel.key_pool c.endpoint).strategy ≠ .random).map (·.channel_id)
  | .calling _ route candidate rotator, .answer =>
    if rotator.pool.strategy = .sticky && route.identity.isSome then some candidate.channel_id else none
  | .served decision winner, .record _ =>
    (decision.filter fun decision =>
      !((shared.affinity.bound decision.cache_key).any (· ≠ winner) && !shared.affinity.switch_on_success)).map fun _ => winner
  | _, _ => none

inductive Activity where
  | edit (edit : Edit)
  | request (flight : Flight)

inductive Choice (ρ : Type) where
  | edit (fault : Bool)
  | request (turn : Turn ρ)

/-- What else happens to the memory. -/
inductive Upkeep where
  | tick (elapsed : Nat)
  | reload_affinity (enabled switch_on_success keep_on_channel_disabled : Bool) (max_entries : Nat) (rules : List CompiledRule)
  | clear_affinity

def advance_memory (activity : Activity) (choice : Choice ρ) : Memory × Option Activity :=
  match activity, choice with
  | .edit edit, .edit fault =>
    let edited := edit.advance shared.catalog fault
    (shared.edited edited.1, edited.2.map .edit)
  | .request flight, .request turn =>
    let advanced := flight.advance serde rng shared turn
    (advanced.1, advanced.2.map .request)
  | activity, _ => (shared, some activity)

def Upkeep.perform : Upkeep → Memory
  | .tick elapsed => { shared with now := shared.now + elapsed }
  | .reload_affinity enabled switch_on_success keep_on_channel_disabled max_entries rules =>
    { shared with
      affinity := { shared.affinity with enabled, switch_on_success, keep_on_channel_disabled, max_entries, rules } }
  | .clear_affinity => { shared with affinity := shared.affinity.clear }

/-- Requests and operations on the channels, each in its own time. -/
def memory : Interleaving Memory Activity (Choice ρ) Upkeep where
  opens
    | .edit (.arrived _) => true
    | .request (.arrived _) => true
    | _ => false
  advance := advance_memory serde rng
  happen shared upkeep := upkeep.perform shared

end System

/-- No channel is deleted of which there is a trace, and no request leaves one of
    a channel that was deleted. -/
def Tidy {ρ : Type} (world : World Memory Activity) : Move Activity (Choice ρ) Upkeep → Prop
  | .advance id (.edit fault) => ∀ change next changed after,
    world.pending id = some (.edit (.working (.write change next) changed)) → fault = false →
      change.commit world.shared.catalog.repo = some after →
        ∀ channel_id ∈ world.shared.catalog.repo.removed after, world.shared.state.NoTrace channel_id
  | .advance id (.request turn) => ∀ flight channel_id, world.pending id = some (.request flight) →
    flight.names world.shared turn = some channel_id → channel_id ∉ world.shared.deleted
  | _ => True

section Traces

variable {ρ : Type} {serde : Serde} {rng : Rng ρ} {shared : Memory} {channel_id : Int}

theorem Memory.NoTrace.set_affinity (hnone : shared.state.NoTrace channel_id) {engine : AffinityEngine}
    (hfades : shared.affinity.Fades engine) : ({ shared with affinity := engine } : Memory).state.NoTrace channel_id where
  affinity := hfades.unused hnone.affinity
  keys := hnone.keys

/-- A request leaves a trace of no channel but the one it names. -/
theorem Flight.advance_noTrace (flight : Flight) (turn : Turn ρ) (hnone : shared.state.NoTrace channel_id)
    (hnames : flight.names shared turn ≠ some channel_id) :
    (flight.advance serde rng shared turn).1.state.NoTrace channel_id := by
  cases flight with
  | arrived request =>
    cases turn with
    | resolve => exact Memory.NoTrace.set_affinity hnone (resolve_affinity_fades serde shared.affinity request shared.now).1
    | _ => exact hnone
  | resolved request decision =>
    cases turn with
    | plan handling source =>
      cases decision with
      | none => exact ⟨hnone.affinity, hnone.keys⟩
      | some decision => exact ⟨(pin_fades shared.state decision shared.affinity _).unused hnone.affinity, hnone.keys⟩
    | _ => exact hnone
  | executing decision route =>
    cases turn with
    | start place random =>
      simp only [Flight.advance]
      cases hplace : route.attempts[place]? with
      | none => exact hnone
      | some candidate =>
        refine ⟨hnone.affinity, hnone.keys.first_index fun hdrawn hid => hnames ?_⟩
        simp [Flight.names, hplace, Option.filter, hdrawn, hid]
    | give_up =>
      cases decision with
      | none => exact hnone
      | some decision => exact Memory.NoTrace.set_affinity hnone (settle_fades shared.affinity decision)
    | _ => exact hnone
  | calling decision route candidate rotator =>
    cases turn with
    | answer =>
      simp only [Flight.advance, KeyRotator.commit]
      split
      next hsticky =>
        refine ⟨hnone.affinity, hnone.keys.commit_sticky (fun hidentity hid => hnames ?_) _⟩
        simp [Flight.names, hsticky, hidentity, hid]
      next => exact hnone
    | _ => exact hnone
  | served decision winner =>
    cases turn with
    | record streams =>
      cases decision with
      | none => exact hnone
      | some decision =>
        have hunused : shared.affinity.Unused channel_id := hnone.affinity
        refine ⟨hunused.record decision shared.now fun hwritten hid => hnames ?_, hnone.keys⟩
        simp only [Flight.names, Option.filter, hwritten, Bool.not_false, if_true, Option.map_some, hid]
    | _ => exact hnone
  | streaming decision channel_id =>
    cases turn with
    | finish broken =>
      simp only [Flight.advance]
      cases decision.filter fun decision => broken && !decision.skip_retry_on_failure with
      | none => exact hnone
      | some decision =>
        exact Memory.NoTrace.set_affinity hnone (AffinityEngine.forget_if_bound_to_fades decision.cache_key channel_id)
    | _ => exact hnone

/-- Requests delete no channel. -/
theorem Flight.advance_deleted (flight : Flight) (turn : Turn ρ) :
    (flight.advance serde rng shared turn).1.deleted = shared.deleted := by
  unfold Flight.advance
  split
  case h_3 =>
    split
    · rfl
    · rfl
  all_goals rfl

/-- Of channels that were deleted there is no trace. -/
def Memory.Tidied (shared : Memory) : Prop := ∀ channel_id ∈ shared.deleted, shared.state.NoTrace channel_id

theorem Memory.Tidied.edited (htidied : shared.Tidied) {catalog : Catalog}
    (hremoved : ∀ channel_id ∈ shared.catalog.repo.removed catalog.repo, shared.state.NoTrace channel_id) :
    (shared.edited catalog).Tidied := by
  intro channel_id hdeleted
  rcases List.mem_append.mp hdeleted with hbefore | hnow
  · exact ⟨(htidied channel_id hbefore).affinity, (htidied channel_id hbefore).keys⟩
  · exact ⟨(hremoved channel_id hnow).affinity, (hremoved channel_id hnow).keys⟩

theorem Memory.Tidied.perform (htidied : shared.Tidied) (upkeep : Upkeep) : (upkeep.perform shared).Tidied := by
  intro channel_id hdeleted
  cases upkeep with
  | tick => exact ⟨(htidied channel_id hdeleted).affinity, (htidied channel_id hdeleted).keys⟩
  | reload_affinity => exact ⟨(htidied channel_id hdeleted).affinity, (htidied channel_id hdeleted).keys⟩
  | clear_affinity =>
    exact Memory.NoTrace.set_affinity (htidied channel_id hdeleted) AffinityEngine.clear_fades

theorem Memory.Tidied.advance (htidied : shared.Tidied) {world : World Memory Activity} (hshared : world.shared = shared)
    {id : Nat} {activity : Activity} {choice : Choice ρ} (hpending : world.pending id = some activity)
    (htidy : Tidy world (.advance id choice)) : (advance_memory serde rng shared activity choice).1.Tidied := by
  subst hshared
  cases activity with
  | edit edit =>
    cases choice with
    | request => exact htidied
    | edit fault =>
      refine htidied.edited fun channel_id hremoved => ?_
      rcases edit.advance_repo world.shared.catalog fault with hsame | ⟨change, next, changed, after, rfl, rfl, hcommit, hafter⟩
      · rw [hsame, ChannelRepo.removed_self] at hremoved
        cases hremoved
      · exact htidy change next changed after hpending rfl hcommit channel_id (hafter ▸ hremoved)
  | request flight =>
    cases choice with
    | edit => exact htidied
    | request turn =>
      intro channel_id hdeleted
      rw [advance_memory, flight.advance_deleted] at hdeleted
      exact flight.advance_noTrace turn (htidied channel_id hdeleted) fun hnames =>
        htidy flight channel_id hpending hnames hdeleted

theorem step_tidied {world : World Memory Activity} (htidied : world.shared.Tidied) {move : Move Activity (Choice ρ) Upkeep}
    (htidy : Tidy world move) : ((memory serde rng).step world move).shared.Tidied := by
  rcases (memory serde rng).step_cases world move with
    hsame | ⟨id, activity, rfl, -, -, hstep⟩ | ⟨id, activity, choice, rfl, hpending, hstep⟩ | ⟨upkeep, rfl, hstep⟩
  · rw [hsame]
    exact htidied
  · rw [hstep]
    exact htidied
  · rw [hstep]
    exact htidied.advance rfl hpending htidy
  · rw [hstep]
    exact htidied.perform upkeep

end Traces

/-- One channel, and nothing known of it. -/
def fresh_memory : Memory where
  catalog := .load { rows := [serving 1], next_id := 2 }
  planner := bound_elsewhere.planner
  affinity := { enabled := false, rules := [] }

def deletion (id : Nat) : List (Move Activity (Choice Unit) Upkeep) :=
  .begin id (.edit (.arrived (.delete_channel 1 none))) :: List.replicate 5 (.advance id (.edit false))

/-- Nothing is left to be forgotten. -/
theorem fresh_memory_noTrace {catalog : Catalog} {deleted : List Int} (id : Int) :
    ({ fresh_memory with catalog, deleted } : Memory).state.NoTrace id where
  affinity _ hbound := nomatch hbound
  keys := ⟨rfl, fun _ => rfl⟩

def sole_route : Route where
  inbound := .chat
  model := "m"
  attempts := [{
    channel := serving 1
    endpoint := { protocol := .chat, models := [⟨"m", none⟩] }
    model := ⟨"m", none⟩
    rank := { native := true, priority := 0, endpoint_order := 0 } }]
  attempt_cap := 3
  max_upstream_calls := 8
  identity := keyed_request.key_id

/-- A request is planned. -/
def opening : List (Move Activity (Choice Unit) Upkeep) :=
  [.begin 0 (.request (.arrived keyed_request)), .advance 0 (.request .resolve), .advance 0 (.request (.plan .unary ()))]

/-- It is served by channel 1, which is deleted then. -/
def closing : List (Move Activity (Choice Unit) Upkeep) :=
  [.advance 0 (.request (.start 0 0)), .advance 0 (.request .answer), .advance 0 (.request (.record false))] ++ deletion 1

theorem planned_sole_route : planned_route first_number .unary fresh_memory.state keyed_request () = sole_route := by
  have hlisted : fresh_memory.state.channels = [serving 1] := List.perm_singleton.mp (sort_by_key_perm _ _)
  have hattempts : (planned_route first_number .unary fresh_memory.state keyed_request ()).attempts = sole_route.attempts := by
    unfold planned_route
    rw [hlisted]
    exact List.perm_singleton.mp (fresh_memory.planner.plan_ordered first_number _ "m" .chat ()).kept
  exact congrArg (fun attempts => { sole_route with attempts }) hattempts

theorem opening_planned : ∃ planner, (memory .compact first_number).run (.idle fresh_memory) opening =
    ((memory .compact first_number).run (.idle fresh_memory) (opening.take 2)).set 0 { fresh_memory with planner }
      (some (.request (.executing none sole_route))) := by
  have hpending : ((memory .compact first_number).run (.idle fresh_memory) (opening.take 2)).pending 0 =
      some (.request (.resolved keyed_request none)) := rfl
  refine ⟨_, (Interleaving.step_advance hpending _).trans (congrArg₂ _ rfl ?_)⟩
  change (if (planned_route first_number .unary fresh_memory.state keyed_request ()).attempts.isEmpty then none
    else some (Flight.executing none (planned_route first_number .unary fresh_memory.state keyed_request ()))).map
      Activity.request = _
  rw [planned_sole_route]
  rfl

end refract.gateway
