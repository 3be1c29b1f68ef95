import Refract.Gateway.Affinity
import Refract.Machine.Interleaving

open refract.core refract.json refract.machine refract.router

namespace refract.gateway

/-- What requests that overlap share, and which bindings their successes wrote. -/
structure Bindings where
  state : AppState
  now : Instant := 0
  history : List (String × Int) := []

namespace Bindings

variable (self : Bindings)

def bound (key : String) : Option Int := self.state.affinity.bound key

def set_affinity (engine : AffinityEngine) : Bindings := { self with state := { self.state with affinity := engine } }

/-- Takes the success of a request in. -/
def record (decision : AffinityDecision) (winner : Int) : Bindings :=
  let recorded := self.set_affinity (self.state.affinity.record decision winner self.now)
  { recorded with
    history :=
      if recorded.bound decision.cache_key = some winner then self.history ++ [(decision.cache_key, winner)] else self.history }

end Bindings

/-- A request, as far as its binding is concerned. -/
inductive Binding where
  | arrived (request : GatewayRequest)
  /-- The binding was looked up, after so many successes. -/
  | resolved (decision : AffinityDecision) (since : Nat)
  | executing (decision : AffinityDecision) (since : Nat)
  | streaming (decision : AffinityDecision) (channel_id : Int)

/-- How a request goes on. -/
inductive Course where
  | resolve
  | planned (route : Route)
  /-- All of these channels failed. -/
  | failed (channels : List Int)
  | served (winner : Int) (streams : Bool)
  | ended (broken : Bool)
  | cancelled

/-- What else changes the bindings. -/
inductive Intervention where
  | tick (elapsed : Nat)
  | store_channels (channels : List Channel)
  | load (enabled switch_on_success keep_on_channel_disabled : Bool) (max_entries : Nat) (rules : List CompiledRule)
  | clear

section System

variable (serde : Serde) (shared : Bindings)

def advance_binding (operation : Binding) (course : Course) : Bindings × Option Binding :=
  match operation, course with
  | .arrived request, .resolve =>
    let resolved := resolve_affinity serde shared.state.affinity request shared.now
    (shared.set_affinity resolved.2, resolved.1.map (.resolved · shared.history.length))
  | .resolved decision since, .planned route =>
    let pinned := pin shared.state (some decision) shared.state.affinity route
    (shared.set_affinity pinned.2, if route.attempts.isEmpty then none else some (.executing decision since))
  | .executing decision _, .failed _ => (shared.set_affinity (settle_affinity_on_failure shared.state.affinity decision), none)
  | .executing decision _, .served winner streams =>
    (shared.record decision winner, if streams then some (.streaming decision winner) else none)
  | .streaming decision channel_id, .ended broken =>
    (if broken && !decision.skip_retry_on_failure then
        shared.set_affinity (shared.state.affinity.forget_if_bound_to decision.cache_key channel_id)
      else shared, none)
  | _, .cancelled => (shared, none)
  | operation, _ => (shared, some operation)

def intervene : Intervention → Bindings
  | .tick elapsed => { shared with now := shared.now + elapsed }
  | .store_channels channels => { shared with state := { shared.state with channels } }
  | .load enabled switch_on_success keep_on_channel_disabled max_entries rules =>
    shared.set_affinity
      { shared.state.affinity with enabled, switch_on_success, keep_on_channel_disabled, max_entries, rules }
  | .clear => shared.set_affinity shared.state.affinity.clear

/-- Requests that look bindings up, write them and end them, each in its own
    time. -/
def sessions : Interleaving Bindings Binding Course Intervention where
  opens
    | .arrived _ => true
    | _ => false
  advance := advance_binding serde
  happen := intervene

end System

/-- The decision of a request that may end its binding now, and the channels it
    was bound to or that failed it. -/
def blamed : Binding → Course → Option (AffinityDecision × List Int)
  | .resolved decision _, .planned _ => some (decision, decision.binding.toList)
  | .executing decision _, .failed channels => some (decision, decision.binding.toList ++ channels)
  | .streaming decision channel_id, .ended _ => some (decision, [channel_id])
  | _, _ => none

/-- The decision of a request that ends its binding now, whatever that is, with
    the time at which it was looked up. -/
def forgets : Binding → Course → Option (AffinityDecision × Nat)
  | .resolved decision since, .planned route =>
    if decision.binding.any fun bound => !(route.pin_channel bound).1 then some (decision, since) else none
  | .executing decision since, .failed _ => if decision.skip_retry_on_failure then none else some (decision, since)
  | _, _ => none

/-- A failing request ends no binding but one to a channel that it was bound to
    or that failed it. -/
def Spares (serde : Serde) (world : World Bindings Binding) (move : Move Binding Course Intervention) : Prop :=
  ∀ id course operation decision channels, move = .advance id course → world.pending id = some operation →
    blamed operation course = some (decision, channels) → ∀ key c, world.shared.bound key = some c →
      ((sessions serde).step world move).shared.bound key ≠ some c → key = decision.cache_key ∧ c ∈ channels

/-- When a request ends its binding, no success since it looked the binding up
    bound the key to another channel. -/
def Unovertaken (world : World Bindings Binding) (move : Move Binding Course Intervention) : Prop :=
  ∀ id course operation decision since channels, move = .advance id course → world.pending id = some operation →
    forgets operation course = some (decision, since) → blamed operation course = some (decision, channels) →
      ∀ c, (decision.cache_key, c) ∈ world.shared.history.drop since → c ∈ channels

section Growth

/-- Nothing is bound anew but by a success that the history tells of. -/
structure Grows (before after : Bindings) : Prop where
  history : ∃ written, after.history = before.history ++ written
  bound : ∀ key, after.bound key = none ∨ after.bound key = before.bound key ∨
    ∃ c, after.bound key = some c ∧ (key, c) ∈ after.history.drop before.history.length

variable {before after shared : Bindings}

theorem Grows.of_fades {engine : AffinityEngine} (hfades : shared.state.affinity.Fades engine) :
    Grows shared (shared.set_affinity engine) where
  history := ⟨[], (List.append_nil _).symm⟩
  bound key := (hfades key).imp_right .inl

theorem Grows.refl (shared : Bindings) : Grows shared shared := .of_fades (.refl _)

theorem record_grows (decision : AffinityDecision) (winner : Int) : Grows shared (shared.record decision winner) := by
  have hrecorded := shared.state.affinity.record_bound decision winner shared.now
  by_cases hwritten : (shared.set_affinity (shared.state.affinity.record decision winner shared.now)).bound
      decision.cache_key = some winner
  · refine ⟨⟨[(decision.cache_key, winner)], if_pos hwritten⟩, fun key => ?_⟩
    rcases hrecorded key with hnone | hsame | ⟨rfl, hbound⟩
    · exact .inl hnone
    · exact .inr (.inl hsame)
    · refine .inr (.inr ⟨winner, hbound, ?_⟩)
      simp only [Bindings.record, if_pos hwritten, List.drop_left, List.mem_singleton]
  · refine ⟨⟨[], by simp [Bindings.record, hwritten]⟩, fun key => ?_⟩
    rcases hrecorded key with hnone | hsame | ⟨rfl, hbound⟩
    · exact .inl hnone
    · exact .inr (.inl hsame)
    · exact absurd hbound hwritten

variable (serde : Serde)

theorem advance_grows (operation : Binding) (course : Course) :
    Grows shared (advance_binding serde shared operation course).1 := by
  cases operation with
  | arrived request =>
    cases course with
    | resolve => exact .of_fades (resolve_affinity_fades serde _ request shared.now).1
    | _ => exact .refl shared
  | resolved decision since =>
    cases course with
    | planned route => exact .of_fades (pin_fades shared.state decision _ route)
    | _ => exact .refl shared
  | executing decision since =>
    cases course with
    | failed channels => exact .of_fades (settle_fades _ decision)
    | served winner streams => exact record_grows decision winner
    | _ => exact .refl shared
  | streaming decision channel_id =>
    cases course with
    | ended broken =>
      simp only [advance_binding]
      split
      · exact .of_fades (AffinityEngine.forget_if_bound_to_fades decision.cache_key channel_id)
      · exact .refl shared
    | _ => exact .refl shared

theorem intervene_grows (intervention : Intervention) : Grows shared (intervene shared intervention) := by
  cases intervention with
  | tick elapsed => exact ⟨⟨[], (List.append_nil _).symm⟩, fun key => .inr (.inl rfl)⟩
  | store_channels channels => exact ⟨⟨[], (List.append_nil _).symm⟩, fun key => .inr (.inl rfl)⟩
  | load enabled switch_on_success keep_on_channel_disabled max_entries rules => exact .of_fades fun key => .inr rfl
  | clear => exact .of_fades AffinityEngine.clear_fades

end Growth

section Knowledge

/-- What a request knows of its binding: it is gone, it is the one that was looked
    up, or a success has written it since. -/
structure Known (shared : Bindings) (decision : AffinityDecision) (since : Nat) : Prop where
  since_le : since ≤ shared.history.length
  bound : shared.bound decision.cache_key = none ∨ shared.bound decision.cache_key = decision.binding ∨
    ∃ c, shared.bound decision.cache_key = some c ∧ (decision.cache_key, c) ∈ shared.history.drop since

theorem Known.grow {before after : Bindings} {decision : AffinityDecision} {since : Nat}
    (hknown : Known before decision since) (hgrows : Grows before after) : Known after decision since := by
  obtain ⟨written, hwritten⟩ := hgrows.history
  have hsince := hknown.since_le
  have hdrop : after.history.drop since = before.history.drop since ++ written := by
    rw [hwritten, List.drop_append_of_le_length hsince]
  refine ⟨?_, ?_⟩
  · rw [hwritten, List.length_append]
    omega
  · rcases hgrows.bound decision.cache_key with hnone | hsame | ⟨c, hbound, hmem⟩
    · exact .inl hnone
    · rw [hsame, hdrop]
      rcases hknown.bound with hnone | hlooked | ⟨c, hbound, hmem⟩
      · exact .inl hnone
      · exact .inr (.inl hlooked)
      · exact .inr (.inr ⟨c, hbound, List.mem_append_left _ hmem⟩)
    · refine .inr (.inr ⟨c, hbound, ?_⟩)
      rw [hwritten, List.drop_left] at hmem
      exact hdrop ▸ List.mem_append_right _ hmem

/-- The decision of a request that may yet end its binding whatever that is. -/
def Binding.waits : Binding → Option (AffinityDecision × Nat)
  | .resolved decision since | .executing decision since => some (decision, since)
  | .arrived _ | .streaming _ _ => none

def AllKnown (world : World Bindings Binding) : Prop :=
  ∀ id operation decision since, world.pending id = some operation → operation.waits = some (decision, since) →
    Known world.shared decision since

variable (serde : Serde)

/-- What a step leaves of a request knows as much as before. -/
theorem advance_known {shared : Bindings} {operation next : Binding} {course : Course} {decision : AffinityDecision} {since : Nat}
    (hknown : ∀ decision since, operation.waits = some (decision, since) → Known shared decision since)
    (hnext : (advance_binding serde shared operation course).2 = some next) (hwaits : next.waits = some (decision, since)) :
    Known (advance_binding serde shared operation course).1 decision since := by
  cases operation with
  | arrived request =>
    cases course with
    | resolve =>
      obtain ⟨resolved, hresolved, rfl⟩ := Option.map_eq_some_iff.mp hnext
      cases hwaits
      have hlooked := (resolve_affinity_fades serde shared.state.affinity request shared.now).2 decision hresolved
      exact ⟨le_refl _, .inr (.inl hlooked)⟩
    | _ =>
      cases hnext
      try cases hwaits
  | resolved looked time =>
    cases course with
    | planned route =>
      simp only [advance_binding] at hnext
      split at hnext
      · cases hnext
      · cases hnext
        cases hwaits
        exact (hknown _ _ rfl).grow (advance_grows serde (.resolved _ _) (.planned route))
    | cancelled => cases hnext
    | _ =>
      cases hnext
      exact hknown decision since hwaits
  | executing looked time =>
    cases course with
    | failed channels => cases hnext
    | served winner streams =>
      simp only [advance_binding] at hnext
      split at hnext
      · cases hnext
        cases hwaits
      · cases hnext
    | cancelled => cases hnext
    | _ =>
      cases hnext
      exact hknown decision since hwaits
  | streaming looked channel_id =>
    cases course with
    | ended broken => cases hnext
    | cancelled => cases hnext
    | _ =>
      cases hnext
      cases hwaits

theorem step_allKnown (world : World Bindings Binding) (move : Move Binding Course Intervention) (hknown : AllKnown world) :
    AllKnown ((sessions serde).step world move) := by
  rcases (sessions serde).step_cases world move with hsame | ⟨id, operation, -, -, hopens, hstep⟩ |
    ⟨id, operation, course, -, hpending, hstep⟩ | ⟨intervention, -, hstep⟩
  · rwa [hsame]
  · rw [hstep]
    intro other next decision since hother hwaits
    rcases World.set_pending_cases hother with ⟨rfl, hnext⟩ | ⟨-, hold⟩
    · cases hnext
      cases operation with
      | arrived request => cases hwaits
      | _ => cases hopens
    · exact hknown other next decision since hold hwaits
  · rw [hstep]
    intro other next decision since hother hwaits
    rcases World.set_pending_cases hother with ⟨rfl, hnext⟩ | ⟨-, hold⟩
    · exact advance_known serde (fun decision since hold => hknown other operation decision since hpending hold) hnext hwaits
    · exact (hknown other next decision since hold hwaits).grow (advance_grows serde operation course)
  · rw [hstep]
    intro other next decision since hother hwaits
    exact (hknown other next decision since hother hwaits).grow (intervene_grows intervention)

variable {serde} {world : World Bindings Binding} {move : Move Binding Course Intervention}

/-- A step that ends a binding ends the one of its key. -/
theorem bound_of_removed {shared : Bindings} {engine : AffinityEngine} {cache_key key : String} {c : Int}
    (hengine : engine = shared.state.affinity ∨ engine = shared.state.affinity.forget cache_key)
    (hbound : shared.bound key = some c) (hremoved : (shared.set_affinity engine).bound key ≠ some c) :
    key = cache_key ∧ engine ≠ shared.state.affinity := by
  have hchanged : engine ≠ shared.state.affinity := by
    rintro rfl
    exact hremoved hbound
  refine ⟨?_, hchanged⟩
  obtain rfl := hengine.resolve_left hchanged
  by_contra hkey
  have hkept : (shared.state.affinity.forget cache_key).bound key = shared.state.affinity.bound key := by
    rw [AffinityEngine.bound_forget, if_neg hkey]
  exact hremoved (hkept.trans hbound)

/-- A request that knows its binding, and whose key was bound to no other channel
    since it looked it up, ends no other one. -/
theorem Known.mem_of_bound {shared : Bindings} {decision : AffinityDecision} {since : Nat} {channels : List Int} {c : Int}
    (hknown : Known shared decision since) (hbinding : decision.binding.toList ⊆ channels)
    (hsince : ∀ w, (decision.cache_key, w) ∈ shared.history.drop since → w ∈ channels)
    (hbound : shared.bound decision.cache_key = some c) : c ∈ channels := by
  rcases hknown.bound with hnone | hlooked | ⟨w, hwritten, hmem⟩
  · cases hnone.symm.trans hbound
  · have hlookedUp : decision.binding = some c := hlooked.symm.trans hbound
    exact hbinding (by simp [hlookedUp])
  · cases hwritten.symm.trans hbound
    exact hsince c hmem

theorem spares_of_known (hknown : AllKnown world) (hunovertaken : Unovertaken world move) : Spares serde world move := by
  rintro id course operation decision channels rfl hpending hblamed key c hbound hremoved
  rw [Interleaving.step_advance hpending, World.set_shared] at hremoved
  have hmine := hunovertaken id course operation decision
  cases operation with
  | arrived request => cases course <;> cases hblamed
  | resolved looked since =>
    cases course with
    | planned route =>
      cases hblamed
      have hpin := pin_engine world.shared.state decision world.shared.state.affinity route
      obtain ⟨rfl, hchanged⟩ := bound_of_removed (hpin.imp_right And.left) hbound hremoved
      have hmissing := (hpin.resolve_left hchanged).2
      have hsince := hmine since _ rfl hpending (if_pos hmissing) rfl
      exact ⟨rfl, (hknown id _ decision since hpending rfl).mem_of_bound (fun _ h => h) hsince hbound⟩
    | _ => cases hblamed
  | executing looked since =>
    cases course with
    | failed tried =>
      cases hblamed
      have hsettle := settle_engine world.shared.state.affinity decision
      obtain ⟨rfl, hchanged⟩ := bound_of_removed (hsettle.imp_right And.left) hbound hremoved
      have hskip := (hsettle.resolve_left hchanged).2
      have hsince := hmine since _ rfl hpending (by simp [forgets, hskip]) rfl
      exact ⟨rfl, (hknown id _ decision since hpending rfl).mem_of_bound (List.subset_append_left _ _) hsince hbound⟩
    | _ => cases hblamed
  | streaming looked channel_id =>
    cases course with
    | ended broken =>
      cases hblamed
      simp only [sessions, advance_binding] at hremoved
      split at hremoved
      · rw [AffinityEngine.forget_if_bound_to] at hremoved
        split at hremoved
        next hfailed =>
          obtain ⟨rfl, -⟩ := bound_of_removed (.inr rfl) hbound hremoved
          exact ⟨rfl, List.mem_singleton.mpr (Option.some.inj (hbound.symm.trans hfailed))⟩
        next => exact absurd hbound hremoved
      · exact absurd hbound hremoved
    | _ => cases hblamed

end Knowledge

section Overlap

/-- Until a success binds anything, no request is disturbed. -/
theorem unovertaken_of_history_nil {world : World Bindings Binding} (hhistory : world.shared.history = [])
    (move : Move Binding Course Intervention) : Unovertaken world move := by
  intro id course operation decision since channels _ _ _ _ c hmem
  rw [hhistory, List.drop_nil] at hmem
  cases hmem

/-- A rule that lets its callers go, and no binding yet. -/
def unbound : Bindings where
  state := {
    bound_elsewhere with
    affinity := { enabled := true, rules := [{ keeping_rule with skip_retry_on_failure := false }] } }

/-- A route with one candidate. -/
def lone_candidate : Route where
  inbound := .chat
  model := "m"
  attempts := [{
    channel := serving 1
    endpoint := { protocol := .chat }
    model := ⟨"m", none⟩
    rank := ⟨true, 0, 0⟩ }]
  attempt_cap := 3
  max_upstream_calls := 8
  identity := none

/-- The decision about a request of the caller. -/
def unbound_decision : AffinityDecision where
  rule_name := "session"
  cache_key := build_cache_key "session" true "m" "1"
  binding := none
  skip_retry_on_failure := false
  ttl_secs := 60

/-- A request that waits for channel 1. -/
def waiting : List (Move Binding Course Intervention) :=
  [.begin 0 (.arrived keyed_request), .advance 0 .resolve, .advance 0 (.planned lone_candidate)]

/-- Another request of the caller is served by channel 2 in the meantime. -/
def overtaken : List (Move Binding Course Intervention) :=
  waiting ++ [.begin 1 (.arrived keyed_request), .advance 1 .resolve, .advance 1 (.planned lone_candidate),
    .advance 1 (.served 2 false)]

end Overlap

end refract.gateway
