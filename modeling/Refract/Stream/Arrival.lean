import Refract.Json.Parse
import Refract.Machine.Vec
import Refract.Stream.Aggregator

open refract.json refract.ir refract.machine

namespace refract.stream

/-- The index and the kind of the block that an event adds to. -/
def StreamEvent.key : StreamEvent → Option (Nat × PartKind)
  | .contentStart index kind => some (index, kind)
  | .textDelta index _ => some (index, .text)
  | .thinkingDelta index _ | .thinkingSignature index _ => some (index, .thinking)
  | .refusalDelta index _ => some (index, .refusal)
  | .toolCallStart index _ _ _ | .toolCallArgsDelta index _ => some (index, .toolUse)
  | _ => none

namespace StreamEvent

def is_usage : StreamEvent → Bool
  | .usage _ => true
  | _ => false

def is_start : StreamEvent → Bool
  | .start _ _ _ => true
  | _ => false

end StreamEvent

/-- What an event of its index and kind adds to a block. -/
def BlockAccum.take (block : BlockAccum) : StreamEvent → BlockAccum
  | .textDelta _ fragment | .thinkingDelta _ fragment | .refusalDelta _ fragment | .toolCallArgsDelta _ fragment =>
    block.push_str fragment
  | .thinkingSignature _ signature => block.sign signature
  | .toolCallStart _ id name signature => block.announce id name signature
  | _ => block

/-- The blocks of a stream in the order in which they first appear. -/
def arrivals (events : List StreamEvent) : List (Nat × PartKind) := (events.filterMap StreamEvent.key).foldl note []

/-- What the events of one block make of it. -/
def assembled (events : List StreamEvent) (key : Nat × PartKind) : Nat × BlockAccum :=
  (key.1, (events.filter (·.key = some key)).foldl BlockAccum.take (.fresh key.2))

section Arrivals

variable (events : List StreamEvent) (event : StreamEvent)

theorem absorb_eq (blocks : Blocks) :
    blocks.absorb event =
      match event.key with
      | some key => blocks.edit key.1 key.2 (·.take event)
      | none => blocks := by
  cases event <;> rfl

theorem BlockAccum.kind_take (block : BlockAccum) : (block.take event).kind = block.kind := by
  cases event <;> simp [BlockAccum.take]

theorem key_assembled (key : Nat × PartKind) : Blocks.key (assembled events key) = key := by
  have hkind : ∀ (events : List StreamEvent) (block : BlockAccum), (events.foldl BlockAccum.take block).kind = block.kind := by
    intro events
    induction events with
    | nil => exact fun block => rfl
    | cons event events ih => exact fun block => (ih (block.take event)).trans (block.kind_take event)
  rw [Blocks.key, assembled, hkind, BlockAccum.kind_fresh]

theorem arrivals_concat_none (h : event.key = none) : arrivals (events ++ [event]) = arrivals events := by
  simp [arrivals, h]

theorem arrivals_concat_some {key : Nat × PartKind} (h : event.key = some key) :
    arrivals (events ++ [event]) = note (arrivals events) key := by
  simp [arrivals, h]

theorem nodup_arrivals : (arrivals events).Nodup := by
  induction events using List.reverseRecOn with
  | nil => exact List.nodup_nil
  | append_singleton events event ih =>
    cases hkey : event.key with
    | none => rwa [arrivals_concat_none events event hkey]
    | some key =>
      rw [arrivals_concat_some events event hkey]
      exact nodup_note ih

/-- A block that has not appeared is empty. -/
theorem assembled_of_not_mem {key : Nat × PartKind} (h : key ∉ arrivals events) : assembled events key = (key.1, .fresh key.2) := by
  have hnone : ∀ event ∈ events, event.key ≠ some key := by
    induction events using List.reverseRecOn with
    | nil => exact fun _ hmem => absurd hmem List.not_mem_nil
    | append_singleton events event ih =>
      have hevent : event.key ≠ some key ∧ key ∉ arrivals events := by
        cases hkey : event.key with
        | none => exact ⟨by simp, by rwa [arrivals_concat_none events event hkey] at h⟩
        | some found =>
          rw [arrivals_concat_some events event hkey, mem_note, not_or] at h
          exact ⟨fun heq => h.2 (Option.some.inj heq).symm, h.1⟩
      intro other hother
      rcases List.mem_append.mp hother with hother | hother
      · exact ih hevent.2 other hother
      · rw [List.mem_singleton.mp hother]
        exact hevent.1
  have hempty : events.filter (·.key = some key) = [] := List.filter_eq_nil_iff.mpr (by simpa using hnone)
  rw [assembled, hempty]
  rfl

theorem assembled_concat {key : Nat × PartKind} (h : event.key = some key) :
    assembled (events ++ [event]) = Function.update (assembled events) key (key.1, (assembled events key).2.take event) := by
  funext other
  by_cases hother : other = key
  · subst hother
    rw [Function.update_self, assembled, List.filter_append, List.filter_cons_of_pos (by simpa using h), List.foldl_append]
    rfl
  · have hne : ¬event.key = some other := fun heq => hother (Option.some.inj (heq.symm.trans h))
    rw [Function.update_of_ne hother, assembled, List.filter_append, List.filter_cons_of_neg (by simpa using hne),
      List.filter_nil, List.append_nil]
    rfl

/-- The blocks of a stream are those that appeared, each made of its own events. -/
theorem foldl_absorb : events.foldl Blocks.absorb [] = (arrivals events).map (assembled events) := by
  induction events using List.reverseRecOn with
  | nil => rfl
  | append_singleton events event ih =>
    rw [List.foldl_append, ih, List.foldl_cons, List.foldl_nil, absorb_eq]
    cases hkey : event.key with
    | none =>
      rw [arrivals_concat_none events event hkey]
      refine List.map_congr_left fun key _ => ?_
      rw [assembled, assembled, List.filter_append, List.filter_cons_of_neg (by simp [hkey]), List.filter_nil, List.append_nil]
    | some key =>
      rw [arrivals_concat_some events event hkey, assembled_concat events event hkey]
      exact upsert_map (key_assembled events) (nodup_arrivals events) (assembled_of_not_mem events)

end Arrivals


section Ends

variable (events : List StreamEvent)

/-- The usages that a stream reports, which its first event may do as well. -/
def reported : List Usage := events.filterMap StreamEvent.snapshot

/-- The counts of a usage. -/
def counts : List (Usage → U64) :=
  [Usage.input_tokens, Usage.output_tokens, Usage.cached_input_tokens, Usage.cache_write_tokens, Usage.reasoning_tokens]

/-- Streams with the same starts and the same reports report the same usages. -/
theorem reported_perm {events others : List StreamEvent}
    (husage : (events.filter StreamEvent.is_usage).Perm (others.filter StreamEvent.is_usage))
    (hstart : (events.filter StreamEvent.is_start).Perm (others.filter StreamEvent.is_start)) :
    (reported events).Perm (reported others) := by
  have hsplit : ∀ events : List StreamEvent, (reported events).Perm
      (reported (events.filter StreamEvent.is_usage) ++ reported (events.filter StreamEvent.is_start)) := by
    intro events
    induction events with
    | nil => exact .nil
    | cons event events ih =>
      cases event with
      | usage counts => exact ih.cons counts
      | start id model counts =>
        cases counts with
        | none => exact ih
        | some counts => exact (ih.cons counts).trans List.perm_middle.symm
      | _ => exact ih
  exact (hsplit events).trans (((husage.filterMap _).append (hstart.filterMap _)).trans (hsplit others).symm)

theorem foldl_merge_max_perm {usages others : List Usage} (h : usages.Perm others) (start : Usage) :
    usages.foldl Usage.merge_max start = others.foldl Usage.merge_max start := by
  refine @List.Perm.foldl_eq _ _ _ _ _ ⟨fun usage first second => ?_⟩ h start
  simp only [Usage.merge_max, max_assoc, max_comm first.input_tokens, max_comm first.output_tokens,
    max_comm first.cached_input_tokens, max_comm first.cache_write_tokens, max_comm first.reasoning_tokens]

/-- Merged counts are the largest ones. -/
theorem count_foldl_merge_max {count : Usage → U64} (hcount : count ∈ counts) (usages : List Usage) (start : Usage) :
    count (usages.foldl Usage.merge_max start) = (usages.map count).foldl max (count start) := by
  have hmerge : ∀ usage other, count (Usage.merge_max usage other) = max (count usage) (count other) := by
    intro usage other
    simp only [counts, List.mem_cons, List.not_mem_nil, or_false] at hcount
    rcases hcount with rfl | rfl | rfl | rfl | rfl <;> rfl
  induction usages generalizing start with
  | nil => rfl
  | cons usage usages ih => rw [List.foldl_cons, ih, hmerge, List.map_cons, List.foldl_cons]

end Ends

/-- Streams that tell the same of every block, in whatever order, come to the same. -/
theorem aggregation_of_interleaved (serde : Serde) {events others : List StreamEvent}
    (hsame : ∀ key, events.filter (·.key = some key) = others.filter (·.key = some key))
    (hfirst : ∀ index, (arrivals events).filter (·.1 = index) = (arrivals others).filter (·.1 = index))
    (husage : (events.filter StreamEvent.is_usage).Perm (others.filter StreamEvent.is_usage)) :
    let said := ({} : StreamAggregator).absorb_all events
    let also := ({} : StreamAggregator).absorb_all others
    said.into_content serde = also.into_content serde ∧
      ((events.filter StreamEvent.is_start).Perm (others.filter StreamEvent.is_start) → said.usage = also.usage) ∧
      (events.filter (fun event => event.is_start || event.is_stop) =
        others.filter (fun event => event.is_start || event.is_stop) →
          said.usage = also.usage ∧ said.stop_reason = also.stop_reason) ∧
      ∀ count ∈ counts, count said.usage = ((reported events).map count).foldl max 0 := by
  have husages : (events.filter StreamEvent.is_start).Perm (others.filter StreamEvent.is_start) →
      (({} : StreamAggregator).absorb_all events).usage = (({} : StreamAggregator).absorb_all others).usage := by
    intro hstart
    rw [StreamAggregator.absorb_all_usage, StreamAggregator.absorb_all_usage]
    exact foldl_merge_max_perm (reported_perm husage hstart) _
  refine ⟨?_, husages, fun hbounds => ⟨husages ?_, ?_⟩, fun count hcount => ?_⟩
  · rw [StreamAggregator.into_content, StreamAggregator.into_content, StreamAggregator.absorb_all_blocks,
      StreamAggregator.absorb_all_blocks, foldl_absorb, foldl_absorb]
    have hassembled : assembled events = assembled others := by
      funext key
      rw [assembled, assembled, hsame key]
    have hblocks : ∀ index, ((arrivals events).map (assembled events)).filter (·.1 = index) =
        ((arrivals others).map (assembled others)).filter (·.1 = index) := by
      intro index
      rw [List.filter_map, List.filter_map, hassembled]
      exact congrArg (List.map (assembled others)) (hfirst index)
    exact congrArg (List.filterMap (·.2.render serde)) (sort_by_key_eq_of_filter Prod.fst hblocks)
  · have hstarts := congrArg (List.filter StreamEvent.is_start) hbounds
    have hbound : (fun event : StreamEvent => event.is_start && (event.is_start || event.is_stop)) = StreamEvent.is_start := by
      funext event
      cases event.is_start <;> rfl
    rw [List.filter_filter, List.filter_filter, hbound] at hstarts
    exact .of_eq hstarts
  · have hstops := congrArg (List.filterMap StreamEvent.stop_reason) hbounds
    have hkept : ∀ events : List StreamEvent, (events.filter fun event => event.is_start || event.is_stop).filterMap
        StreamEvent.stop_reason = events.filterMap StreamEvent.stop_reason := by
      intro events
      rw [List.filterMap_filter]
      refine List.filterMap_congr fun event _ => ?_
      cases event <;> rfl
    rw [hkept, hkept] at hstops
    rw [StreamAggregator.absorb_all_stop_reason, StreamAggregator.absorb_all_stop_reason, hstops]
  · rw [StreamAggregator.absorb_all_usage]
    refine (count_foldl_merge_max hcount _ _).trans ?_
    simp only [counts, List.mem_cons, List.not_mem_nil, or_false] at hcount
    rcases hcount with rfl | rfl | rfl | rfl | rfl <;> rfl

/-- Two blocks that come in one after the other. -/
def in_turn : List StreamEvent :=
  [.start "r" "m" none, .textDelta 0 "a", .textDelta 0 "b", .toolCallArgsDelta 1 "1", .usage { input_tokens := 2 },
    .usage { output_tokens := 3 }, .stop .stop none]

/-- The same blocks at once, the counts the other way round. -/
def at_once : List StreamEvent :=
  [.start "r" "m" none, .toolCallArgsDelta 1 "1", .textDelta 0 "a", .usage { output_tokens := 3 },
    .usage { input_tokens := 2 }, .textDelta 0 "b", .stop .stop none]

theorem aggregation_of_in_turn_at_once :
    (({} : StreamAggregator).absorb_all in_turn).into_content Serde.compact =
      (({} : StreamAggregator).absorb_all at_once).into_content Serde.compact :=
  have hkeys : ∀ events : List StreamEvent, ∀ key ∉ [(0, PartKind.text), (1, PartKind.toolUse)],
      (∀ event ∈ events, event.key ∈ [none, some (0, PartKind.text), some (1, PartKind.toolUse)]) →
        events.filter (·.key = some key) = [] := by
    intro events key hkey hevents
    refine List.filter_eq_nil_iff.mpr fun event hevent heq => ?_
    have hmem := hevents event hevent
    rw [of_decide_eq_true heq] at hmem
    simp at hmem hkey
    exact hmem.elim hkey.1 hkey.2
  (aggregation_of_interleaved Serde.compact
    (fun key => by
      by_cases hkey : key ∈ [(0, PartKind.text), (1, PartKind.toolUse)]
      · simp only [List.mem_cons, List.not_mem_nil, or_false] at hkey
        rcases hkey with rfl | rfl
        · decide
        · decide
      · rw [hkeys in_turn key hkey (by decide), hkeys at_once key hkey (by decide)])
    (fun index => by
      have harrivals : arrivals in_turn = [(0, .text), (1, .toolUse)] ∧ arrivals at_once = [(1, .toolUse), (0, .text)] := by
        decide
      rw [harrivals.1, harrivals.2]
      by_cases hzero : 0 = index
      · subst hzero
        rfl
      · by_cases hone : 1 = index
        · subst hone
          rfl
        · simp [hzero, hone])
    (by decide)).1

end refract.stream
