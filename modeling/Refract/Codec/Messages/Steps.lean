import Refract.Codec.Messages.Sequence

open refract.json refract.ir refract.machine refract.stream

namespace refract.codec.messages.Tracks

open MessagesStreamEncoder

variable {serde : Serde} (uuid : Nat → String) {t : Tracker} {e : MessagesStreamEncoder} {tokens : List Token}

/-- The written block is the tracked one. -/
theorem opened_iff (h : Tracks t e tokens) (index : Nat) (kind : PartKind) :
    e.opened = some (t.mentions.idxOf index, kind) ↔ t.current = some (index, kind) := by
  rw [h.opened]
  cases hcurrent : t.current with
  | none => simp
  | some b =>
    obtain ⟨i, k⟩ := b
    have hi := h.valid.current _ hcurrent
    simp only [Option.map_some, Option.some.injEq, Prod.mk.injEq]
    rw [List.idxOf_inj hi]

/-- Opening a block leaves it current, written under its position. -/
theorem open_block (hserde : serde.Lawful) (h : Tracks t e tokens) (index : Nat) (kind : PartKind) :
    Tracks ((t.mention index).continueAs index kind) (e.open_block serde uuid index kind).1
        (tokens ++ (e.open_block serde uuid index kind).2.2.map (token serde)) ∧
      (e.open_block serde uuid index kind).2.1 = (t.mention index).mentions.idxOf index := by
  obtain ⟨hstart, hstarted⟩ := h.ensure_started uuid hserde
  obtain ⟨hindexed, hindex, hstarted'⟩ := hstart.anth_index index
  have hmem : index ∈ (t.mention index).mentions := mem_note_self
  rw [hstarted] at hstarted'
  unfold MessagesStreamEncoder.open_block Tracker.continueAs
  simp only [hindex, hindexed.opened_iff index]
  by_cases hcurrent : (t.mention index).current = some (index, kind)
  · simp only [hcurrent, if_true]
    exact ⟨hindexed, trivial⟩
  · simp only [hcurrent, if_false]
    obtain ⟨hclosed, hstarted'', hopened⟩ := hindexed.close_open hserde
    have hblock := hclosed.start_block hserde (hstarted''.trans hstarted') hopened hmem kind
      (content_block_wellFormed kind)
    refine ⟨?_, trivial⟩
    simpa only [List.map_append, List.map_cons, List.map_nil, List.append_assoc, Tracker.close_mentions] using hblock

/-- A tool block replaces whatever is open. -/
theorem open_tool_block (hserde : serde.Lawful) (h : Tracks t e tokens) (index : Nat) (id name : String) :
    Tracks ((t.mention index).close.openAs index .toolUse) (e.open_tool_block serde uuid index id name).1
        (tokens ++ (e.open_tool_block serde uuid index id name).2.2.map (token serde)) ∧
      (e.open_tool_block serde uuid index id name).2.1 = (t.mention index).mentions.idxOf index := by
  obtain ⟨hstart, hstarted⟩ := h.ensure_started uuid hserde
  obtain ⟨hindexed, hindex, hstarted'⟩ := hstart.anth_index index
  have hmem : index ∈ (t.mention index).mentions := mem_note_self
  obtain ⟨hclosed, hstarted'', hopened⟩ := hindexed.close_open hserde
  rw [hstarted', hstarted] at hstarted''
  have hblock (drawn : Nat) (id : String) := (hclosed.drawn drawn).start_block hserde hstarted'' hopened hmem
    .toolUse (tool_block_wellFormed id name)
  unfold MessagesStreamEncoder.open_tool_block
  simp only [hindex]
  by_cases hid : id = ""
  · simp only [hid, if_true]
    refine ⟨?_, trivial⟩
    simpa only [List.map_append, List.map_cons, List.map_nil, List.append_assoc, Tracker.close_mentions]
      using hblock _ _
  · simp only [hid, if_false]
    refine ⟨?_, trivial⟩
    simpa only [List.map_append, List.map_cons, List.map_nil, List.append_assoc, Tracker.close_mentions]
      using hblock _ id

theorem write_delta (hserde : serde.Lawful) (h : Tracks t e tokens) (index : Nat) (kind : PartKind)
    {delta : Map} (hdelta : (Value.object delta).WellFormed) :
    Tracks ((t.mention index).continueAs index kind) (e.write_delta serde uuid index kind delta).1
      (tokens ++ (e.write_delta serde uuid index kind delta).2.map (token serde)) := by
  obtain ⟨hopen, hindex⟩ := h.open_block uuid hserde index kind
  have hwrite := hopen.delta hserde (Tracker.continueAs_current _ index kind) hdelta
  rw [Tracker.continueAs_mentions, ← hindex] at hwrite
  simpa only [MessagesStreamEncoder.write_delta, List.map_append, List.map_cons, List.map_nil,
    List.append_assoc] using hwrite

theorem write_fragment (hserde : serde.Lawful) (h : Tracks t e tokens) (index : Nat) (fragment : String) :
    Tracks ((t.mention index).continueAs index .toolUse) (e.write_fragment serde uuid index fragment).1
      (tokens ++ (e.write_fragment serde uuid index fragment).2.map (token serde)) := by
  have hdelta : (Value.object [("type", .string "input_json_delta"), ("partial_json", .string fragment)]).WellFormed := by
    simp
  obtain ⟨hindexed, hindex, _⟩ := h.anth_index index
  have hmem : index ∈ (t.mention index).mentions := mem_note_self
  unfold MessagesStreamEncoder.write_fragment Tracker.continueAs
  simp only [hindex, hindexed.opened_iff index]
  by_cases hcurrent : (t.mention index).current = some (index, .toolUse)
  · simp only [hcurrent, if_true, List.map_cons, List.map_nil]
    exact hindexed.delta hserde hcurrent hdelta
  · simp only [hcurrent, if_false]
    obtain ⟨hopen, hopened⟩ := hindexed.open_tool_block uuid hserde index "" ""
    rw [Tracker.mention_mention] at hopen hopened
    have hcurrent' : ((t.mention index).close.openAs index .toolUse).current = some (index, .toolUse) := rfl
    have hwrite := hopen.delta hserde hcurrent' hdelta
    rw [Tracker.openAs_mentions, Tracker.close_mentions, ← hopened] at hwrite
    simpa only [List.map_append, List.map_cons, List.map_nil, List.append_assoc] using hwrite

theorem stop_block (hserde : serde.Lawful) (h : Tracks t e tokens) (index : Nat) :
    Tracks (t.step (.contentStop index)) (e.stop_block serde index).1
      (tokens ++ (e.stop_block serde index).2.map (token serde)) := by
  obtain ⟨hindexed, hindex, _⟩ := h.anth_index index
  have hmem : index ∈ (t.mention index).mentions := mem_note_self
  have hopened : (e.anth_index index).1.opened.map Prod.fst = some ((t.mention index).mentions.idxOf index) ↔
      t.current.map Prod.fst = some index := by
    rw [hindexed.opened]
    have hcurrent : (t.mention index).current = t.current := rfl
    rw [hcurrent]
    cases hc : t.current with
    | none => simp
    | some b =>
      have hb := hindexed.valid.current b (hcurrent.trans hc)
      simp only [Option.map_some, Option.some.injEq]
      rw [List.idxOf_inj hb]
  unfold MessagesStreamEncoder.stop_block
  simp only [Tracker.step, hindex, hopened]
  by_cases hcurrent : t.current.map Prod.fst = some index
  · simp only [hcurrent, if_true]
    exact (hindexed.close_open hserde).1
  · simp only [hcurrent, if_false, List.map_nil, List.append_nil]
    exact hindexed

end refract.codec.messages.Tracks
