import Refract.Codec.Messages.Response

open refract.core refract.json refract.ir

namespace refract.codec.messages

def block_str (obj : Map) (key : String) : Option String := (Map.get obj key).bind Value.as_str

/-- The type of a block, empty where it has none. -/
def block_type (obj : Map) : String := (block_str obj "type").getD ""

/-- The source of a medium has the data of its type. -/
def ReadableSource (raw : Option Value) : Prop :=
  ∃ obj, raw = some (.object obj) ∧
    ((block_str obj "type" = some "base64" ∧ (block_str obj "data").isSome) ∨
      (block_str obj "type" = some "url" ∧ (block_str obj "url").isSome) ∨
      (block_str obj "type" = some "file" ∧ (block_str obj "file_id").isSome) ∨ block_str obj "type" = some "text")

/-- A block has a type and the fields that its type requires. -/
inductive ReadableBlock : Value → Prop
  | string (s : String) : ReadableBlock (.string s)
  | object {obj : Map} (htype : block_type obj ≠ "")
      (hmedium : block_type obj = "image" ∨ block_type obj = "document" → ReadableSource (Map.get obj "source"))
      (hcall : block_type obj = "tool_use" → (block_str obj "id").isSome ∧ (block_str obj "name").isSome)
      (hresult : block_type obj = "tool_result" → (block_str obj "tool_use_id").isSome)
      (hcontent : block_type obj = "tool_result" → ∀ items, Map.get obj "content" = some (.array items) →
        ∀ item ∈ items, ReadableBlock item) : ReadableBlock (.object obj)

/-- A reading either succeeds, where its input is readable, or blames a request. -/
def Reads {α : Type} (readable : Prop) (result : Except GatewayError α) : Prop :=
  (readable ∧ ∃ a, result = .ok a) ∨ (¬ readable ∧ ∃ message, result = .error (.invalid_request message))

namespace Reads

variable {α β : Type} {p q : Prop} {result : Except GatewayError α}

theorem ok (a : α) (h : p) : Reads p (.ok a) := .inl ⟨h, a, rfl⟩

theorem error (message : String) (h : ¬ p) : Reads (α := α) p (.error (.invalid_request message)) := .inr ⟨h, message, rfl⟩

theorem congr (h : Reads p result) (hiff : p ↔ q) : Reads q result := by
  rwa [← propext hiff]

theorem map (h : Reads p result) (f : α → β) : Reads p (result.map f) := by
  obtain ⟨hp, a, rfl⟩ | ⟨hp, message, rfl⟩ := h
  · exact ok (f a) hp
  · exact error message hp

theorem bind (h : Reads p result) {f : α → Except GatewayError β} (hf : ∀ a, Reads q (f a)) :
    Reads (p ∧ q) (result.bind f) := by
  obtain ⟨hp, a, rfl⟩ | ⟨hp, message, rfl⟩ := h
  · exact (hf a).congr (by simp [hp])
  · exact error message fun hpq => hp hpq.1

theorem required (value : Option String) (message : String) : Reads (value.isSome = true) (messages.required value message) := by
  cases value with
  | none => exact error message (by simp)
  | some s => exact ok s rfl

end Reads

theorem decode_source_reads (raw : Option Value) : Reads (ReadableSource raw) (decode_source raw) := by
  unfold decode_source
  split
  · rename_i obj
    have hreadable : ReadableSource (some (.object obj)) ↔
        (block_str obj "type" = some "base64" ∧ (block_str obj "data").isSome) ∨
          (block_str obj "type" = some "url" ∧ (block_str obj "url").isSome) ∨
          (block_str obj "type" = some "file" ∧ (block_str obj "file_id").isSome) ∨ block_str obj "type" = some "text" := by
      simp [ReadableSource]
    have hstr : ∀ key, (Value.object obj).get_str key = block_str obj key := fun key => rfl
    simp only [hstr]
    apply Reads.congr _ hreadable.symm
    split
    · rename_i htype
      exact ((Reads.required _ _).map _).congr (by simp [htype])
    · rename_i htype
      exact ((Reads.required _ _).map _).congr (by simp [htype])
    · rename_i htype
      exact ((Reads.required _ _).map _).congr (by simp [htype])
    · rename_i htype
      exact Reads.ok _ (by simp [htype])
    · rename_i other hbase64 hurl hfile htext htype
      apply Reads.error
      rw [htype]
      simpa using ⟨fun h => (hbase64 h).elim, fun h => (hurl h).elim, fun h => (hfile h).elim, htext⟩
    · rename_i htype
      exact Reads.error _ (by simp [htype])
  · rename_i hobject
    exact Reads.error _ fun ⟨obj, hraw, _⟩ => hobject obj hraw

variable (serde : Serde)

theorem decode_blocks_reads {items : List Value} (hitems : ∀ item ∈ items, Reads (ReadableBlock item) (decode_block serde item)) :
    Reads (∀ item ∈ items, ReadableBlock item) (decode_blocks serde items) := by
  induction items with
  | nil =>
    rw [decode_blocks]
    exact Reads.ok [] (by simp)
  | cons item items ih =>
    obtain ⟨hitem, hrest⟩ := List.forall_mem_cons.mp hitems
    rw [decode_blocks]
    exact (hitem.bind fun parts => (ih hrest).map _).congr List.forall_mem_cons.symm

theorem readable_object {obj : Map} :
    ReadableBlock (.object obj) ↔
      block_type obj ≠ "" ∧
      (block_type obj = "image" ∨ block_type obj = "document" → ReadableSource (Map.get obj "source")) ∧
      (block_type obj = "tool_use" → (block_str obj "id").isSome ∧ (block_str obj "name").isSome) ∧
      (block_type obj = "tool_result" → (block_str obj "tool_use_id").isSome) ∧
      (block_type obj = "tool_result" → ∀ items, Map.get obj "content" = some (.array items) →
        ∀ item ∈ items, ReadableBlock item) := by
  constructor
  · intro h
    cases h with
    | object htype hmedium hcall hresult hcontent => exact ⟨htype, hmedium, hcall, hresult, hcontent⟩
  · rintro ⟨htype, hmedium, hcall, hresult, hcontent⟩
    exact .object htype hmedium hcall hresult hcontent

/-- Reading a block fails exactly where the block lacks something. -/
theorem decode_block_reads (raw : Value) : Reads (ReadableBlock raw) (decode_block serde raw) := by
  match raw with
  | .string s =>
    rw [decode_block]
    exact Reads.ok _ (.string s)
  | .object obj =>
    have hstr : ∀ key, (Map.get obj key).bind Value.as_str = block_str obj key := fun key => rfl
    have hkind : (block_str obj "type").getD "" = block_type obj := rfl
    rw [decode_block]
    simp only [hstr, hkind]
    apply Reads.congr _ readable_object.symm
    split
    · rename_i htype
      exact Reads.ok _ (by simp [htype])
    · rename_i htype
      exact ((decode_source_reads _).map _).congr (by simp [htype])
    · rename_i htype
      exact ((decode_source_reads _).map _).congr (by simp [htype])
    · rename_i htype
      exact Reads.ok _ (by simp [htype])
    · rename_i htype
      exact Reads.ok _ (by simp [htype])
    · rename_i htype
      exact ((Reads.required _ _).bind fun id => (Reads.required _ _).map _).congr (by simp [htype])
    · rename_i htype
      have hcontent : Reads (∀ items, Map.get obj "content" = some (.array items) → ∀ item ∈ items, ReadableBlock item)
          (decode_tool_result_content serde (Map.get obj "content")) := by
        have hlt := Map.sizeOf_get_lt obj "content"
        have hother : ∀ other, (∀ items, other ≠ Value.array items) → (∀ s, other ≠ Value.string s) → other ≠ Value.null →
            Reads (∀ items, some other = some (.array items) → ∀ item ∈ items, ReadableBlock item)
              (decode_tool_result_content serde (some other)) := by
          intro other harray hstring hnull
          rw [decode_tool_result_content]
          · exact Reads.ok _ (by simpa using fun items h => absurd h (harray items))
          all_goals simp [harray, hstring, hnull]
        cases hget : Map.get obj "content" with
        | none =>
          rw [decode_tool_result_content]
          exact Reads.ok _ (by simp)
        | some value =>
          rw [hget] at hlt
          cases value with
          | array items =>
            rw [decode_tool_result_content]
            have hitems : ∀ item ∈ items, Reads (ReadableBlock item) (decode_block serde item) := by
              intro item hitem
              have hsmall : sizeOf item < sizeOf (Value.object obj) := by
                have hsize := List.sizeOf_lt_of_mem hitem
                simp only [Option.some.sizeOf_spec, Value.array.sizeOf_spec] at hlt
                omega
              exact decode_block_reads item
            exact (decode_blocks_reads serde hitems).congr (by simp)
          | string s =>
            rw [decode_tool_result_content]
            exact Reads.ok _ (by simp)
          | null =>
            rw [decode_tool_result_content]
            exact Reads.ok _ (by simp)
          | bool b => exact hother _ (by simp) (by simp) (by simp)
          | number n => exact hother _ (by simp) (by simp) (by simp)
          | object inner => exact hother _ (by simp) (by simp) (by simp)
      exact ((Reads.required _ _).bind fun id => hcontent.map _).congr (by simp [htype])
    · rename_i htype
      exact Reads.error _ (by simp [htype])
    · rename_i htext himage hdocument hthinking hredacted hcall hresult hnot
      exact Reads.ok _ ⟨hnot, fun h => (h.elim himage hdocument).elim, fun h => (hcall h).elim, fun h => (hresult h).elim,
        fun h => (hresult h).elim⟩
  | .null | .bool _ | .number _ | .array _ =>
    rw [decode_block]
    · exact Reads.error _ (by rintro ⟨⟩)
    · simp
    · simp
termination_by sizeOf raw
decreasing_by exact hsmall

end refract.codec.messages
