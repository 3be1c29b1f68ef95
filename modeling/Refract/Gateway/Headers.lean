import Refract.Upstream.Client

open refract.json refract.stream refract.upstream

namespace refract.upstream

/-- The values of a name, in their order. -/
def HeaderMap.get_all (self : HeaderMap) (name : String) : List Bytes := (self.filter (·.1 = name)).map (·.2)

/-- The only value of a name from now on. -/
def HeaderMap.insert (self : HeaderMap) (name : String) (value : Bytes) : HeaderMap :=
  self.filter (·.1 ≠ name) ++ [(name, value)]

/-- One more value of a name. -/
def HeaderMap.append (self : HeaderMap) (name : String) (value : Bytes) : HeaderMap := self ++ [(name, value)]

namespace HeaderMap

variable (headers : HeaderMap) (name other : String) (value : Bytes)

@[simp] theorem get_all_append : get_all (append headers name value) other =
    if other = name then get_all headers other ++ [value] else get_all headers other := by
  by_cases hother : other = name
  · simp [get_all, append, hother]
  · simp [get_all, append, hother, Ne.symm hother]

@[simp] theorem get_all_insert : get_all (insert headers name value) other =
    if other = name then [value] else get_all headers other := by
  unfold get_all insert
  rw [List.filter_append, List.filter_filter]
  by_cases hother : other = name
  · subst hother
    simp
  · have hfilter : (fun line : String × Bytes => decide (line.1 = other) && decide (line.1 ≠ name)) = fun line => decide (line.1 = other) := by
      funext line
      by_cases hline : line.1 = other
      · simp [hline, hother]
      · simp [hline]
    rw [hfilter, if_neg hother]
    simp [Ne.symm hother]

end HeaderMap

end refract.upstream

namespace refract.gateway

section Copy

/-- The headers of one connection. -/
def is_hop_by_hop (name : String) : Bool :=
  ["connection", "keep-alive", "proxy-authenticate", "proxy-authorization", "te", "trailer", "transfer-encoding", "upgrade"].contains
    name

def to_ascii_lowercase (s : String) : String := s.map Char.toLower

/-- The names that a line of the connection header lists. -/
def connection_names (text : String) : List String :=
  ((text.toList.splitOn ',').map fun name => to_ascii_lowercase (trim (String.ofList name))).filter (· ≠ "")

def connection_tokens (source : HeaderMap) : List String :=
  ((HeaderMap.get_all source "connection").filterMap to_str).flatMap connection_names

variable (tokens : List String) (streaming : Bool)

/-- A header that ends at the gateway. -/
def withheld (name : String) : Bool :=
  (is_hop_by_hop name || tokens.contains name) || (streaming && name = "content-length")

/-- The names that were copied, and the headers. The first line of a name
    replaces what was preset. -/
def copy_line (state : List String × HeaderMap) (line : String × Bytes) : List String × HeaderMap :=
  if withheld tokens streaming line.1 then state
  else if line.1 ∈ state.1 then (state.1, state.2.append line.1 line.2)
  else (line.1 :: state.1, state.2.insert line.1 line.2)

def copy_end_to_end_headers (source target : HeaderMap) : HeaderMap :=
  (source.foldl (copy_line (connection_tokens source) streaming) ([], target)).2

end Copy

section Copied

variable {tokens : List String} {streaming : Bool} {source target done : HeaderMap} {state : List String × HeaderMap}

/-- What the copy of some lines comes to. -/
structure Copied (tokens : List String) (streaming : Bool) (target done : HeaderMap) (state : List String × HeaderMap) : Prop where
  seen : ∀ name, name ∈ state.1 ↔ withheld tokens streaming name = false ∧ done.get_all name ≠ []
  values : ∀ name, state.2.get_all name = if name ∈ state.1 then done.get_all name else target.get_all name

theorem copied_nothing : Copied tokens streaming target [] ([], target) :=
  ⟨fun name => by simp [HeaderMap.get_all], fun name => by simp⟩

theorem Copied.line (hcopied : Copied tokens streaming target done state) (line : String × Bytes) :
    Copied tokens streaming target (done ++ [line]) (copy_line tokens streaming state line) := by
  obtain ⟨name, value⟩ := line
  have hdone : ∀ other, HeaderMap.get_all (done ++ [(name, value)]) other =
      if other = name then done.get_all other ++ [value] else done.get_all other :=
    fun other => done.get_all_append name other value
  unfold copy_line
  cases hwithheld : withheld tokens streaming name with
  | true =>
    simp only [if_true]
    refine ⟨fun other => ?_, fun other => ?_⟩
    · rw [hcopied.seen, hdone]
      by_cases hother : other = name
      · simp [hother, hwithheld]
      · rw [if_neg hother]
    · rw [hcopied.values, hdone]
      by_cases hother : other = name
      · have hnew : name ∉ state.1 := by simp [hcopied.seen, hwithheld]
        rw [hother, if_neg hnew, if_neg hnew]
      · rw [if_neg hother]
  | false =>
    simp only [Bool.false_eq_true, if_false]
    by_cases hseen : name ∈ state.1
    · rw [if_pos hseen]
      refine ⟨fun other => ?_, fun other => ?_⟩
      · rw [hcopied.seen, hdone]
        by_cases hother : other = name
        · simp [hother, hwithheld, ((hcopied.seen name).mp hseen).2]
        · rw [if_neg hother]
      · rw [HeaderMap.get_all_append, hcopied.values, hdone]
        by_cases hother : other = name
        · rw [hother, if_pos rfl, if_pos hseen, if_pos hseen, if_pos rfl]
        · rw [if_neg hother, if_neg hother]
    · rw [if_neg hseen]
      have hfirst : done.get_all name = [] := by
        by_contra hsome
        exact hseen ((hcopied.seen name).mpr ⟨hwithheld, hsome⟩)
      refine ⟨fun other => ?_, fun other => ?_⟩
      · rw [List.mem_cons, hcopied.seen, hdone]
        by_cases hother : other = name
        · simp [hother, hwithheld]
        · simp [hother]
      · rw [HeaderMap.get_all_insert, hcopied.values, hdone]
        by_cases hother : other = name
        · rw [hother, if_pos rfl, if_pos (.head _), if_pos rfl, hfirst, List.nil_append]
        · simp [hother]

theorem copied_run (tokens : List String) (streaming : Bool) (source target : HeaderMap) :
    Copied tokens streaming target source (source.foldl (copy_line tokens streaming) ([], target)) := by
  induction source using List.reverseRecOn with
  | nil => exact copied_nothing
  | append_singleton done line ih =>
    rw [List.foldl_append]
    exact ih.line line

/-- A line of the connection header that is text lists a name, in any case. -/
def Listed (source : HeaderMap) (name : String) : Prop :=
  ∃ value ∈ source.get_all "connection", ∃ text, to_str value = some text ∧
    ∃ listed ∈ text.toList.splitOn ',', to_ascii_lowercase (trim (String.ofList listed)) = name ∧ name ≠ ""

theorem mem_connection_tokens {name : String} : name ∈ connection_tokens source ↔ Listed source name := by
  simp only [connection_tokens, connection_names, List.mem_flatMap, List.mem_filterMap, List.mem_filter, List.mem_map, Listed,
    decide_eq_true_eq]
  constructor
  · rintro ⟨text, ⟨value, hvalue, htext⟩, ⟨listed, hlisted, rfl⟩, hname⟩
    exact ⟨value, hvalue, text, htext, listed, hlisted, rfl, hname⟩
  · rintro ⟨value, hvalue, text, htext, listed, hlisted, rfl, hname⟩
    exact ⟨text, ⟨value, hvalue, htext⟩, ⟨listed, hlisted, rfl⟩, hname⟩

/-- A header that has to do with the connection to the upstream alone. -/
def Withheld (source : HeaderMap) (streaming : Bool) (name : String) : Prop :=
  is_hop_by_hop name = true ∨ Listed source name ∨ streaming = true ∧ name = "content-length"

theorem withheld_iff {name : String} : withheld (connection_tokens source) streaming name = true ↔ Withheld source streaming name := by
  simp [withheld, Withheld, mem_connection_tokens, or_assoc]

instance withheldDecidable (source : HeaderMap) (streaming : Bool) (name : String) : Decidable (Withheld source streaming name) :=
  decidable_of_iff _ withheld_iff

/-- An end-to-end header of the upstream is copied with its values in their
    order, and replaces what was preset. Of any other name there is what was
    preset. -/
theorem get_all_copy_end_to_end_headers (source target : HeaderMap) (streaming : Bool) (name : String) :
    (copy_end_to_end_headers streaming source target).get_all name =
      if source.get_all name = [] ∨ Withheld source streaming name then target.get_all name else source.get_all name := by
  have hcopied := copied_run (connection_tokens source) streaming source target
  rw [copy_end_to_end_headers, hcopied.values]
  by_cases hkept : source.get_all name = [] ∨ Withheld source streaming name
  · rw [if_pos hkept, if_neg]
    rw [hcopied.seen]
    rintro ⟨hwithheld, hsome⟩
    have hwithheld' := withheld_iff.mpr (hkept.resolve_left hsome)
    rw [hwithheld] at hwithheld'
    cases hwithheld'
  · rw [if_neg hkept, if_pos]
    rw [hcopied.seen]
    exact ⟨Bool.eq_false_iff.mpr fun hwithheld => hkept (.inr (withheld_iff.mp hwithheld)), fun hnone => hkept (.inl hnone)⟩

/-- A connection line with the header `x-hop` and one that is no text. -/
def opaque_line : Bytes := [120, 45, 104, 111, 112, 44, 32, 233]

/-- The line lists a header, which is copied all the same: a line with a byte
    that is no text is not read. -/
theorem opaque_line_not_read :
    [120, 45, 104, 111, 112] ∈ opaque_line.splitOn 44 ∧
      to_str [120, 45, 104, 111, 112] = some "x-hop" ∧
      HeaderMap.get_all (copy_end_to_end_headers false [("connection", opaque_line), ("x-hop", [49])] []) "x-hop" = [[49]] := by
  decide

end Copied

end refract.gateway
