import Mathlib.Algebra.Order.Field.Rat
import Mathlib.Data.List.MinMax
import Mathlib.Tactic.Linarith
import Mathlib.Tactic.GCongr
import Refract.Json.Text
import Refract.Machine.Word

open refract.json refract.machine

namespace refract.store

/-- A row of the price table. Prices are per million tokens and exact. -/
structure ModelPrice where
  pattern : String
  input_per_m : ℚ
  output_per_m : ℚ
  cached_input_per_m : Option ℚ
  cache_write_per_m : Option ℚ
  deriving DecidableEq

namespace ModelPrice

/-- The prices of a row under the names that its errors use. -/
def prices (price : ModelPrice) : List (String × Option ℚ) :=
  [("input_per_m", some price.input_per_m), ("output_per_m", some price.output_per_m),
    ("cached_input_per_m", price.cached_input_per_m), ("cache_write_per_m", price.cache_write_per_m)]

/-- The check that a row passes before it is stored. -/
def validate (price : ModelPrice) : Except String Unit :=
  if trim price.pattern = "" then .error "pricing pattern must not be empty"
  else
    match price.prices.find? fun field => field.2.any (· < 0) with
    | some (label, _) => .error s!"pricing {label} must be a non-negative number"
    | none => .ok ()

/-- What the names of a row begin with, if its pattern ends in a star. -/
def wildcard (price : ModelPrice) : Option String :=
  if price.pattern.toList.getLast? = some '*' then some (String.ofList price.pattern.toList.dropLast) else none

/-- The row is for a model. -/
def matches_model (price : ModelPrice) (model : String) : Bool :=
  match price.wildcard with
  | some start => start.toList.isPrefixOf model.toList
  | none => price.pattern = model

def cached_price (price : ModelPrice) : ℚ := price.cached_input_per_m.getD price.input_per_m

def write_price (price : ModelPrice) : ℚ := price.cache_write_per_m.getD price.input_per_m

/-- The cost of a request, the cached and written tokens at their own prices and
    the rest of the input at the full one. -/
def cost (price : ModelPrice) (input_tokens output_tokens cached_tokens cache_write_tokens : U64) : ℚ :=
  let billable_input := saturating_sub input_tokens (cached_tokens + cache_write_tokens)
  ((billable_input.val : ℚ) * price.input_per_m + (cached_tokens.val : ℚ) * price.cached_price +
      (cache_write_tokens.val : ℚ) * price.write_price + (output_tokens.val : ℚ) * price.output_per_m) /
    1000000

/-- No price of a stored row is negative. -/
theorem validate_ok {price : ModelPrice} (hprice : price.validate = .ok ()) :
    0 ≤ price.input_per_m ∧ 0 ≤ price.output_per_m ∧ 0 ≤ price.cached_price ∧ 0 ≤ price.write_price := by
  have hfields : ∀ label value, (label, some value) ∈ price.prices → 0 ≤ value := by
    intro label value hmem
    unfold validate at hprice
    split at hprice
    · cases hprice
    · split at hprice
      · cases hprice
      · next hnone =>
        have hfield := List.find?_eq_none.mp hnone _ hmem
        simpa using hfield
  have hinput : 0 ≤ price.input_per_m := hfields "input_per_m" _ (by simp [prices])
  have hoptional : ∀ label (value : Option ℚ), (label, value) ∈ price.prices → 0 ≤ value.getD price.input_per_m := by
    intro label value hmem
    cases value with
    | none => exact hinput
    | some value => exact hfields label value hmem
  exact ⟨hinput, hfields "output_per_m" _ (by simp [prices]), hoptional "cached_input_per_m" _ (by simp [prices]),
    hoptional "cache_write_per_m" _ (by simp [prices])⟩

end ModelPrice

/-- Looks through rows that match, with the best one so far. A row without a star ends
    the search, and one with a star has to be longer. -/
def price_for_from (best : Option ModelPrice) : List ModelPrice → Option ModelPrice
  | [] => best
  | price :: rest =>
    if price.pattern.toList.getLast? ≠ some '*' then some price
    else if best.all fun b => b.pattern.utf8ByteSize < price.pattern.utf8ByteSize then price_for_from (some price) rest
    else price_for_from best rest

/-- The row of a table that a model is billed by. -/
def price_for (prices : List ModelPrice) (model : String) : Option ModelPrice :=
  price_for_from none (prices.filter (·.matches_model model))

/-- What is found for a model: the row of its name, or else the row with the longest
    start of it, or else nothing. -/
inductive MostSpecific (prices : List ModelPrice) (model : String) : Option ModelPrice → Prop
  | named {price : ModelPrice} (hprice : price ∈ prices) (hplain : price.wildcard = none) (hname : price.pattern = model) :
    MostSpecific prices model (some price)
  | longest {price : ModelPrice} {start : String} (hprice : price ∈ prices) (hstart : price.wildcard = some start)
      (hmodel : start.toList <+: model.toList)
      (hunnamed : ∀ other ∈ prices, other.wildcard = none → other.pattern ≠ model)
      (hlongest : ∀ other ∈ prices, ∀ front, other.wildcard = some front → front.toList <+: model.toList →
        front.length ≤ start.length) :
    MostSpecific prices model (some price)
  | missing (hunnamed : ∀ other ∈ prices, other.wildcard = none → other.pattern ≠ model)
      (hunstarted : ∀ other ∈ prices, ∀ front, other.wildcard = some front → ¬ front.toList <+: model.toList) :
    MostSpecific prices model none

section Lookup

variable {prices : List ModelPrice} {model : String} {price other : ModelPrice}

theorem wildcard_eq_none : price.wildcard = none ↔ price.pattern.toList.getLast? ≠ some '*' := by
  rw [ModelPrice.wildcard]
  split_ifs with hstar
  · simp [hstar]
  · simp [hstar]

theorem pattern_of_wildcard {start : String} (h : price.wildcard = some start) : price.pattern = start ++ "*" := by
  rw [ModelPrice.wildcard, Option.ite_none_right_eq_some] at h
  obtain ⟨hlast, hstart⟩ := h
  obtain ⟨front, hfront⟩ := List.getLast?_eq_some_iff.mp hlast
  rw [← Option.some.inj hstart, ← String.toList_inj, String.toList_append, String.toList_ofList, hfront, List.dropLast_concat]
  rfl

theorem matches_model_of_named (hplain : price.wildcard = none) : price.matches_model model = true ↔ price.pattern = model := by
  rw [ModelPrice.matches_model, hplain, decide_eq_true_iff]

theorem matches_model_of_start {start : String} (hstart : price.wildcard = some start) :
    price.matches_model model = true ↔ start.toList <+: model.toList := by
  rw [ModelPrice.matches_model, hstart, List.isPrefixOf_iff_prefix]

/-- Two starts of one name are one another's starts, the one with fewer bytes that of
    the other. -/
theorem prefix_of_utf8ByteSize_le {front start : String} (hfront : front.toList <+: model.toList)
    (hstart : start.toList <+: model.toList) (hsize : front.utf8ByteSize ≤ start.utf8ByteSize) :
    front.toList <+: start.toList := by
  obtain hshort | ⟨rest, hrest⟩ := List.prefix_or_prefix_of_prefix hfront hstart
  · exact hshort
  · have hwhole : front = start ++ String.ofList rest := by
      rw [← String.toList_inj, String.toList_append, String.toList_ofList, hrest]
    rw [hwhole, String.utf8ByteSize_append] at hsize
    have hempty : String.ofList rest = "" := String.utf8ByteSize_eq_zero_iff.mp (by omega)
    have hsame : front = start := by rw [hwhole, hempty, String.append_empty]
    exact ⟨[], by rw [hsame, List.append_nil]⟩

/-- Rows with stars are compared by their starts. -/
theorem length_le_of_utf8ByteSize_le {front start : String} (hother : other.wildcard = some front)
    (hprice : price.wildcard = some start) (hfront : front.toList <+: model.toList) (hstart : start.toList <+: model.toList)
    (hsize : other.pattern.utf8ByteSize ≤ price.pattern.utf8ByteSize) : front.length ≤ start.length := by
  rw [pattern_of_wildcard hother, pattern_of_wildcard hprice, String.utf8ByteSize_append, String.utf8ByteSize_append] at hsize
  have hshort := prefix_of_utf8ByteSize_le hfront hstart (Nat.le_of_add_le_add_right hsize)
  rw [← String.length_toList, ← String.length_toList]
  exact hshort.length_le

/-- The search ends at the first row of a name, and otherwise keeps the longest. -/
theorem price_for_from_eq (best : Option ModelPrice) (rows : List ModelPrice) :
    price_for_from best rows =
      (rows.find? (·.wildcard.isNone)).or (rows.foldl (List.argAux fun b c => c.pattern.utf8ByteSize < b.pattern.utf8ByteSize) best) := by
  induction rows generalizing best with
  | nil => rfl
  | cons price rest ih =>
    rw [price_for_from, List.find?_cons, List.foldl_cons]
    by_cases hplain : price.wildcard = none
    · rw [if_pos (wildcard_eq_none.mp hplain), hplain]
      rfl
    · rw [if_neg (mt wildcard_eq_none.mpr hplain), Option.isNone_eq_false_iff.mpr (Option.isSome_iff_ne_none.mpr hplain), ih, ih]
      cases best with
      | none => rfl
      | some b =>
        rw [Option.all_some, List.argAux]
        dsimp only
        split_ifs with hlonger hshorter hshorter
        · rfl
        · exact absurd (decide_eq_true_iff.mp hlonger) hshorter
        · exact absurd (decide_eq_true_iff.mpr hshorter) hlonger
        · rfl

/-- The row that is found is the most specific one. -/
theorem most_specific_price_for (prices : List ModelPrice) (model : String) :
    MostSpecific prices model (price_for prices model) := by
  rw [price_for, price_for_from_eq]
  cases hnamed : (prices.filter (·.matches_model model)).find? (·.wildcard.isNone) with
  | some price =>
    rw [Option.some_or]
    obtain ⟨hprice, hmatches⟩ := List.mem_filter.mp (List.mem_of_find?_eq_some hnamed)
    have hnone := List.find?_some hnamed
    have hplain : price.wildcard = none := Option.isNone_iff_eq_none.mp hnone
    exact .named hprice hplain ((matches_model_of_named hplain).mp hmatches)
  | none =>
    rw [Option.none_or]
    have hunnamed : ∀ other ∈ prices, other.wildcard = none → other.pattern ≠ model := by
      intro other hother hplain hname
      have hrow : other ∈ prices.filter (·.matches_model model) := List.mem_filter.mpr ⟨hother, (matches_model_of_named hplain).mpr hname⟩
      exact List.find?_eq_none.mp hnamed other hrow (Option.isNone_iff_eq_none.mpr hplain)
    change MostSpecific prices model (List.argmax (·.pattern.utf8ByteSize) (prices.filter (·.matches_model model)))
    cases hlongest : List.argmax (·.pattern.utf8ByteSize) (prices.filter (·.matches_model model)) with
    | none =>
      have hempty := List.argmax_eq_none.mp hlongest
      refine .missing hunnamed fun other hother front hfront hmodel => ?_
      have hrow : other ∈ prices.filter (·.matches_model model) := List.mem_filter.mpr ⟨hother, (matches_model_of_start hfront).mpr hmodel⟩
      rw [hempty] at hrow
      cases hrow
    | some price =>
      obtain ⟨hprice, hmatches⟩ := List.mem_filter.mp (List.argmax_mem hlongest)
      cases hstart : price.wildcard with
      | none => exact absurd ((matches_model_of_named hstart).mp hmatches) (hunnamed price hprice hstart)
      | some start =>
        have hmodel := (matches_model_of_start hstart).mp hmatches
        refine .longest hprice hstart hmodel hunnamed fun other hother front hfront hother' => ?_
        have hrow : other ∈ prices.filter (·.matches_model model) := List.mem_filter.mpr ⟨hother, (matches_model_of_start hfront).mpr hother'⟩
        have hsize := @List.le_of_mem_argmax _ _ _ (fun row : ModelPrice => row.pattern.utf8ByteSize) _ _ _ hrow hlongest
        exact length_le_of_utf8ByteSize_le hfront hstart hother' hmodel hsize

/-- Of two starts of one name with the same length there is only one. -/
theorem MostSpecific.unique (hdistinct : (prices.map (·.pattern)).Nodup) {found found' : Option ModelPrice}
    (h : MostSpecific prices model found) (h' : MostSpecific prices model found') : found = found' := by
  cases h with
  | named hprice hplain hname =>
    cases h' with
    | named hprice' _ hname' => rw [List.inj_on_of_nodup_map hdistinct hprice hprice' (hname.trans hname'.symm)]
    | longest _ _ _ hunnamed _ => exact absurd hname (hunnamed _ hprice hplain)
    | missing hunnamed _ => exact absurd hname (hunnamed _ hprice hplain)
  | longest hprice hstart hmodel hunnamed hlongest =>
    cases h' with
    | named hprice' hplain' hname' => exact absurd hname' (hunnamed _ hprice' hplain')
    | longest hprice' hstart' hmodel' _ hlongest' =>
      have hlength := le_antisymm (hlongest' _ hprice _ hstart hmodel) (hlongest _ hprice' _ hstart' hmodel')
      rw [← String.length_toList, ← String.length_toList] at hlength
      have hsame := (List.prefix_of_prefix_length_le hmodel hmodel' hlength.le).eq_of_length hlength
      have hpattern := pattern_of_wildcard hstart
      rw [String.toList_inj.mp hsame, ← pattern_of_wildcard hstart'] at hpattern
      rw [List.inj_on_of_nodup_map hdistinct hprice hprice' hpattern]
    | missing _ hunstarted => exact absurd hmodel (hunstarted _ hprice _ hstart)
  | missing hunnamed hunstarted =>
    cases h' with
    | named hprice' hplain' hname' => exact absurd hname' (hunnamed _ hprice' hplain')
    | longest hprice' hstart' hmodel' _ _ => exact absurd hmodel' (hunstarted _ hprice' _ hstart')
    | missing _ _ => rfl

/-- The order of the rows does not matter to what is the most specific. -/
theorem MostSpecific.perm {rows : List ModelPrice} (hperm : rows.Perm prices) {found : Option ModelPrice}
    (h : MostSpecific rows model found) : MostSpecific prices model found := by
  cases h with
  | named hprice hplain hname => exact .named (hperm.mem_iff.mp hprice) hplain hname
  | longest hprice hstart hmodel hunnamed hlongest =>
    exact .longest (hperm.mem_iff.mp hprice) hstart hmodel (fun other hother => hunnamed other (hperm.mem_iff.mpr hother))
      fun other hother => hlongest other (hperm.mem_iff.mpr hother)
  | missing hunnamed hunstarted =>
    exact .missing (fun other hother => hunnamed other (hperm.mem_iff.mpr hother))
      fun other hother => hunstarted other (hperm.mem_iff.mpr hother)

/-- In a table of different patterns the row of a model is the most specific one, in
    whatever order they stand. -/
theorem price_for_eq_iff_most_specific (hdistinct : (prices.map (·.pattern)).Nodup) (model : String) :
    (∀ found, price_for prices model = found ↔ MostSpecific prices model found) ∧
    ∀ rows, rows.Perm prices → price_for rows model = price_for prices model := by
  have hspecific := most_specific_price_for prices model
  refine ⟨fun found => ⟨fun hfound => hfound ▸ hspecific, hspecific.unique hdistinct⟩, fun rows hperm => ?_⟩
  exact ((most_specific_price_for rows model).perm hperm).unique hdistinct hspecific

/-- A table with a row for a name, two for its starts and one for all models. -/
def sample_prices : List ModelPrice :=
  [⟨"*", 1, 1, none, none⟩, ⟨"gpt-4*", 2, 2, none, none⟩, ⟨"gpt-4o", 3, 3, none, none⟩, ⟨"gpt-4o*", 4, 4, none, none⟩]

theorem sample_prices_found :
    (price_for sample_prices "gpt-4o" = sample_prices[2]? ∧ price_for sample_prices "gpt-4o-mini" = sample_prices[3]?) ∧
    MostSpecific sample_prices "gpt-4o-mini" (price_for sample_prices "gpt-4o-mini") ∧
    price_for sample_prices.reverse "gpt-4o" = price_for sample_prices "gpt-4o" := by
  have hdistinct : (sample_prices.map (·.pattern)).Nodup := by decide
  exact ⟨by decide +kernel, ((price_for_eq_iff_most_specific hdistinct "gpt-4o-mini").1 _).mp rfl,
    (price_for_eq_iff_most_specific hdistinct "gpt-4o").2 _ sample_prices.reverse_perm⟩

end Lookup

end refract.store
