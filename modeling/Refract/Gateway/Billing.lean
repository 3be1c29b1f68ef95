import Mathlib.Tactic.Ring
import Refract.Ir.Usage
import Refract.Store.Price

open refract.core refract.ir refract.json refract.machine refract.store

namespace refract.gateway

/-- What a request costs that used so much of an upstream. -/
def charge (price : ModelPrice) (upstream : Protocol) (usage : Usage) : ℚ :=
  let normalized := usage.billing_normalized upstream
  price.cost normalized.input_tokens normalized.output_tokens normalized.cached_input_tokens
    normalized.cache_write_tokens

/-- The prompt tokens that are neither read from nor written to a cache. -/
def full_price_tokens (upstream : Protocol) (usage : Usage) : Nat :=
  min (usage.prompt_total upstream) 18446744073709551615 -
    (usage.cached_input_tokens.val + usage.cache_write_tokens.val)

/-- The cost of so many tokens at each of the four prices of a row. -/
def billed (price : ModelPrice) (full cached written output : Nat) : ℚ :=
  ((full : ℚ) * price.input_per_m + (cached : ℚ) * price.cached_price + (written : ℚ) * price.write_price +
    (output : ℚ) * price.output_per_m) / 1000000

variable {price : ModelPrice} (upstream : Protocol) (usage : Usage)

/-- The cache counts fit together in a word. -/
abbrev CacheCountsFit (usage : Usage) : Prop :=
  usage.cached_input_tokens.val + usage.cache_write_tokens.val < 18446744073709551616

theorem charge_eq (hfits : CacheCountsFit usage) :
    charge price upstream usage = billed price (full_price_tokens upstream usage) usage.cached_input_tokens.val
      usage.cache_write_tokens.val usage.output_tokens.val := by
  have hfull : (saturating_sub (usage.billing_normalized upstream).input_tokens
      (usage.cached_input_tokens + usage.cache_write_tokens)).val = full_price_tokens upstream usage := by
    rw [saturating_sub_val, add_val_of_lt hfits, Usage.billing_normalized_input, full_price_tokens]
  simp only [charge, ModelPrice.cost, Usage.billing_normalized_cached, Usage.billing_normalized_cache_write,
    Usage.billing_normalized_output, hfull, billed]

/-- The three counts of a bill make up the prompt, or the cache counts where
    those already exceed it. -/
theorem full_price_tokens_add :
    full_price_tokens upstream usage + usage.cached_input_tokens.val + usage.cache_write_tokens.val =
      max (min (usage.prompt_total upstream) 18446744073709551615)
        (usage.cached_input_tokens.val + usage.cache_write_tokens.val) := by
  unfold full_price_tokens
  omega

/-- More tokens at a price cost no less. -/
theorem billed_mono (hprice : price.validate = .ok ()) {full full' cached cached' written written' output output' : Nat}
    (hfull : full ≤ full') (hcached : cached ≤ cached') (hwritten : written ≤ written') (houtput : output ≤ output') :
    billed price full cached written output ≤ billed price full' cached' written' output' := by
  obtain ⟨hinput_price, houtput_price, hcached_price, hwrite_price⟩ := ModelPrice.validate_ok hprice
  unfold billed
  gcongr

/-- The price of tokens that move from one rate to another. -/
theorem billed_move_cached {full cached moved written output : Nat} (hmoved : moved ≤ full) :
    billed price (full - moved) (cached + moved) written output =
      billed price full cached written output + moved * (price.cached_price - price.input_per_m) / 1000000 := by
  unfold billed
  rw [Nat.cast_sub hmoved, Nat.cast_add]
  ring

theorem billed_move_written {full cached moved written output : Nat} (hmoved : moved ≤ full) :
    billed price (full - moved) cached (written + moved) output =
      billed price full cached written output + moved * (price.write_price - price.input_per_m) / 1000000 := by
  unfold billed
  rw [Nat.cast_sub hmoved, Nat.cast_add]
  ring

variable {upstream usage}

theorem charge_input_mono (hprice : price.validate = .ok ()) (hfits : CacheCountsFit usage) {more : U64}
    (hmore : usage.input_tokens ≤ more) :
    charge price upstream usage ≤ charge price upstream { usage with input_tokens := more } := by
  rw [charge_eq upstream usage hfits, charge_eq upstream { usage with input_tokens := more } hfits]
  refine billed_mono hprice ?_ le_rfl le_rfl le_rfl
  have hval : usage.input_tokens.val ≤ more.val := hmore
  have htotal : usage.prompt_total upstream ≤ ({ usage with input_tokens := more } : Usage).prompt_total upstream := by
    simp only [Usage.prompt_total]
    split <;> omega
  simp only [full_price_tokens]
  omega

theorem charge_output_mono (hprice : price.validate = .ok ()) (hfits : CacheCountsFit usage) {more : U64}
    (hmore : usage.output_tokens ≤ more) :
    charge price upstream usage ≤ charge price upstream { usage with output_tokens := more } := by
  rw [charge_eq upstream usage hfits, charge_eq upstream { usage with output_tokens := more } hfits]
  exact billed_mono hprice le_rfl le_rfl le_rfl hmore

/-- Where the caches are reported apart from the input, more cached tokens are
    more tokens. -/
theorem charge_cache_mono (hprice : price.validate = .ok ()) {cached written : U64}
    (hcached : usage.cached_input_tokens ≤ cached) (hwritten : usage.cache_write_tokens ≤ written)
    (htotal : usage.input_tokens.val + cached.val + written.val < 18446744073709551616) :
    charge price .messages usage ≤
      charge price .messages { usage with cached_input_tokens := cached, cache_write_tokens := written } := by
  have hcached_val : usage.cached_input_tokens.val ≤ cached.val := hcached
  have hwritten_val : usage.cache_write_tokens.val ≤ written.val := hwritten
  have hfits : cached.val + written.val < 18446744073709551616 := by omega
  rw [charge_eq .messages usage (by unfold CacheCountsFit; omega),
    charge_eq .messages { usage with cached_input_tokens := cached, cache_write_tokens := written } hfits]
  refine billed_mono hprice ?_ hcached hwritten le_rfl
  simp only [full_price_tokens, Usage.prompt_total, if_true]
  omega

/-- Where the input counts cached tokens in, another cached token is one full
    token less. -/
theorem charge_cached (hupstream : upstream ≠ .messages) {cached : U64} (hcached : usage.cached_input_tokens ≤ cached)
    (htotal : cached.val + usage.cache_write_tokens.val ≤ usage.input_tokens.val) :
    charge price upstream { usage with cached_input_tokens := cached } = charge price upstream usage +
      (cached.val - usage.cached_input_tokens.val : Nat) * (price.cached_price - price.input_per_m) / 1000000 := by
  have hcached_val : usage.cached_input_tokens.val ≤ cached.val := hcached
  have hinput := usage.input_tokens.isLt
  have hfits : cached.val + usage.cache_write_tokens.val < 18446744073709551616 := by omega
  rw [charge_eq upstream usage (by unfold CacheCountsFit; omega),
    charge_eq upstream { usage with cached_input_tokens := cached } hfits]
  simp only [full_price_tokens, Usage.prompt_total, if_neg hupstream]
  rw [← billed_move_cached (by omega)]
  congr 1 <;> omega

theorem charge_written (hupstream : upstream ≠ .messages) {written : U64} (hwritten : usage.cache_write_tokens ≤ written)
    (htotal : usage.cached_input_tokens.val + written.val ≤ usage.input_tokens.val) :
    charge price upstream { usage with cache_write_tokens := written } = charge price upstream usage +
      (written.val - usage.cache_write_tokens.val : Nat) * (price.write_price - price.input_per_m) / 1000000 := by
  have hwritten_val : usage.cache_write_tokens.val ≤ written.val := hwritten
  have hinput := usage.input_tokens.isLt
  have hfits : usage.cached_input_tokens.val + written.val < 18446744073709551616 := by omega
  rw [charge_eq upstream usage (by unfold CacheCountsFit; omega),
    charge_eq upstream { usage with cache_write_tokens := written } hfits]
  simp only [full_price_tokens, Usage.prompt_total, if_neg hupstream]
  rw [← billed_move_written (by omega)]
  congr 1 <;> omega

variable (price upstream usage) in
/-- The bill of a request takes every prompt token at one rate. It grows with the
    input and the output, and with the cache counts where those come on top of
    the input; elsewhere a cached token only changes its rate. -/
theorem prompt_tokens_billed_once (hprice : price.validate = .ok ()) (hfits : CacheCountsFit usage) :
    (charge price upstream usage = billed price (full_price_tokens upstream usage) usage.cached_input_tokens.val
        usage.cache_write_tokens.val usage.output_tokens.val ∧
      full_price_tokens upstream usage + usage.cached_input_tokens.val + usage.cache_write_tokens.val =
        max (min (usage.prompt_total upstream) 18446744073709551615)
          (usage.cached_input_tokens.val + usage.cache_write_tokens.val)) ∧
    (∀ more, usage.input_tokens ≤ more →
      charge price upstream usage ≤ charge price upstream { usage with input_tokens := more }) ∧
    (∀ more, usage.output_tokens ≤ more →
      charge price upstream usage ≤ charge price upstream { usage with output_tokens := more }) ∧
    (upstream = .messages → ∀ cached written, usage.cached_input_tokens ≤ cached → usage.cache_write_tokens ≤ written →
      usage.input_tokens.val + cached.val + written.val < 18446744073709551616 →
        charge price upstream usage ≤
          charge price upstream { usage with cached_input_tokens := cached, cache_write_tokens := written }) ∧
    (upstream ≠ .messages →
      (∀ cached, usage.cached_input_tokens ≤ cached →
        cached.val + usage.cache_write_tokens.val ≤ usage.input_tokens.val →
          charge price upstream { usage with cached_input_tokens := cached } = charge price upstream usage +
            (cached.val - usage.cached_input_tokens.val : Nat) * (price.cached_price - price.input_per_m) / 1000000) ∧
      ∀ written, usage.cache_write_tokens ≤ written →
        usage.cached_input_tokens.val + written.val ≤ usage.input_tokens.val →
          charge price upstream { usage with cache_write_tokens := written } = charge price upstream usage +
            (written.val - usage.cache_write_tokens.val : Nat) * (price.write_price - price.input_per_m) / 1000000) := by
  refine ⟨⟨charge_eq upstream usage hfits, full_price_tokens_add upstream usage⟩, fun more => charge_input_mono hprice hfits,
    fun more => charge_output_mono hprice hfits, ?_, ?_⟩
  · rintro rfl cached written hcached hwritten htotal
    exact charge_cache_mono hprice hcached hwritten htotal
  · exact fun hupstream => ⟨fun cached => charge_cached hupstream, fun written => charge_written hupstream⟩

/-- A row whose cached tokens cost half as much. -/
def discounted : ModelPrice := ⟨"gpt-*", 2, 8, some 1, none⟩

theorem discounted_billed_once :
    (charge discounted .chat { input_tokens := 10, cached_input_tokens := 4 } = billed discounted 6 4 0 0 ∧
      6 + 4 + 0 = max (min 10 18446744073709551615) (4 + 0)) := by
  have hbilled := prompt_tokens_billed_once discounted .chat { input_tokens := 10, cached_input_tokens := 4 }
    (by decide +kernel) (by decide)
  exact hbilled.1

/-- Cached tokens of a Chat prompt lower the bill, and they are billed even where
    they exceed the prompt. -/
theorem discounted_not_mono :
    charge discounted .chat { input_tokens := 10, cached_input_tokens := 4 } < charge discounted .chat { input_tokens := 10 } ∧
      full_price_tokens .chat { input_tokens := 3, cached_input_tokens := 5 } + 5 + 0 ≠
        Usage.prompt_total { input_tokens := 3, cached_input_tokens := 5 } .chat := by
  refine ⟨?_, by decide⟩
  have hcached : full_price_tokens .chat { input_tokens := 10, cached_input_tokens := 4 } = 6 := by decide
  have hfull : full_price_tokens .chat { input_tokens := 10 } = 10 := by decide
  rw [charge_eq .chat _ (by decide), charge_eq .chat _ (by decide), hcached, hfull]
  norm_num [billed, discounted, ModelPrice.cached_price, ModelPrice.write_price]

end refract.gateway
