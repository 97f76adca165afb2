import Mathlib.Algebra.Field.Basic
import Mathlib.Algebra.Field.Rat
import Mathlib.Algebra.Order.Field.Basic
import Mathlib.Algebra.Order.Ring.Rat
import Mathlib.Data.List.Basic
import TokenWeasel.Library.CheckedSum
import TokenWeasel.Text
import TokenWeasel.Usage.Json

/-!
# Prices (`twl-pricing/src/lib.rs`)

What usage costs.  Rates, units and costs are exact rationals, so every one of them is finite; the
numbers of the code itself are in `Pricing/Floats`.
-/

namespace TokenWeasel

open Library

structure ModelPrice where
  input : Rat := 0
  output : Rat := 0
  inputCached : Rat := 0
  deriving DecidableEq, Repr

structure Cost where
  input : Rat := 0
  inputCached : Rat := 0
  output : Rat := 0
  total : Rat := 0
  deriving DecidableEq, Repr

structure Pricing where
  currency : String := "USD"
  unit : Rat := 1000000
  models : List (String × ModelPrice) := []
  deriving DecidableEq, Repr

def defaultUnit : Rat := 1000000

def clampNonNegative (value : Rat) : Rat := if 0 ≤ value then value else 0

def normalizeRate (value : Rat) : Rat := if value < 0 then 0 else value

/-- Normalizes invalid units and rates into safe billing defaults. -/
def Pricing.sanitized (pricing : Pricing) : Pricing :=
  { pricing with
    unit := if pricing.unit ≤ 0 then defaultUnit else pricing.unit
    models := pricing.models.map fun (name, price) ↦ (name, {
      input := normalizeRate price.input
      output := normalizeRate price.output
      inputCached := normalizeRate price.inputCached }) }

/-- `i64::saturating_sub`. -/
def saturatingSub (a b : Int) : Int := max i64Min (min i64Max (a - b))

/-- The price of a model, or of the model that a quantized variant is named after. -/
def Pricing.priceOf (pricing : Pricing) (model : String) : Option ModelPrice :=
  match pricing.models.lookup model with
  | some price => some price
  | none => pricing.models.lookup (String.ofList (model.toList.takeWhile (· ≠ ':')))

def Pricing.cost (pricing : Pricing) (model : String) (input output cached : Int) : Cost :=
  match pricing.priceOf model with
  -- a model without a price is free
  | none => {}
  | some price =>
    let unit := if 0 < pricing.unit then pricing.unit else defaultUnit
    let billableInput := max (saturatingSub input cached) 0
    let inputCost := clampNonNegative (billableInput * normalizeRate price.input / unit)
    let inputCachedCost :=
      clampNonNegative (max cached 0 * normalizeRate price.inputCached / unit)
    let outputCost := clampNonNegative (max output 0 * normalizeRate price.output / unit)
    { input := inputCost, inputCached := inputCachedCost, output := outputCost,
      total := clampNonNegative (inputCost + inputCachedCost + outputCost) }

theorem clampNonNegative_nonneg (value : Rat) : 0 ≤ clampNonNegative value := by
  unfold clampNonNegative
  split
  · assumption
  · exact le_refl 0

/-- Every cost is its own sum, and none is negative. -/
theorem Pricing.cost_total (pricing : Pricing) (model : String) (input output cached : Int) :
    let cost := pricing.cost model input output cached
    0 ≤ cost.input ∧ 0 ≤ cost.inputCached ∧ 0 ≤ cost.output ∧
      cost.total = cost.input + cost.inputCached + cost.output := by
  intro cost
  show 0 ≤ (pricing.cost model input output cached).input ∧ _
  unfold cost Pricing.cost
  cases pricing.priceOf model with
  | none =>
      refine ⟨le_refl 0, le_refl 0, le_refl 0, ?_⟩
      show (0 : Rat) = 0 + 0 + 0
      rw [add_zero, add_zero]
  | some price =>
      refine ⟨clampNonNegative_nonneg _, clampNonNegative_nonneg _, clampNonNegative_nonneg _, ?_⟩
      -- the clamp of a sum of clamped terms does nothing
      apply if_pos
      exact add_nonneg (add_nonneg (clampNonNegative_nonneg _) (clampNonNegative_nonneg _))
        (clampNonNegative_nonneg _)

/-- A price with its rates in order. -/
def ModelPrice.normalized (price : ModelPrice) : ModelPrice where
  input := normalizeRate price.input
  output := normalizeRate price.output
  inputCached := normalizeRate price.inputCached

theorem Pricing.sanitized_models (pricing : Pricing) :
    pricing.sanitized.models =
      pricing.models.map fun entry ↦ (entry.1, entry.2.normalized) := rfl

theorem normalizeRate_nonneg (value : Rat) : 0 ≤ normalizeRate value := by
  unfold normalizeRate
  split
  · exact le_refl 0
  · rename_i h
    exact not_lt.mp h

/-! ## Costs add up -/

attribute [ext] Cost

instance : Zero Cost := ⟨{}⟩

instance : Add Cost where
  add a b :=
    { input := a.input + b.input, inputCached := a.inputCached + b.inputCached
      output := a.output + b.output, total := a.total + b.total }

/-- Costs add up field by field. -/
instance : AddCommMonoid Cost where
  add_assoc _ _ _ := Cost.ext (add_assoc ..) (add_assoc ..) (add_assoc ..) (add_assoc ..)
  zero_add _ := Cost.ext (zero_add _) (zero_add _) (zero_add _) (zero_add _)
  add_zero _ := Cost.ext (add_zero _) (add_zero _) (add_zero _) (add_zero _)
  add_comm _ _ := Cost.ext (add_comm ..) (add_comm ..) (add_comm ..) (add_comm ..)
  nsmul := nsmulRec

theorem Cost.total_sum {α : Type*} (cost : α → Cost) (records : List α) :
    (records.map cost).sum.total = (records.map fun r ↦ (cost r).total).sum := by
  induction records with
  | nil => rfl
  | cons r records ih =>
      rw [List.map_cons, List.sum_cons, List.map_cons, List.sum_cons, ← ih]
      rfl

/-- The cost without its clamps: every token at its rate. -/
def Pricing.charge (pricing : Pricing) (model : String) (billableInput cached output : Int) :
    Cost :=
  match pricing.priceOf model with
  | none => 0
  | some price =>
    let unit := if 0 < pricing.unit then pricing.unit else defaultUnit
    let inputCost := billableInput * normalizeRate price.input / unit
    let inputCachedCost := cached * normalizeRate price.inputCached / unit
    let outputCost := output * normalizeRate price.output / unit
    { input := inputCost, inputCached := inputCachedCost, output := outputCost
      total := inputCost + inputCachedCost + outputCost }

theorem Pricing.charge_total (pricing : Pricing) (model : String)
    (billableInput cached output : Int) :
    let cost := pricing.charge model billableInput cached output
    cost.total = cost.input + cost.inputCached + cost.output := by
  unfold Pricing.charge
  cases pricing.priceOf model with
  | none =>
      show (0 : Rat) = 0 + 0 + 0
      rw [add_zero, add_zero]
  | some price => rfl

theorem Pricing.charge_add (pricing : Pricing) (model : String) (a b c a' b' c' : Int) :
    pricing.charge model (a + a') (b + b') (c + c') =
      pricing.charge model a b c + pricing.charge model a' b' c' := by
  unfold Pricing.charge
  cases pricing.priceOf model with
  | none => exact (add_zero (0 : Cost)).symm
  | some price =>
      have hterm : ∀ (m n : Int) (rate unit : Rat),
          ((m + n : Int) : Rat) * rate / unit = m * rate / unit + n * rate / unit := by
        intro m n rate unit
        rw [Int.cast_add, add_mul, add_div]
      have hsum : ∀ x x' y y' z z' : Rat,
          x + x' + (y + y') + (z + z') = x + y + z + (x' + y' + z') := by
        intro x x' y y' z z'
        rw [add_add_add_comm x, add_add_add_comm (x + y)]
      dsimp only
      rw [hterm, hterm, hterm]
      exact Cost.ext rfl rfl rfl (hsum ..)

theorem Pricing.charge_zero (pricing : Pricing) (model : String) :
    pricing.charge model 0 0 0 = 0 := by
  unfold Pricing.charge
  cases pricing.priceOf model with
  | none => rfl
  | some price =>
      dsimp only
      rw [Int.cast_zero, zero_mul, zero_mul, zero_mul, zero_div, add_zero, add_zero]
      rfl

theorem Pricing.charge_sum {α : Type*} (pricing : Pricing) (model : String)
    (billableInput cached output : α → Int) (records : List α) :
    pricing.charge model (records.map billableInput).sum (records.map cached).sum
        (records.map output).sum =
      (records.map fun r ↦ pricing.charge model (billableInput r) (cached r) (output r)).sum := by
  induction records with
  | nil => exact pricing.charge_zero model
  | cons r records ih =>
      simp only [List.map_cons, List.sum_cons]
      rw [Pricing.charge_add, ih]

/-- What was cached is taken off the input without a clamp. -/
theorem billableInput_eq {input cached : Int} (hcached : 0 ≤ cached ∧ cached ≤ input)
    (hinput : input ≤ i64Max) : max (saturatingSub input cached) 0 = input - cached := by
  have hmin : i64Min ≤ 0 := by decide
  unfold saturatingSub
  omega

/-- A term of a cost is not clamped. -/
theorem clampNonNegative_term {count : Int} (hcount : 0 ≤ count) (rate unit : Rat) :
    let unit := if 0 < unit then unit else defaultUnit
    clampNonNegative (count * normalizeRate rate / unit) = count * normalizeRate rate / unit := by
  intro unit'
  have hunit : 0 < unit' := by
    unfold unit'
    split
    · assumption
    · decide
  apply if_pos
  exact div_nonneg (mul_nonneg (Int.cast_nonneg hcount) (normalizeRate_nonneg rate)) hunit.le

theorem Pricing.cost_eq_charge (pricing : Pricing) (model : String) {input output cached : Int}
    (hcached : 0 ≤ cached ∧ cached ≤ input) (hinput : input ≤ i64Max) (houtput : 0 ≤ output) :
    pricing.cost model input output cached =
      pricing.charge model (input - cached) cached output := by
  have hterms : (pricing.cost model input output cached).input =
        (pricing.charge model (input - cached) cached output).input ∧
      (pricing.cost model input output cached).inputCached =
        (pricing.charge model (input - cached) cached output).inputCached ∧
      (pricing.cost model input output cached).output =
        (pricing.charge model (input - cached) cached output).output := by
    unfold Pricing.cost Pricing.charge
    cases pricing.priceOf model with
    | none => exact ⟨rfl, rfl, rfl⟩
    | some price =>
        dsimp only
        rw [billableInput_eq hcached hinput, max_eq_left hcached.1, max_eq_left houtput]
        exact ⟨clampNonNegative_term (by omega) .., clampNonNegative_term hcached.1 ..,
          clampNonNegative_term houtput ..⟩
  obtain ⟨hinputCost, hcachedCost, houtputCost⟩ := hterms
  apply Cost.ext hinputCost hcachedCost houtputCost
  rw [(pricing.cost_total ..).2.2.2, pricing.charge_total, hinputCost, hcachedCost, houtputCost]

/-- The cost of summed counts is the sum of the costs. -/
theorem Pricing.cost_sum {α : Type*} (pricing : Pricing) (model : String) {records : List α}
    {input output cached : α → Int}
    (h : ∀ r ∈ records, (0 ≤ cached r ∧ cached r ≤ input r) ∧ 0 ≤ output r)
    (hfits : (records.map input).sum ≤ i64Max) :
    pricing.cost model (records.map input).sum (records.map output).sum (records.map cached).sum =
      (records.map fun r ↦ pricing.cost model (input r) (output r) (cached r)).sum := by
  have hcachedSum : 0 ≤ (records.map cached).sum ∧
      (records.map cached).sum ≤ (records.map input).sum :=
    ⟨sum_map_nonneg fun r hr ↦ (h r hr).1.1, List.sum_le_sum fun r hr ↦ (h r hr).1.2⟩
  have houtputSum : 0 ≤ (records.map output).sum := sum_map_nonneg fun r hr ↦ (h r hr).2
  rw [pricing.cost_eq_charge model hcachedSum hfits houtputSum, ← sum_map_sub, pricing.charge_sum]
  congr 1
  apply List.map_congr_left
  intro r hr
  -- no record has more input than all of them
  have hle : input r ≤ (records.map input).sum :=
    le_sum_map (fun other hother ↦ (h other hother).1.1.trans (h other hother).1.2) hr
  exact (pricing.cost_eq_charge model (h r hr).1 (hle.trans hfits) (h r hr).2).symm

end TokenWeasel
