import TokenWeasel.Library.Binary64
import TokenWeasel.Pricing

/-!
# Prices as floats (`twl-pricing/src/lib.rs`)

The prices with the numbers that the code has.  How `*`, `/`, `+` and the conversion of a count
round is a parameter: nothing here depends on it, and a result may be infinite or NaN.
-/

namespace TokenWeasel

namespace Floats

open Library

/-- The operations of `f64` on finite numbers and all others. -/
structure Arithmetic where
  ofInt : Int → Binary64
  mul : Binary64 → Binary64 → Binary64
  div : Binary64 → Binary64 → Binary64
  add : Binary64 → Binary64 → Binary64

structure ModelPrice where
  input : Binary64 := 0
  output : Binary64 := 0
  inputCached : Binary64 := 0
  deriving DecidableEq, Repr

structure Cost where
  input : Binary64 := 0
  inputCached : Binary64 := 0
  output : Binary64 := 0
  total : Binary64 := 0
  deriving DecidableEq, Repr

/-- `1_000_000.0`. -/
def defaultUnit : Binary64 := ⟨0x412E848000000000⟩

structure Pricing where
  currency : String := "USD"
  unit : Binary64 := defaultUnit
  models : List (String × ModelPrice) := []
  deriving DecidableEq, Repr

def clampFiniteNonNegative (v : Binary64) : Binary64 := if v.isFinite ∧ 0 ≤ v then v else 0

def normalizeRate (value : Binary64) : Binary64 :=
  if ¬ value.isFinite ∨ value < 0 then 0 else value

/-- The rates of one model; they are written when one of them differs. -/
def ModelPrice.sanitized (price : ModelPrice) : ModelPrice :=
  let normInput := normalizeRate price.input
  let normOutput := normalizeRate price.output
  let normCached := normalizeRate price.inputCached
  if normInput.Differ price.input ∨ normOutput.Differ price.output ∨
      normCached.Differ price.inputCached then
    { input := normInput, output := normOutput, inputCached := normCached }
  else price

/-- Normalizes invalid units and rates into safe billing defaults. -/
def Pricing.sanitized (pricing : Pricing) : Pricing :=
  { pricing with
    unit := if ¬ pricing.unit.isFinite ∨ pricing.unit ≤ 0 then defaultUnit else pricing.unit
    models := pricing.models.map fun entry ↦ (entry.1, entry.2.sanitized) }

/-- The price of a model, or of the model that a quantized variant is named after. -/
def Pricing.priceOf (pricing : Pricing) (model : String) : Option ModelPrice :=
  match pricing.models.lookup model with
  | some price => some price
  | none => pricing.models.lookup (String.ofList (model.toList.takeWhile (· ≠ ':')))

def Pricing.cost (arith : Arithmetic) (pricing : Pricing) (model : String)
    (input output cached : Int) : Cost :=
  match pricing.priceOf model with
  | none => {}
  | some price =>
    let unit := if pricing.unit.isFinite ∧ 0 < pricing.unit then pricing.unit else defaultUnit
    let rateInput := normalizeRate price.input
    let rateOutput := normalizeRate price.output
    let rateCached := normalizeRate price.inputCached
    let term := fun (count : Int) (rate : Binary64) ↦
      clampFiniteNonNegative (arith.div (arith.mul (arith.ofInt count) rate) unit)
    let inputCost := term (max (saturatingSub input cached) 0) rateInput
    let inputCachedCost := term (max cached 0) rateCached
    let outputCost := term (max output 0) rateOutput
    { input := inputCost, inputCached := inputCachedCost, output := outputCost
      total := clampFiniteNonNegative (arith.add (arith.add inputCost inputCachedCost) outputCost) }

/-! ## Numbers that need no repair -/

/-- Finite and not negative. -/
def Billable (v : Binary64) : Prop := v.isFinite = true ∧ 0 ≤ v

theorem billable_zero : Billable 0 := ⟨Binary64.isFinite_zero, by decide⟩

theorem clampFiniteNonNegative_billable (v : Binary64) : Billable (clampFiniteNonNegative v) := by
  unfold clampFiniteNonNegative
  split
  · assumption
  · exact billable_zero

theorem normalizeRate_of_billable {value : Binary64} (h : Billable value) :
    normalizeRate value = value := by
  apply if_neg
  rintro (hinfinite | hneg)
  · exact hinfinite h.1
  · exact (Binary64.not_lt_of_finite h.1 Binary64.isFinite_zero).mpr h.2 hneg

theorem normalizeRate_billable (value : Binary64) : Billable (normalizeRate value) := by
  unfold normalizeRate
  split
  · exact billable_zero
  · rename_i h
    have hfinite : value.isFinite = true := by
      by_contra hinfinite
      exact h (Or.inl hinfinite)
    exact ⟨hfinite, (Binary64.not_lt_of_finite hfinite Binary64.isFinite_zero).mp
      fun hneg ↦ h (Or.inr hneg)⟩

/-- A rate that does not differ from its repair needed none. -/
theorem normalizeRate_of_not_differ {value : Binary64}
    (h : ¬ (normalizeRate value).Differ value) : normalizeRate value = value := by
  -- a NaN differs from whatever replaces it, and an infinity from the zero
  have hfinite : value.isFinite = true :=
    Binary64.isFinite_of_not_differ (normalizeRate_billable value).1 h
  have hrank : (normalizeRate value).rank = value.rank := by
    by_contra hne
    exact h (Or.inr (Or.inr hne))
  by_cases hneg : value < 0
  · -- it would be repaired to zero, and a negative number is not zero
    have hzero : normalizeRate value = 0 := if_pos (Or.inr hneg)
    rw [hzero] at hrank
    have hlt : value.rank < (0 : Binary64).rank := hneg.2.2
    exact absurd hlt (by rw [hrank]; exact lt_irrefl _)
  · exact normalizeRate_of_billable
      ⟨hfinite, (Binary64.not_lt_of_finite hfinite Binary64.isFinite_zero).mp hneg⟩

/-- Whether the rates are written or left alone makes no difference. -/
theorem ModelPrice.sanitized_eq (price : ModelPrice) :
    price.sanitized =
      { input := normalizeRate price.input, output := normalizeRate price.output
        inputCached := normalizeRate price.inputCached } := by
  unfold ModelPrice.sanitized
  dsimp only
  split
  · rfl
  · rename_i h
    rw [not_or, not_or] at h
    rw [normalizeRate_of_not_differ h.1, normalizeRate_of_not_differ h.2.1,
      normalizeRate_of_not_differ h.2.2]

structure ModelPrice.Valid (price : ModelPrice) : Prop where
  input : Billable price.input
  output : Billable price.output
  inputCached : Billable price.inputCached

/-- Prices that need no repair. -/
structure Pricing.Valid (pricing : Pricing) : Prop where
  unit_finite : pricing.unit.isFinite = true
  unit_pos : 0 < pricing.unit
  rates : ∀ entry ∈ pricing.models, entry.2.Valid

structure Cost.Valid (cost : Cost) : Prop where
  input : Billable cost.input
  inputCached : Billable cost.inputCached
  output : Billable cost.output
  total : Billable cost.total

theorem ModelPrice.sanitized_valid (price : ModelPrice) : price.sanitized.Valid := by
  rw [price.sanitized_eq]
  exact ⟨normalizeRate_billable _, normalizeRate_billable _, normalizeRate_billable _⟩

theorem ModelPrice.Valid.sanitized_eq {price : ModelPrice} (h : price.Valid) :
    price.sanitized = price := by
  rw [price.sanitized_eq, normalizeRate_of_billable h.input, normalizeRate_of_billable h.output,
    normalizeRate_of_billable h.inputCached]

theorem defaultUnit_finite_pos : defaultUnit.isFinite = true ∧ 0 < defaultUnit := by
  decide +kernel

theorem unit_of_pos {unit : Binary64} (hfinite : unit.isFinite = true) :
    ¬ (¬ unit.isFinite ∨ unit ≤ 0) ↔ 0 < unit := by
  rw [not_or, not_not, Binary64.not_le_of_finite hfinite Binary64.isFinite_zero]
  exact and_iff_right hfinite

theorem Pricing.sanitized_valid (pricing : Pricing) : pricing.sanitized.Valid := by
  have hunit : pricing.sanitized.unit.isFinite = true ∧ 0 < pricing.sanitized.unit := by
    show (if ¬ pricing.unit.isFinite ∨ pricing.unit ≤ 0 then defaultUnit
      else pricing.unit).isFinite = true ∧ 0 < if ¬ pricing.unit.isFinite ∨ pricing.unit ≤ 0 then
        defaultUnit else pricing.unit
    split
    · exact defaultUnit_finite_pos
    · rename_i h
      have hfinite : pricing.unit.isFinite = true := by
        by_contra hinfinite
        exact h (Or.inl hinfinite)
      exact ⟨hfinite, (unit_of_pos hfinite).mp h⟩
  refine ⟨hunit.1, hunit.2, ?_⟩
  intro entry hentry
  rcases List.mem_map.mp hentry with ⟨old, -, rfl⟩
  exact old.2.sanitized_valid

theorem Pricing.Valid.sanitized_eq {pricing : Pricing} (h : pricing.Valid) :
    pricing.sanitized = pricing := by
  have hunit : pricing.sanitized.unit = pricing.unit :=
    if_neg ((unit_of_pos h.unit_finite).mpr h.unit_pos)
  have hmodels : pricing.sanitized.models = pricing.models := by
    show pricing.models.map (fun entry ↦ (entry.1, entry.2.sanitized)) = pricing.models
    conv_rhs => rw [← List.map_id pricing.models]
    apply List.map_congr_left
    intro entry hentry
    show (entry.1, entry.2.sanitized) = entry
    rw [(h.rates entry hentry).sanitized_eq]
  show ({ pricing with unit := pricing.sanitized.unit
                       models := pricing.sanitized.models } : Pricing) = pricing
  rw [hunit, hmodels]

theorem Pricing.priceOf_sanitized (pricing : Pricing) (model : String) :
    pricing.sanitized.priceOf model = (pricing.priceOf model).map ModelPrice.sanitized := by
  have hlookup : ∀ (models : List (String × ModelPrice)) (name : String),
      (models.map fun entry ↦ (entry.1, entry.2.sanitized)).lookup name =
        (models.lookup name).map ModelPrice.sanitized := by
    intro models name
    induction models with
    | nil => rfl
    | cons entry models ih =>
        rw [List.map_cons, List.lookup_cons, List.lookup_cons]
        cases name == entry.1 with
        | true => rfl
        | false => exact ih
  have hmodels : pricing.sanitized.models =
      pricing.models.map fun entry ↦ (entry.1, entry.2.sanitized) := rfl
  unfold Pricing.priceOf
  rw [hmodels, hlookup, hlookup]
  cases pricing.models.lookup model <;> rfl

/-- The unit of a cost is the sanitized one. -/
theorem Pricing.cost_unit (pricing : Pricing) :
    (if pricing.unit.isFinite ∧ 0 < pricing.unit then pricing.unit else defaultUnit) =
      pricing.sanitized.unit := by
  show _ = if ¬ pricing.unit.isFinite ∨ pricing.unit ≤ 0 then defaultUnit else pricing.unit
  -- on finite units the check of a cost is the negation of the check at the start
  by_cases hfinite : pricing.unit.isFinite = true
  · by_cases hpos : 0 < pricing.unit
    · rw [if_pos ⟨hfinite, hpos⟩, if_neg ((unit_of_pos hfinite).mpr hpos)]
    · rw [if_neg fun h ↦ hpos h.2]
      by_cases hrepair : ¬ pricing.unit.isFinite ∨ pricing.unit ≤ 0
      · rw [if_pos hrepair]
      · exact absurd ((unit_of_pos hfinite).mp hrepair) hpos
  · rw [if_neg fun h ↦ hfinite h.1, if_pos (Or.inl hfinite)]

theorem Pricing.cost_valid (arith : Arithmetic) (pricing : Pricing) (model : String)
    (input output cached : Int) : (pricing.cost arith model input output cached).Valid := by
  unfold Pricing.cost
  cases pricing.priceOf model with
  | none => exact ⟨billable_zero, billable_zero, billable_zero, billable_zero⟩
  | some price =>
      exact ⟨clampFiniteNonNegative_billable _, clampFiniteNonNegative_billable _,
        clampFiniteNonNegative_billable _, clampFiniteNonNegative_billable _⟩

/-- Sanitized prices are in order and stay as they are, and nothing costs more or less under them,
however the arithmetic rounds: what is sanitized at the start is what every cost allows for. -/
theorem sanitized_keeps_costs (arith : Arithmetic) (pricing : Pricing) :
    pricing.sanitized.Valid ∧ pricing.sanitized.sanitized = pricing.sanitized ∧
      pricing.sanitized.currency = pricing.currency ∧
      ∀ model input output cached,
        (pricing.cost arith model input output cached).Valid ∧
        pricing.sanitized.cost arith model input output cached =
          pricing.cost arith model input output cached := by
  refine ⟨pricing.sanitized_valid, pricing.sanitized_valid.sanitized_eq, rfl, ?_⟩
  intro model input output cached
  refine ⟨pricing.cost_valid arith model input output cached, ?_⟩
  unfold Pricing.cost
  -- both costs have the sanitized unit, and their rates are repaired in any case
  rw [pricing.priceOf_sanitized, pricing.cost_unit, pricing.sanitized.cost_unit,
    pricing.sanitized_valid.sanitized_eq]
  cases pricing.priceOf model with
  | none => rfl
  | some price =>
      dsimp only [Option.map_some]
      rw [price.sanitized_eq, normalizeRate_of_billable (normalizeRate_billable price.input),
        normalizeRate_of_billable (normalizeRate_billable price.inputCached),
        normalizeRate_of_billable (normalizeRate_billable price.output)]

/-! ## Exact prices -/

/-- The rationals that the rates stand for. -/
def ModelPrice.exact (price : ModelPrice) : TokenWeasel.ModelPrice where
  input := price.input.toRat
  output := price.output.toRat
  inputCached := price.inputCached.toRat

def Pricing.exact (pricing : Pricing) : TokenWeasel.Pricing where
  currency := pricing.currency
  unit := pricing.unit.toRat
  models := pricing.models.map fun entry ↦ (entry.1, entry.2.exact)

structure ModelPrice.Finite (price : ModelPrice) : Prop where
  input : price.input.isFinite = true
  output : price.output.isFinite = true
  inputCached : price.inputCached.isFinite = true

theorem normalizeRate_exact {value : Binary64} (h : value.isFinite = true) :
    (normalizeRate value).toRat = TokenWeasel.normalizeRate value.toRat := by
  unfold normalizeRate TokenWeasel.normalizeRate
  by_cases hneg : value < 0
  · rw [if_pos (Or.inr hneg), if_pos ((Binary64.toRat_lt_zero h).mpr hneg)]
    decide +kernel
  · rw [if_neg (not_or.mpr ⟨not_not.mpr h, hneg⟩),
      if_neg fun hlt ↦ hneg ((Binary64.toRat_lt_zero h).mp hlt)]

/-- For finite numbers, as a parsed file has them, the exact prices are sanitized alike. -/
theorem Pricing.sanitized_exact {pricing : Pricing} (hunit : pricing.unit.isFinite = true)
    (hrates : ∀ entry ∈ pricing.models, entry.2.Finite) :
    pricing.sanitized.exact = pricing.exact.sanitized := by
  have hdefault : defaultUnit.toRat = TokenWeasel.defaultUnit := by decide +kernel
  have hunits : pricing.sanitized.exact.unit = pricing.exact.sanitized.unit := by
    show (if ¬ pricing.unit.isFinite ∨ pricing.unit ≤ 0 then defaultUnit
      else pricing.unit).toRat = if pricing.unit.toRat ≤ 0 then _ else pricing.unit.toRat
    by_cases hle : pricing.unit ≤ 0
    · rw [if_pos (Or.inr hle), if_pos ((Binary64.toRat_le_zero hunit).mpr hle), hdefault]
    · rw [if_neg (not_or.mpr ⟨not_not.mpr hunit, hle⟩),
        if_neg fun h ↦ hle ((Binary64.toRat_le_zero hunit).mp h)]
  have hmodels : pricing.sanitized.exact.models = pricing.exact.sanitized.models := by
    rw [pricing.exact.sanitized_models]
    show (pricing.models.map _).map _ = (pricing.models.map _).map _
    rw [List.map_map, List.map_map]
    apply List.map_congr_left
    intro entry hentry
    have hfinite := hrates entry hentry
    show (entry.1, entry.2.sanitized.exact) = (entry.1, entry.2.exact.normalized)
    rw [entry.2.sanitized_eq]
    unfold ModelPrice.exact TokenWeasel.ModelPrice.normalized
    rw [normalizeRate_exact hfinite.input, normalizeRate_exact hfinite.output,
      normalizeRate_exact hfinite.inputCached]
  show ({ pricing.exact with unit := pricing.sanitized.exact.unit
                             models := pricing.sanitized.exact.models } : TokenWeasel.Pricing) = _
  rw [hunits, hmodels]
  rfl

end Floats

end TokenWeasel
