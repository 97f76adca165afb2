import Mathlib.Algebra.Order.Field.Basic
import Mathlib.Algebra.Order.Field.Power
import Mathlib.Algebra.Order.Ring.Rat
import Mathlib.Data.BitVec

/-!
# Binary64 numbers

A floating-point number by its 64 bits: what is finite, how two of them compare, and the rational
that a finite one stands for.  A NaN compares with nothing, and the two zeros are equal.
-/

namespace TokenWeasel

namespace Library

structure Binary64 where
  bits : BitVec 64
  deriving DecidableEq, Repr

namespace Binary64

def negative (x : Binary64) : Bool := x.bits.msb

/-- The bits below the sign. -/
def magnitude (x : Binary64) : Nat := x.bits.toNat % 2 ^ 63

/-- The magnitude of an infinity; the ones above it are NaNs. -/
def infinity : Nat := 0x7FF0000000000000

def isNaN (x : Binary64) : Bool := infinity < x.magnitude

def isFinite (x : Binary64) : Bool := x.magnitude < infinity

/-- Where a number that is no NaN stands among the others. -/
def rank (x : Binary64) : Int := if x.negative then -x.magnitude else x.magnitude

instance : Zero Binary64 := ⟨⟨0⟩⟩

instance : LT Binary64 := ⟨fun x y ↦ x.isNaN = false ∧ y.isNaN = false ∧ x.rank < y.rank⟩

instance : LE Binary64 := ⟨fun x y ↦ x.isNaN = false ∧ y.isNaN = false ∧ x.rank ≤ y.rank⟩

instance : DecidableLT Binary64 := fun x y ↦
  inferInstanceAs (Decidable (x.isNaN = false ∧ y.isNaN = false ∧ x.rank < y.rank))

instance : DecidableLE Binary64 := fun x y ↦
  inferInstanceAs (Decidable (x.isNaN = false ∧ y.isNaN = false ∧ x.rank ≤ y.rank))

/-- `!=`: a NaN differs from itself, the zeros do not differ. -/
def Differ (x y : Binary64) : Prop := x.isNaN = true ∨ y.isNaN = true ∨ x.rank ≠ y.rank

instance (x y : Binary64) : Decidable (Differ x y) :=
  inferInstanceAs (Decidable (_ ∨ _ ∨ _))

@[simp] theorem rank_zero : (0 : Binary64).rank = 0 := by decide

@[simp] theorem isNaN_zero : (0 : Binary64).isNaN = false := by decide

@[simp] theorem isFinite_zero : (0 : Binary64).isFinite = true := by decide

theorem isNaN_of_isFinite {x : Binary64} (h : x.isFinite = true) : x.isNaN = false := by
  have hlt : x.magnitude < infinity := of_decide_eq_true h
  exact decide_eq_false (Nat.lt_asymm hlt)

theorem lt_iff_rank {x y : Binary64} (hx : x.isNaN = false) (hy : y.isNaN = false) :
    x < y ↔ x.rank < y.rank :=
  ⟨fun h ↦ h.2.2, fun h ↦ ⟨hx, hy, h⟩⟩

theorem le_iff_rank {x y : Binary64} (hx : x.isNaN = false) (hy : y.isNaN = false) :
    x ≤ y ↔ x.rank ≤ y.rank :=
  ⟨fun h ↦ h.2.2, fun h ↦ ⟨hx, hy, h⟩⟩

/-- Finite numbers are in a linear order. -/
theorem not_lt_of_finite {x y : Binary64} (hx : x.isFinite = true) (hy : y.isFinite = true) :
    ¬ x < y ↔ y ≤ x := by
  have hxNaN := isNaN_of_isFinite hx
  have hyNaN := isNaN_of_isFinite hy
  rw [lt_iff_rank hxNaN hyNaN, le_iff_rank hyNaN hxNaN, not_lt]

theorem not_le_of_finite {x y : Binary64} (hx : x.isFinite = true) (hy : y.isFinite = true) :
    ¬ x ≤ y ↔ y < x := by
  have hxNaN := isNaN_of_isFinite hx
  have hyNaN := isNaN_of_isFinite hy
  rw [le_iff_rank hxNaN hyNaN, lt_iff_rank hyNaN hxNaN, not_le]

/-- What does not differ from a finite number is finite. -/
theorem isFinite_of_not_differ {x y : Binary64} (hx : x.isFinite = true) (h : ¬ Differ x y) :
    y.isFinite = true := by
  have hrank : x.rank = y.rank := by
    by_contra hne
    exact h (Or.inr (Or.inr hne))
  have hlt : x.magnitude < infinity := of_decide_eq_true hx
  apply decide_eq_true
  -- numbers of one rank have one magnitude, whatever the sign of a zero
  unfold rank at hrank
  split at hrank <;> split at hrank <;> omega

/-! ## The rational of a finite number -/

/-- The significand, scaled by the exponent; an exponent of zero has no hidden bit. -/
def size (x : Binary64) : Rat :=
  let exponent : Nat := x.magnitude / 2 ^ 52
  let fraction : Nat := x.magnitude % 2 ^ 52
  if exponent = 0 then fraction * 2 ^ (-1074 : Int)
  else (2 ^ 52 + fraction : Nat) * 2 ^ ((exponent : Int) - 1075)

def toRat (x : Binary64) : Rat := if x.negative then -x.size else x.size

theorem size_pos {x : Binary64} : 0 < x.size ↔ 0 < x.magnitude := by
  have hpower : ∀ k : Int, (0 : Rat) < 2 ^ k := fun k ↦ zpow_pos (by decide) k
  unfold size
  dsimp only
  split
  · rename_i hexponent
    have hfraction : x.magnitude % 2 ^ 52 = x.magnitude := by omega
    rw [hfraction, mul_pos_iff_of_pos_right (hpower _), Nat.cast_pos]
  · rename_i hexponent
    have hsignificand : 0 < 2 ^ 52 + x.magnitude % 2 ^ 52 := by omega
    exact iff_of_true (mul_pos (Nat.cast_pos.mpr hsignificand) (hpower _)) (by omega)

theorem size_nonneg (x : Binary64) : 0 ≤ x.size := by
  have hpower : ∀ k : Int, (0 : Rat) ≤ 2 ^ k := fun k ↦ (zpow_pos (by decide) k).le
  unfold size
  dsimp only
  split
  · exact mul_nonneg (Nat.cast_nonneg _) (hpower _)
  · exact mul_nonneg (Nat.cast_nonneg _) (hpower _)

theorem toRat_pos {x : Binary64} : 0 < x.toRat ↔ 0 < x.rank := by
  have hsize := x.size_nonneg
  have hpos := size_pos (x := x)
  unfold toRat rank
  cases x.negative with
  | true =>
      show 0 < -x.size ↔ 0 < -(x.magnitude : Int)
      rw [neg_pos]
      exact iff_of_false (not_lt.mpr hsize) (by omega)
  | false =>
      show 0 < x.size ↔ 0 < (x.magnitude : Int)
      rw [hpos]
      omega

theorem toRat_neg {x : Binary64} : x.toRat < 0 ↔ x.rank < 0 := by
  have hsize := x.size_nonneg
  have hpos := size_pos (x := x)
  unfold toRat rank
  cases x.negative with
  | true =>
      show -x.size < 0 ↔ -(x.magnitude : Int) < 0
      rw [neg_lt_zero, hpos]
      omega
  | false =>
      show x.size < 0 ↔ (x.magnitude : Int) < 0
      exact iff_of_false (not_lt.mpr hsize) (by omega)

/-- A finite number and its rational are on the same side of zero. -/
theorem toRat_le_zero {x : Binary64} (h : x.isFinite = true) : x.toRat ≤ 0 ↔ x ≤ 0 := by
  rw [le_iff_rank (isNaN_of_isFinite h) isNaN_zero, rank_zero, ← not_lt, toRat_pos, not_lt]

theorem toRat_lt_zero {x : Binary64} (h : x.isFinite = true) : x.toRat < 0 ↔ x < 0 := by
  rw [lt_iff_rank (isNaN_of_isFinite h) isNaN_zero, rank_zero, toRat_neg]

end Binary64

end Library

end TokenWeasel
