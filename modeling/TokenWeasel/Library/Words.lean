import Mathlib.Data.FinEnum
import Mathlib.Data.Set.Card
import Mathlib.Order.Interval.Finset.Nat

/-!
# Words by their parts

A rotation brings the low part of a word in front of its high part, so that rotated words are
compared by their low parts first; and each low part is that of as many words as there are high
parts.
-/

namespace TokenWeasel.Library

section Rotation

variable {w r : Nat}

theorem two_pow_parts {v : Nat} (hv : v ≤ w) : 2 ^ w = 2 ^ (w - v) * 2 ^ v := by
  rw [← Nat.pow_add, Nat.sub_add_cancel hv]

theorem toNat_div_lt (x : BitVec w) {v : Nat} (hv : v ≤ w) : x.toNat / 2 ^ v < 2 ^ (w - v) := by
  apply Nat.div_lt_of_lt_mul
  rw [Nat.mul_comm, ← two_pow_parts hv]
  exact x.isLt

theorem toNat_rotateLeft_parts (x : BitVec w) (hr : r < w) :
    (x.rotateLeft r).toNat = x.toNat % 2 ^ (w - r) * 2 ^ r + x.toNat / 2 ^ (w - r) := by
  have hhigh := toNat_div_lt x (Nat.sub_le w r)
  rw [Nat.sub_sub_self hr.le] at hhigh
  rw [BitVec.toNat_rotateLeft, Nat.mod_eq_of_lt hr, Nat.shiftLeft_eq, Nat.shiftRight_eq_div_pow,
    two_pow_parts hr.le, Nat.mul_mod_mul_right, ← Nat.shiftLeft_eq,
    ← Nat.shiftLeft_add_eq_or_of_lt hhigh]

theorem rotateLeft_lt_of_low_lt {x y : BitVec w} (hr : r < w)
    (h : x.toNat % 2 ^ (w - r) < y.toNat % 2 ^ (w - r)) : x.rotateLeft r < y.rotateLeft r := by
  have hhigh := toNat_div_lt x (Nat.sub_le w r)
  rw [Nat.sub_sub_self hr.le] at hhigh
  rw [BitVec.lt_def, toNat_rotateLeft_parts x hr, toNat_rotateLeft_parts y hr]
  calc x.toNat % 2 ^ (w - r) * 2 ^ r + x.toNat / 2 ^ (w - r)
      < x.toNat % 2 ^ (w - r) * 2 ^ r + 2 ^ r := Nat.add_lt_add_left hhigh _
    _ = (x.toNat % 2 ^ (w - r) + 1) * 2 ^ r := (Nat.succ_mul _ _).symm
    _ ≤ y.toNat % 2 ^ (w - r) * 2 ^ r := Nat.mul_le_mul_right _ h
    _ ≤ y.toNat % 2 ^ (w - r) * 2 ^ r + y.toNat / 2 ^ (w - r) := Nat.le_add_right _ _

theorem low_le_of_rotateLeft_lt {x y : BitVec w} (hr : r < w)
    (h : x.rotateLeft r < y.rotateLeft r) :
    x.toNat % 2 ^ (w - r) ≤ y.toNat % 2 ^ (w - r) := by
  by_contra hgt
  have hback := rotateLeft_lt_of_low_lt hr (Nat.lt_of_not_le hgt)
  exact BitVec.lt_irrefl _ (BitVec.lt_trans h hback)

end Rotation

/-! ## Counting -/

section Counting

theorem ncard_preimage_of_injective {α : Type*} [Finite α] {f : α → α}
    (hf : Function.Injective f) (s : Set α) : (Set.preimage f s).ncard = s.ncard := by
  rw [← Set.ncard_image_of_injective _ hf,
    Set.image_preimage_eq s (Finite.surjective_of_injective hf)]

/-- The word of a high part and a low part of `v` bits. -/
def ofParts (w v : Nat) (parts : Nat × Nat) : BitVec w :=
  BitVec.ofNat w (parts.1 * 2 ^ v + parts.2)

variable {w v : Nat} {parts : Nat × Nat}

theorem toNat_ofParts (hv : v ≤ w) (hhigh : parts.1 < 2 ^ (w - v)) (hlow : parts.2 < 2 ^ v) :
    (ofParts w v parts).toNat = parts.1 * 2 ^ v + parts.2 := by
  unfold ofParts
  rw [BitVec.toNat_ofNat, two_pow_parts hv]
  apply Nat.mod_eq_of_lt
  calc parts.1 * 2 ^ v + parts.2 < parts.1 * 2 ^ v + 2 ^ v := Nat.add_lt_add_left hlow _
    _ = (parts.1 + 1) * 2 ^ v := (Nat.succ_mul _ _).symm
    _ ≤ 2 ^ (w - v) * 2 ^ v := Nat.mul_le_mul_right _ hhigh

theorem low_ofParts (hv : v ≤ w) (hhigh : parts.1 < 2 ^ (w - v)) (hlow : parts.2 < 2 ^ v) :
    (ofParts w v parts).toNat % 2 ^ v = parts.2 := by
  rw [toNat_ofParts hv hhigh hlow, Nat.mul_add_mod', Nat.mod_eq_of_lt hlow]

theorem high_ofParts (hv : v ≤ w) (hhigh : parts.1 < 2 ^ (w - v)) (hlow : parts.2 < 2 ^ v) :
    (ofParts w v parts).toNat / 2 ^ v = parts.1 := by
  rw [toNat_ofParts hv hhigh hlow, Nat.mul_comm, Nat.mul_add_div (Nat.two_pow_pos v),
    Nat.div_eq_of_lt hlow, Nat.add_zero]

theorem ofParts_self (x : BitVec w) : ofParts w v (x.toNat / 2 ^ v, x.toNat % 2 ^ v) = x := by
  apply BitVec.eq_of_toNat_eq
  unfold ofParts
  rw [BitVec.toNat_ofNat, Nat.div_add_mod', Nat.mod_eq_of_lt x.isLt]

/-- The words whose low part is one of the `c` greatest. -/
def greatLow (w v c : Nat) : Set (BitVec w) := {x | 2 ^ v - c ≤ x.toNat % 2 ^ v}

theorem ncard_greatLow {w v c : Nat} (hv : v ≤ w) (hc : c ≤ 2 ^ v) :
    (greatLow w v c).ncard = 2 ^ (w - v) * c := by
  let parts : Finset (Nat × Nat) := Finset.range (2 ^ (w - v)) ×ˢ Finset.Ico (2 ^ v - c) (2 ^ v)
  have hmem (part : Nat × Nat) :
      part ∈ parts ↔ part.1 < 2 ^ (w - v) ∧ 2 ^ v - c ≤ part.2 ∧ part.2 < 2 ^ v := by
    rw [Finset.mem_product, Finset.mem_range, Finset.mem_Ico]
  -- a word is its high part and its low part
  have himage : greatLow w v c = ofParts w v '' ↑parts := by
    ext x
    rw [Set.mem_image]
    constructor
    · intro hx
      have hlt : x.toNat % 2 ^ v < 2 ^ v := Nat.mod_lt _ (Nat.two_pow_pos v)
      refine ⟨(x.toNat / 2 ^ v, x.toNat % 2 ^ v), ?_, ofParts_self x⟩
      exact Finset.mem_coe.mpr ((hmem _).mpr ⟨toNat_div_lt x hv, hx, hlt⟩)
    · rintro ⟨part, hpart, rfl⟩
      rcases (hmem part).mp (Finset.mem_coe.mp hpart) with ⟨hhigh, hgreat, hlow⟩
      show 2 ^ v - c ≤ (ofParts w v part).toNat % 2 ^ v
      rw [low_ofParts hv hhigh hlow]
      exact hgreat
  have hinjective : Set.InjOn (ofParts w v) ↑parts := by
    intro p hp q hq heq
    rcases (hmem p).mp (Finset.mem_coe.mp hp) with ⟨hhigh, -, hlow⟩
    rcases (hmem q).mp (Finset.mem_coe.mp hq) with ⟨hhigh', -, hlow'⟩
    have hfirst := congrArg (BitVec.toNat · / 2 ^ v) heq
    have hsecond := congrArg (BitVec.toNat · % 2 ^ v) heq
    rw [high_ofParts hv hhigh hlow, high_ofParts hv hhigh' hlow'] at hfirst
    rw [low_ofParts hv hhigh hlow, low_ofParts hv hhigh' hlow'] at hsecond
    exact Prod.ext hfirst hsecond
  rw [himage, hinjective.ncard_image, Set.ncard_coe_finset, Finset.card_product,
    Finset.card_range, Nat.card_Ico, Nat.sub_sub_self hc]

end Counting

end TokenWeasel.Library
