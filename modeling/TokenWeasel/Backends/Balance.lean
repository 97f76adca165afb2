import TokenWeasel.Backends.Affinity
import TokenWeasel.Library.BestApproximation
import TokenWeasel.Library.Words

/-!
# Shares of the candidates (`twl-backends/src/lib.rs`)

The words behind the scores of two candidates differ by a multiple of the hasher's constant, and the
rotation compares the low 38 bits of these words first.  How near such a multiple comes to a multiple
of `2 ^ 38` therefore decides how many prefixes a candidate gets.
-/

namespace TokenWeasel.Backends

open Library

/-- The prefixes whose first candidate is `i`, of the candidates below `n`. -/
def firstFor (n i : Nat) : Set (BitVec 64) :=
  {prefixHash | (rendezvousOrder prefixHash (List.range n)).head? = some i}

theorem mem_firstFor {n i : Nat} (hn : n ≤ 2 ^ 32) (prefixHash : BitVec 64) :
    prefixHash ∈ firstFor n i ↔
      i < n ∧ ∀ j < n, j ≠ i → score prefixHash j < score prefixHash i := by
  have hsmall : ∀ idx ∈ List.range n, idx < 2 ^ 32 := fun idx hidx ↦
    lt_of_lt_of_le (List.mem_range.mp hidx) hn
  have hperm := rendezvousOrder_perm prefixHash (List.range n)
  have hstrict := rendezvousOrder_strict prefixHash hsmall List.nodup_range
  show (rendezvousOrder prefixHash (List.range n)).head? = some i ↔ _
  cases horder : rendezvousOrder prefixHash (List.range n) with
  | nil =>
      rw [horder] at hperm
      have hempty : n = 0 := List.range_eq_nil.mp (List.nil_perm.mp hperm)
      rw [hempty]
      simp
  | cons first rest =>
      rw [horder] at hperm hstrict
      have hmem (j : Nat) : j < n ↔ j = first ∨ j ∈ rest := by
        rw [← List.mem_range, ← hperm.mem_iff, List.mem_cons]
      rw [List.head?_cons, Option.some.injEq]
      constructor
      · rintro rfl
        refine ⟨(hmem _).mpr (Or.inl rfl), fun j hj hne ↦ ?_⟩
        exact (List.pairwise_cons.mp hstrict).1 j (((hmem j).mp hj).resolve_left hne)
      · rintro ⟨hi, hbest⟩
        cases (hmem i).mp hi with
        | inl heq => exact heq.symm
        | inr hrest =>
            -- the first candidate would be below and above `i`
            by_contra hne
            have hbelow := hbest first ((hmem first).mpr (Or.inl rfl)) hne
            have habove := (List.pairwise_cons.mp hstrict).1 i hrest
            exact BitVec.lt_irrefl _ (BitVec.lt_trans hbelow habove)

/-! ## Low parts -/

/-- The low part of the hasher's constant, and the number of low parts. -/
def lowMultiplier : Int := 181166844357

def lowParts : Int := 2 ^ 38

/-- The word of a candidate before the rotation. -/
def hashWord (prefixHash : BitVec 64) (idx : Nat) : BitVec 64 :=
  fxAdd (fxAdd 0#64 prefixHash) (BitVec.ofNat 64 idx)

def lowPart (prefixHash : BitVec 64) (idx : Nat) : Nat := (hashWord prefixHash idx).toNat % 2 ^ 38

theorem lowPart_lt (prefixHash : BitVec 64) (idx : Nat) : lowPart prefixHash idx < 2 ^ 38 :=
  Nat.mod_lt _ (Nat.two_pow_pos 38)

theorem score_lt_of_lowPart_lt {prefixHash : BitVec 64} {i j : Nat}
    (h : lowPart prefixHash j < lowPart prefixHash i) :
    score prefixHash j < score prefixHash i :=
  rotateLeft_lt_of_low_lt (by decide : 26 < 64) h

theorem lowPart_le_of_score_lt {prefixHash : BitVec 64} {i j : Nat}
    (h : score prefixHash j < score prefixHash i) :
    lowPart prefixHash j ≤ lowPart prefixHash i :=
  low_le_of_rotateLeft_lt (by decide : 26 < 64) h

theorem lowPart_eq (prefixHash : BitVec 64) (idx : Nat) :
    lowPart prefixHash idx = ((fxAdd 0#64 prefixHash).toNat + idx) * 181166844357 % 2 ^ 38 := by
  have hdvd : 2 ^ 38 ∣ 2 ^ 64 := by decide
  have hidx : (BitVec.ofNat 64 idx).toNat ≡ idx [MOD 2 ^ 38] := by
    rw [BitVec.toNat_ofNat]
    exact (Nat.mod_modEq idx _).of_dvd hdvd
  have hstate : (fxAdd 0#64 prefixHash + BitVec.ofNat 64 idx).toNat ≡
      (fxAdd 0#64 prefixHash).toNat + idx [MOD 2 ^ 38] := by
    rw [BitVec.toNat_add]
    exact ((Nat.mod_modEq _ _).of_dvd hdvd).trans (hidx.add_left _)
  have hconstant : 0xf1357aea2e62a9c5 ≡ 181166844357 [MOD 2 ^ 38] := by decide
  show ((fxAdd 0#64 prefixHash + BitVec.ofNat 64 idx) * 0xf1357aea2e62a9c5#64).toNat % 2 ^ 38 = _
  rw [BitVec.toNat_mul, Nat.mod_mod_of_dvd _ hdvd]
  exact hstate.mul hconstant

/-- The low parts of two candidates differ by a multiple of the constant, modulo the number of low
parts. -/
theorem lowPart_sub (prefixHash : BitVec 64) (i j : Nat) :
    ∃ n : Int, (lowPart prefixHash j : Int) - lowPart prefixHash i =
      ((j : Int) - i) * lowMultiplier - n * lowParts := by
  let state := (fxAdd 0#64 prefixHash).toNat
  have hlow (idx : Nat) : (lowPart prefixHash idx : Int) =
      (state + idx : Int) * lowMultiplier -
        ((state + idx) * 181166844357 / 2 ^ 38 : Nat) * lowParts := by
    have hdiv := Nat.div_add_mod ((state + idx) * 181166844357) (2 ^ 38)
    rw [← lowPart_eq prefixHash idx] at hdiv
    have hcast : ((2 ^ 38 : Nat) : Int) *
        ((state + idx) * 181166844357 / 2 ^ 38 : Nat) + lowPart prefixHash idx =
          (state + idx : Int) * 181166844357 := by
      exact_mod_cast hdiv
    rw [lowMultiplier, ← hcast, lowParts]
    push_cast
    ring
  refine ⟨((state + j) * 181166844357 / 2 ^ 38 : Nat) -
    ((state + i) * 181166844357 / 2 ^ 38 : Nat), ?_⟩
  rw [hlow, hlow]
  ring

/-! ## Where a candidate comes first -/

/-- No difference of fewer than `n` candidates comes nearer to a multiple of `2 ^ 38`. -/
def Apart (n : Nat) (gap : Nat) : Prop :=
  ∀ d m : Int, 0 < d → d < n → (gap : Int) ≤ |d * lowMultiplier - m * lowParts|

theorem Apart.symm {n gap : Nat} (h : Apart n gap) {d : Int} (hne : d ≠ 0) (hlt : |d| < n)
    (m : Int) : (gap : Int) ≤ |d * lowMultiplier - m * lowParts| := by
  cases lt_or_gt_of_ne hne with
  | inr hpos =>
      rw [abs_of_pos hpos] at hlt
      exact h d m hpos hlt
  | inl hneg =>
      rw [abs_of_neg hneg] at hlt
      have hopposite := h (-d) (-m) (neg_pos.mpr hneg) hlt
      rw [← abs_neg] at hopposite
      have heq : -(-d * lowMultiplier - -m * lowParts) = d * lowMultiplier - m * lowParts := by
        ring
      rw [heq] at hopposite
      exact hopposite

/-- A low part within the gap of the greatest wins. -/
theorem firstFor_of_great {n i gap : Nat} (hn : n ≤ 2 ^ 32) (hi : i < n) (hapart : Apart n gap)
    (hgap : 0 < gap) {prefixHash : BitVec 64}
    (hgreat : 2 ^ 38 - gap ≤ lowPart prefixHash i) : prefixHash ∈ firstFor n i := by
  refine (mem_firstFor hn prefixHash).mpr ⟨hi, fun j hj hne ↦ score_lt_of_lowPart_lt ?_⟩
  rcases lowPart_sub prefixHash i j with ⟨m, hsub⟩
  have hfar := hapart.symm (d := (j : Int) - i) (by omega) (by rw [abs_lt]; omega) m
  rw [← hsub] at hfar
  have hj := lowPart_lt prefixHash j
  cases le_abs.mp hfar with
  | inl habove => omega
  | inr hbelow => omega

/-- A candidate that comes first has a low part within reach of the other's difference. -/
theorem great_of_firstFor {n i j : Nat} (hn : n ≤ 2 ^ 32) (hj : j < n) (hne : j ≠ i) {gap : Nat}
    {m : Int} (hdiff : ((j : Int) - i) * lowMultiplier - m * lowParts = gap) (hgap : 0 < gap)
    (hle : gap ≤ 2 ^ 38) {prefixHash : BitVec 64} (hfirst : prefixHash ∈ firstFor n i) :
    2 ^ 38 - gap ≤ lowPart prefixHash i := by
  have hbelow := ((mem_firstFor hn prefixHash).mp hfirst).2 j hj hne
  have hle := lowPart_le_of_score_lt hbelow
  rcases lowPart_sub prefixHash i j with ⟨m', hsub⟩
  -- the difference is the gap, up to multiples of the number of low parts
  have hwrap : (lowPart prefixHash j : Int) - lowPart prefixHash i = gap + (m - m') * lowParts := by
    rw [hsub, ← hdiff]
    ring
  have hi := lowPart_lt prefixHash i
  have hneg : (m - m') < 0 := by
    by_contra hnonneg
    have hmul : 0 ≤ (m - m') * lowParts := mul_nonneg (not_lt.mp hnonneg) (by decide)
    omega
  have hmul : (m - m') * lowParts ≤ -1 * lowParts :=
    mul_le_mul_of_nonneg_right (by omega) (by decide)
  unfold lowParts at hmul hwrap
  omega

theorem fxAdd_comm (state word : BitVec 64) : fxAdd state word = fxAdd word state := by
  unfold fxAdd
  rw [BitVec.add_comm]

theorem hashWord_injective (idx : Nat) :
    Function.Injective fun prefixHash ↦ hashWord prefixHash idx := by
  intro x y h
  have hstates : fxAdd (BitVec.ofNat 64 idx) (fxAdd 0#64 x) =
      fxAdd (BitVec.ofNat 64 idx) (fxAdd 0#64 y) := by
    rw [fxAdd_comm, fxAdd_comm _ (fxAdd 0#64 y)]
    exact h
  exact fxAdd_injective 0#64 (fxAdd_injective _ hstates)

/-- How many prefixes give a candidate one of the greatest low parts. -/
theorem ncard_great (idx : Nat) {gap : Nat} (hgap : gap ≤ 2 ^ 38) :
    {prefixHash | 2 ^ 38 - gap ≤ lowPart prefixHash idx}.ncard = 2 ^ 26 * gap := by
  have hcount := ncard_greatLow (by decide : 38 ≤ 64) hgap
  rw [← ncard_preimage_of_injective (hashWord_injective idx)] at hcount
  exact hcount

/-! ## Shares -/

/-- The fractions that come nearest to the constant over `2 ^ 38`, one after the other. -/
def nearest : List (Int × Int) :=
  [(1, 2), (2, 3), (27, 41), (29, 44), (1506, 2285), (1535, 2329), (26066, 39549), (27601, 41878),
    (108869, 165183), (463077, 702610), (571946, 867793), (1606969, 2438196), (5392853, 8182381),
    (60928352, 92444387), (66321205, 100626768), (259891967, 394324691), (1105889073, 1677925532),
    (14636449916, 22207356607)]

/-- Neighbours, the first of which is far enough from the constant for any number of candidates
above its denominator. -/
def Sparse (a b : Int × Int) : Prop :=
  Neighbours lowMultiplier lowParts a b ∧
    lowParts ≤ 52 * (a.2 + 1) * |fractionError lowMultiplier lowParts a|

instance (a b : Int × Int) : Decidable (Sparse a b) := inferInstanceAs (Decidable (_ ∧ _))

theorem sparse_nearest : ((1, 1) :: nearest).IsChain Sparse := by decide +kernel

theorem exists_gap {n : Nat} (hn : 2 ≤ n) (hsmall : n ≤ 2 ^ 32) :
    ∃ gap : Nat, 0 < gap ∧ gap ≤ 2 ^ 38 ∧ 2 ^ 38 ≤ 52 * n * gap ∧ Apart n gap := by
  have hfirst : ((1, 1) : Int × Int).2 < (n : Int) := by
    show (1 : Int) < n
    omega
  have hlast : (n : Int) ≤ (((1, 1) :: nearest).getLast (List.cons_ne_nil _ _)).2 := by
    show (n : Int) ≤ 22207356607
    omega
  rcases exists_neighbours sparse_nearest hfirst hlast with ⟨a, b, hsparse, ha, hb⟩
  let gap := (fractionError lowMultiplier lowParts a).natAbs
  have hgap : (gap : Int) = |fractionError lowMultiplier lowParts a| := Int.natCast_natAbs _
  have hapart : Apart n gap := by
    intro d m hd hlt
    rw [hgap]
    exact hsparse.1.best hd (hlt.trans_le hb)
  have hle : (gap : Int) ≤ 2 ^ 38 := by
    have hone := hapart 1 0 (by decide) (by omega)
    exact hone.trans (by decide)
  have hshare : (2 ^ 38 : Int) ≤ 52 * n * gap := by
    rw [hgap]
    apply hsparse.2.trans
    apply mul_le_mul_of_nonneg_right _ (abs_nonneg _)
    omega
  have hpos : 0 < gap := by
    apply Nat.pos_of_ne_zero
    intro hzero
    rw [hzero] at hshare
    exact absurd hshare (by norm_num)
  exact ⟨gap, hpos, by exact_mod_cast hle, by exact_mod_cast hshare, hapart⟩

theorem share_ge {n i : Nat} (hn : n ≤ 2 ^ 32) (hi : i < n) :
    2 ^ 64 ≤ 52 * n * (firstFor n i).ncard := by
  by_cases hone : n = 1
  · subst hone
    -- a single candidate gets all
    have hall : {prefixHash | 2 ^ 38 - 2 ^ 38 ≤ lowPart prefixHash i} ⊆ firstFor 1 i := by
      intro prefixHash _
      refine (mem_firstFor hn prefixHash).mpr ⟨hi, fun j hj hne ↦ ?_⟩
      omega
    have hcard := Set.ncard_le_ncard hall
    rw [ncard_great i le_rfl] at hcard
    omega
  · rcases exists_gap (by omega) hn with ⟨gap, hpos, hle, hshare, hapart⟩
    have hgreat : {prefixHash | 2 ^ 38 - gap ≤ lowPart prefixHash i} ⊆ firstFor n i :=
      fun prefixHash h ↦ firstFor_of_great hn hi hapart hpos h
    have hcard := Set.ncard_le_ncard hgreat
    rw [ncard_great i hle] at hcard
    calc 2 ^ 64 = 2 ^ 26 * 2 ^ 38 := by norm_num
      _ ≤ 2 ^ 26 * (52 * n * gap) := Nat.mul_le_mul_left _ hshare
      _ = 52 * n * (2 ^ 26 * gap) := by ring
      _ ≤ 52 * n * (firstFor n i).ncard := Nat.mul_le_mul_left _ hcard

theorem share_le {n i j : Nat} (hn : n ≤ 2 ^ 32) (hj : j < n) (hne : j ≠ i) {gap : Nat} {m : Int}
    (hdiff : ((j : Int) - i) * lowMultiplier - m * lowParts = gap) (hgap : 0 < gap)
    (hle : gap ≤ 2 ^ 38) : (firstFor n i).ncard ≤ 2 ^ 26 * gap := by
  rw [← ncard_great i hle]
  exact Set.ncard_le_ncard fun prefixHash h ↦ great_of_firstFor hn hj hne hdiff hgap hle h

/-- Each of `n` candidates comes first for at least the 52nd part of an even share of the prefixes,
and no smaller number does in the place of 52. -/
theorem rendezvous_shares :
    (∀ n i : Nat, n ≤ 2 ^ 32 → i < n → 2 ^ 64 ≤ 52 * n * (firstFor n i).ncard) ∧
      51 * 45 * (firstFor 45 44).ncard < 2 ^ 64 := by
  refine ⟨fun n i hn hi ↦ share_ge hn hi, ?_⟩
  have hshare : (firstFor 45 44).ncard ≤ 2 ^ 26 * 118149668 :=
    share_le (j := 0) (m := -29) (by decide) (by decide) (by decide) (by decide) (by decide)
      (by decide)
  omega

/-- Of four candidates the last comes first for less than half of an even share. -/
theorem rendezvous_unbalanced : ¬ 2 ^ 64 ≤ 2 * 4 * (firstFor 4 3).ncard := by
  have hshare : (firstFor 4 3).ncard ≤ 2 ^ 26 * 6255280817 :=
    share_le (j := 0) (m := -2) (by decide) (by decide) (by decide) (by decide) (by decide)
      (by decide)
  omega

end TokenWeasel.Backends
