import Mathlib.Data.List.Basic

/-!
# Numerals

Reading a number digit by digit, in a radix of at most sixteen and with a bound on how many digits
there may be, and that this reads what `Nat.toDigits` writes.
-/

namespace TokenWeasel.Library

/-- The value of a hexadecimal digit. -/
def hexValue (c : Char) : Option Nat :=
  let n := c.toNat
  if 48 ≤ n ∧ n ≤ 57 then some (n - 48)
  else if 97 ≤ n ∧ n ≤ 102 then some (n - 87)
  else if 65 ≤ n ∧ n ≤ 70 then some (n - 55)
  else none

def digitValue (radix : Nat) (c : Char) : Option Nat := (hexValue c).filter (· < radix)

/-- Read digits as long as there are any; more than `maxDigits` of them are a failure.  The result
has the number, how many digits it has, and what follows them. -/
def readDigits (radix maxDigits : Nat) : Nat → Nat → List Char → Option (Nat × Nat × List Char)
  | result, count, [] => some (result, count, [])
  | result, count, c :: rest =>
    match digitValue radix c with
    | some digit =>
      if count + 1 > maxDigits then none
      else readDigits radix maxDigits (result * radix + digit) (count + 1) rest
    | none => some (result, count, c :: rest)

def isDigit (radix : Nat) (c : Char) : Bool := (digitValue radix c).isSome

/-- What `digits` add to a number that is read so far. -/
def numeralValue (radix start : Nat) (digits : List Char) : Nat :=
  digits.foldl (fun n c ↦ n * radix + (digitValue radix c).getD 0) start

theorem digitValue_digitChar {radix d : Nat} (hradix : radix ≤ 16) (hd : d < radix) :
    digitValue radix (Nat.digitChar d) = some d := by
  have hhex : ∀ d < 16, hexValue (Nat.digitChar d) = some d := by decide
  rw [digitValue, hhex d (by omega), Option.filter_some, if_pos (by simpa using hd)]

section ToDigits

variable {radix : Nat} (hlow : 1 < radix) (hhigh : radix ≤ 16)
include hlow hhigh

theorem isDigit_of_mem_toDigits (n : Nat) : ∀ c ∈ Nat.toDigits radix n, isDigit radix c = true := by
  have hlast : ∀ d < radix, isDigit radix (Nat.digitChar d) = true := by
    intro d hd
    rw [isDigit, digitValue_digitChar hhigh hd]
    rfl
  induction n using Nat.strongRecOn with
  | ind n ih =>
      rw [Nat.toDigits_eq_if hlow]
      split
      · intro c hc
        rw [List.mem_singleton.mp hc]
        exact hlast n (by assumption)
      · intro c hc
        cases List.mem_append.mp hc with
        | inl hfront => exact ih (n / radix) (Nat.div_lt_self (by omega) hlow) c hfront
        | inr heq =>
            rw [List.mem_singleton.mp heq]
            exact hlast _ (Nat.mod_lt n (by omega))

theorem numeralValue_toDigits (n : Nat) : numeralValue radix 0 (Nat.toDigits radix n) = n := by
  induction n using Nat.strongRecOn with
  | ind n ih =>
      rw [Nat.toDigits_eq_if hlow]
      split
      · rename_i hn
        show 0 * radix + (digitValue radix (Nat.digitChar n)).getD 0 = n
        rw [digitValue_digitChar hhigh hn, Nat.zero_mul, Nat.zero_add]
        rfl
      · have hdiv := ih (n / radix) (Nat.div_lt_self (by omega) hlow)
        have hmod : n % radix < radix := Nat.mod_lt n (by omega)
        rw [numeralValue, List.foldl_concat]
        show numeralValue radix 0 _ * radix +
          (digitValue radix (Nat.digitChar (n % radix))).getD 0 = n
        rw [hdiv, digitValue_digitChar hhigh hmod, Nat.mul_comm]
        exact Nat.div_add_mod n radix

/-- No leading zeros. -/
theorem head?_toDigits {n : Nat} (hn : n ≠ 0) : (Nat.toDigits radix n).head? ≠ some '0' := by
  have hzero : ∀ d < 16, Nat.digitChar d = '0' → d = 0 := by decide
  induction n using Nat.strongRecOn with
  | ind n ih =>
      rw [Nat.toDigits_eq_if hlow]
      split
      · intro heq
        exact hn (hzero n (by omega) (Option.some.inj heq))
      · rename_i hle
        have hdiv : n / radix ≠ 0 := by
          rw [Ne, Nat.div_eq_zero_iff]
          omega
        rw [List.head?_append_of_ne_nil _ Nat.toDigits_ne_nil]
        exact ih (n / radix) (Nat.div_lt_self (by omega) hlow) hdiv

end ToDigits

/-- Digits are read up to the first character that is none. -/
theorem readDigits_append {radix maxDigits : Nat} {digits rest : List Char}
    (hdigits : ∀ c ∈ digits, isDigit radix c = true)
    (hrest : ∀ c ∈ rest.head?, isDigit radix c = false) (result : Nat) {count : Nat}
    (hcount : count + digits.length ≤ maxDigits) :
    readDigits radix maxDigits result count (digits ++ rest) =
      some (numeralValue radix result digits, count + digits.length, rest) := by
  induction digits generalizing result count with
  | nil =>
      cases rest with
      | nil => rfl
      | cons c rest =>
          have hc : digitValue radix c = none := by simpa [isDigit] using hrest c rfl
          simp only [List.nil_append, readDigits, hc]
          rfl
  | cons c digits ih =>
      have hc := hdigits c List.mem_cons_self
      rcases Option.isSome_iff_exists.mp hc with ⟨digit, hdigit⟩
      rw [List.length_cons] at hcount
      have hbound : ¬ count + 1 > maxDigits := by omega
      rw [List.cons_append, readDigits]
      simp only [hdigit, if_neg hbound]
      rw [ih (fun d hd ↦ hdigits d (List.mem_cons_of_mem c hd)) _ (by omega), List.length_cons,
        numeralValue, numeralValue, List.foldl_cons, hdigit, Nat.add_assoc, Nat.add_comm 1]
      rfl

theorem readDigits_rest {radix maxDigits result count : Nat} {text : List Char}
    {read : Nat × Nat × List Char} (h : readDigits radix maxDigits result count text = some read) :
    read.2.2 = text.dropWhile (isDigit radix) := by
  induction text generalizing result count with
  | nil =>
      rw [readDigits] at h
      rw [← Option.some.inj h]
      rfl
  | cons c text ih =>
      rw [readDigits] at h
      split at h
      · rename_i digit hdigit
        split at h
        · exact absurd h (by simp)
        · rw [List.dropWhile_cons_of_pos (by rw [isDigit, hdigit]; rfl)]
          exact ih h
      · rename_i hnone
        rw [← Option.some.inj h, List.dropWhile_cons_of_neg (by rw [isDigit, hnone]; simp)]

/-! ## Decimal integers -/

theorem natToString_toList (n : Nat) : (toString n).toList = Nat.toDigits 10 n := by
  show (Nat.repr n).toList = _
  rw [Nat.repr, String.toList_ofList]

theorem toDigits_injective {m n : Nat} (h : Nat.toDigits 10 m = Nat.toDigits 10 n) : m = n := by
  rw [← numeralValue_toDigits (by decide : 1 < 10) (by decide) m, h,
    numeralValue_toDigits (by decide) (by decide)]

theorem minus_not_mem_toDigits (n : Nat) : '-' ∉ Nat.toDigits 10 n := by
  intro hmem
  have hdigit := isDigit_of_mem_toDigits (by decide : 1 < 10) (by decide) n '-' hmem
  exact absurd hdigit (by decide)

theorem intToString_injective {a b : Int} (h : toString a = toString b) : a = b := by
  have hlist := congrArg String.toList h
  cases a with
  | ofNat m =>
      cases b with
      | ofNat n =>
          rw [show toString (Int.ofNat m) = toString m from rfl,
            show toString (Int.ofNat n) = toString n from rfl, natToString_toList,
            natToString_toList] at hlist
          rw [toDigits_injective hlist]
      | negSucc n =>
          rw [show toString (Int.ofNat m) = toString m from rfl,
            show toString (Int.negSucc n) = "-" ++ toString (n + 1) from rfl, natToString_toList,
            String.toList_append] at hlist
          exact absurd (hlist ▸ List.mem_cons_self) (minus_not_mem_toDigits m)
  | negSucc m =>
      cases b with
      | ofNat n =>
          rw [show toString (Int.ofNat n) = toString n from rfl,
            show toString (Int.negSucc m) = "-" ++ toString (m + 1) from rfl, natToString_toList,
            String.toList_append] at hlist
          exact absurd (hlist ▸ List.mem_cons_self) (minus_not_mem_toDigits n)
      | negSucc n =>
          rw [show toString (Int.negSucc m) = "-" ++ toString (m + 1) from rfl,
            show toString (Int.negSucc n) = "-" ++ toString (n + 1) from rfl,
            String.toList_append, String.toList_append, natToString_toList,
            natToString_toList] at hlist
          have hsame := toDigits_injective (List.append_cancel_left hlist)
          rw [Nat.succ.inj hsame]

end TokenWeasel.Library
