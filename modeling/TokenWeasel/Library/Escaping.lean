import Mathlib.Algebra.Group.Nat.Even
import Mathlib.Algebra.Ring.Parity
import Mathlib.Data.List.TakeWhile

/-!
# Escaped text

Some elements are written as a mark and a letter.  What is escaped can stand between quotes, and
reads back as it was.
-/

namespace TokenWeasel.Library

/-- The letter behind the mark for each element that is escaped, and what a letter means. -/
structure Escaping (α : Type*) where
  mark : α
  letter : α → Option α
  meaning : α → Option α
  letter_mark : (letter mark).isSome = true
  meaning_letter : ∀ c d, letter c = some d → meaning d = some c

namespace Escaping

section Writing

variable {α : Type*} (e : Escaping α)

def escapeOne (c : α) : List α :=
  match e.letter c with
  | some d => [e.mark, d]
  | none => [c]

def escape (text : List α) : List α := text.flatMap e.escapeOne

theorem escape_cons (c : α) (text : List α) :
    e.escape (c :: text) = e.escapeOne c ++ e.escape text :=
  List.flatMap_cons

theorem escapeOne_cases (c : α) :
    (∃ d, e.letter c = some d ∧ e.escapeOne c = [e.mark, d]) ∨
      (e.letter c = none ∧ c ≠ e.mark ∧ e.escapeOne c = [c]) := by
  unfold escapeOne
  cases hletter : e.letter c with
  | some d => exact Or.inl ⟨d, rfl, rfl⟩
  | none =>
      refine Or.inr ⟨rfl, fun heq ↦ ?_, rfl⟩
      have hmark := e.letter_mark
      rw [← heq, hletter] at hmark
      exact absurd hmark Bool.false_ne_true

end Writing

/-! ## Reading back -/

section Reading

variable {α : Type*} [DecidableEq α] (e : Escaping α)

/-- A mark without a letter, or with one that means nothing, is a failure. -/
def unescape : List α → Option (List α)
  | [] => some []
  | [c] => if c = e.mark then none else some [c]
  | c :: d :: rest =>
    if c = e.mark then (e.meaning d).bind fun x ↦ (unescape rest).map (x :: ·)
    else (unescape (d :: rest)).map (c :: ·)

/-- Reads up to the first quote that is not a letter, and gives what was read and the rest. -/
def readQuoted (quote : α) : List α → Option (List α × List α)
  | [] => none
  | [c] => if c = quote then some ([], []) else none
  | c :: d :: rest =>
    if c = quote then some ([], d :: rest)
    else if c = e.mark then
      (e.meaning d).bind fun x ↦ (readQuoted quote rest).map fun (text, rest) ↦ (x :: text, rest)
    else (readQuoted quote (d :: rest)).map fun (text, rest) ↦ (c :: text, rest)

theorem unescape_plain {c : α} (hc : c ≠ e.mark) (text : List α) :
    e.unescape (c :: text) = (e.unescape text).map (c :: ·) := by
  cases text with
  | nil => exact if_neg hc
  | cons d rest => rw [unescape, if_neg hc]

theorem unescape_escape (text : List α) : e.unescape (e.escape text) = some text := by
  induction text with
  | nil => rfl
  | cons c text ih =>
      rw [escape_cons]
      rcases e.escapeOne_cases c with ⟨d, hletter, hone⟩ | ⟨-, hplain, hone⟩
      · rw [hone]
        show e.unescape (e.mark :: d :: e.escape text) = _
        rw [unescape, if_pos rfl, e.meaning_letter c d hletter, Option.bind_some, ih]
        rfl
      · rw [hone]
        show e.unescape (c :: e.escape text) = _
        rw [unescape_plain e hplain, ih]
        rfl

theorem readQuoted_plain {quote c : α} (hquote : c ≠ quote) (hc : c ≠ e.mark) (text : List α) :
    e.readQuoted quote (c :: text) =
      (e.readQuoted quote text).map fun (text, rest) ↦ (c :: text, rest) := by
  cases text with
  | nil => exact if_neg hquote
  | cons d rest => rw [readQuoted, if_neg hquote, if_neg hc]

/-- The quote behind escaped text ends it, where quotes are escaped. -/
theorem readQuoted_escape {quote : α} (hquote : (e.letter quote).isSome = true)
    (hmark : quote ≠ e.mark) (text rest : List α) :
    e.readQuoted quote (e.escape text ++ quote :: rest) = some (text, rest) := by
  induction text with
  | nil =>
      show e.readQuoted quote (quote :: rest) = _
      cases rest <;> rw [readQuoted, if_pos rfl]
  | cons c text ih =>
      rw [escape_cons]
      rcases e.escapeOne_cases c with ⟨d, hletter, hone⟩ | ⟨hletter, hplain, hone⟩
      · rw [hone]
        show e.readQuoted quote (e.mark :: d :: (e.escape text ++ quote :: rest)) = _
        rw [readQuoted, if_neg hmark.symm, if_pos rfl, e.meaning_letter c d hletter,
          Option.bind_some, ih]
        rfl
      · have hne : c ≠ quote := by
          intro heq
          rw [← heq, hletter] at hquote
          exact absurd hquote Bool.false_ne_true
        rw [hone]
        show e.readQuoted quote (c :: (e.escape text ++ quote :: rest)) = _
        rw [readQuoted_plain e hne hplain, ih]
        rfl

end Reading

/-! ## What escaped text holds -/

section Content

variable {α : Type*} (e : Escaping α)

/-- An element that is escaped and is no letter itself is gone. -/
theorem not_mem_escape {c : α} (hletter : (e.letter c).isSome = true) (hmark : c ≠ e.mark)
    (hnone : ∀ b, e.letter b ≠ some c) (text : List α) : c ∉ e.escape text := by
  intro hmem
  rcases List.mem_flatMap.mp hmem with ⟨b, -, hb⟩
  rcases e.escapeOne_cases b with ⟨d, hd, hone⟩ | ⟨hd, -, hone⟩
  · rw [hone, List.mem_cons, List.mem_singleton] at hb
    cases hb with
    | inl heq => exact hmark heq
    | inr heq => exact hnone b (heq ▸ hd)
  · rw [hone, List.mem_singleton] at hb
    rw [hb, hd] at hletter
    exact absurd hletter Bool.false_ne_true

variable [DecidableEq α]

/-- How many marks stand at the end. -/
def trailing (text : List α) : Nat := (text.reverse.takeWhile (· = e.mark)).length

theorem trailing_append (xs ys : List α) :
    e.trailing (xs ++ ys) = e.trailing ys + e.trailing xs ∨
      e.trailing (xs ++ ys) = e.trailing ys := by
  unfold trailing
  rw [List.reverse_append, List.takeWhile_append]
  split
  · rename_i hall
    rw [List.length_append, hall]
    exact Or.inl rfl
  · exact Or.inr rfl

theorem odd_trailing_append {xs ys : List α} (hxs : Even (e.trailing xs))
    (hys : Odd (e.trailing ys)) : Odd (e.trailing (xs ++ ys)) := by
  cases e.trailing_append xs ys with
  | inl hsum => rw [hsum]; exact hys.add_even hxs
  | inr hsame => rw [hsame]; exact hys

/-- Marks come in pairs but for those before a letter. -/
theorem even_trailing_escapeOne (c : α) : Even (e.trailing (e.escapeOne c)) := by
  rcases e.escapeOne_cases c with ⟨d, -, hone⟩ | ⟨-, hplain, hone⟩
  · rw [hone]
    by_cases hd : d = e.mark
    · have htwo : e.trailing [e.mark, d] = 2 := by simp [trailing, hd]
      rw [htwo]
      exact even_two
    · simp [trailing, hd]
  · simp [hone, trailing, hplain]

/-- Before an escaped quote there is an odd number of marks. -/
theorem odd_trailing_escape {quote : α} (hquote : (e.letter quote).isSome = true)
    (hmark : quote ≠ e.mark) {text before after : List α}
    (h : e.escape text = before ++ quote :: after) : Odd (e.trailing before) := by
  induction text generalizing before with
  | nil => exact absurd h (by simp [escape])
  | cons c text ih =>
      rw [escape_cons] at h
      have heven := e.even_trailing_escapeOne c
      rcases List.append_eq_append_iff.mp h with ⟨later, hbefore, hlater⟩ | ⟨later, hone, hlater⟩
      · rw [hbefore]
        exact odd_trailing_append e heven (ih hlater)
      · -- the quote is the first element of what is left of the block
        cases later with
        | nil =>
            rw [List.append_nil] at hone
            rw [hone] at heven
            have hnext : Odd (e.trailing []) := ih hlater.symm
            exact absurd hnext (by simp [trailing])
        | cons first later =>
            have hfirst : first = quote := (List.cons.inj hlater).1.symm
            rw [hfirst] at hone
            rcases e.escapeOne_cases c with ⟨d, -, hpair⟩ | ⟨hletter, -, hsingle⟩
            · rw [hpair] at hone
              cases before with
              | nil => exact absurd (List.cons.inj hone).1.symm hmark
              | cons b before =>
                  have hb := (List.cons.inj hone).1
                  cases before with
                  | nil => simp [trailing, ← hb]
                  | cons b' before => simp at hone
            · rw [hsingle] at hone
              cases before with
              | nil =>
                  have hc := (List.cons.inj hone).1
                  rw [← hc, hletter] at hquote
                  exact absurd hquote Bool.false_ne_true
              | cons b before => simp at hone

end Content

end Escaping

end TokenWeasel.Library
