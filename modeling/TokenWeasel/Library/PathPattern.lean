import Mathlib.Data.List.Basic

/-!
# Path patterns

A path is a list of segments, and a pattern says of each that it is a given one or any, or that
whatever is left may follow.  Patterns that do not overlap never match one path.
-/

namespace TokenWeasel.Library

/-- A part of a pattern. -/
inductive Segment where
  | lit (text : List Char)
  /-- Any one segment that is not empty. -/
  | param
  /-- The rest of the path, unless that is empty. -/
  | rest
  deriving DecidableEq, Repr

/-- A path matches a pattern. -/
def pathMatches : List Segment → List (List Char) → Bool
  | [], [] => true
  | .lit text :: pattern, segment :: path => segment == text && pathMatches pattern path
  | .param :: pattern, segment :: path => segment ≠ [] && pathMatches pattern path
  | .rest :: _, path => path ≠ [] && path ≠ [[]]
  | [], _ :: _ => false
  | .lit _ :: _, [] => false
  | .param :: _, [] => false

/-- Patterns that one path may match. -/
def overlaps : List Segment → List Segment → Bool
  | [], [] => true
  | .rest :: _, other => other ≠ []
  | pattern, .rest :: _ => pattern ≠ []
  | .lit text :: pattern, .lit text' :: other => text == text' && overlaps pattern other
  | _ :: pattern, _ :: other => overlaps pattern other
  | [], _ :: _ => false
  | _ :: _, [] => false

/-- Only the empty pattern has the empty path. -/
theorem eq_nil_of_pathMatches_nil {pattern : List Segment} (h : pathMatches pattern [] = true) :
    pattern = [] := by
  cases pattern with
  | nil => rfl
  | cons segment pattern =>
      cases segment with
      | lit text => cases h
      | param => cases h
      | rest => cases h

theorem overlaps_of_matches {pattern other : List Segment} {path : List (List Char)}
    (h : pathMatches pattern path = true) (hother : pathMatches other path = true) :
    overlaps pattern other = true := by
  induction path generalizing pattern other with
  | nil =>
      rw [eq_nil_of_pathMatches_nil h, eq_nil_of_pathMatches_nil hother]
      rfl
  | cons first path ih =>
      cases pattern with
      | nil => cases h
      | cons segment pattern =>
          cases other with
          | nil => cases hother
          | cons segment' other =>
              cases segment with
              | rest => rfl
              | lit text =>
                  have hmatch := Bool.and_eq_true_iff.mp h
                  cases segment' with
                  | rest => rfl
                  | lit text' =>
                      have hmatch' := Bool.and_eq_true_iff.mp hother
                      -- both are the first segment of the path
                      have htext : text = text' :=
                        (eq_of_beq hmatch.1).symm.trans (eq_of_beq hmatch'.1)
                      show (text == text' && overlaps pattern other) = true
                      rw [htext, beq_self_eq_true, Bool.true_and]
                      exact ih hmatch.2 hmatch'.2
                  | param =>
                      show overlaps pattern other = true
                      exact ih hmatch.2 (Bool.and_eq_true_iff.mp hother).2
              | param =>
                  have hmatch := Bool.and_eq_true_iff.mp h
                  cases segment' with
                  | rest => rfl
                  | lit text' =>
                      show overlaps pattern other = true
                      exact ih hmatch.2 (Bool.and_eq_true_iff.mp hother).2
                  | param =>
                      show overlaps pattern other = true
                      exact ih hmatch.2 (Bool.and_eq_true_iff.mp hother).2

end TokenWeasel.Library
