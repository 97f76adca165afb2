import Mathlib.Data.List.Rotate
import Mathlib.Data.Rat.Floor

/-!
# Placement of a request (`twl-backends/src/lib.rs`)

How the candidates of a model are put in order.  The overload factor is taken as an exact rational,
and so is the arithmetic on it; counters are `u32` with the wrapping arithmetic of a release build.
-/

namespace TokenWeasel.Backends

inductive LbStrategy where
  | roundRobin
  | leastLoaded
  deriving DecidableEq, Repr

/-- The in-flight counter of a backend. -/
def load (inflight : List Nat) (idx : Nat) : Nat := inflight[idx]?.getD 0

/-- `strategy_placement`, with the value of the model's rotation counter: the order, and the value
the counter is left with. -/
def strategyPlacement (strategy : LbStrategy) (inflight : List Nat) (rotation : Nat)
    (candidates : List Nat) : List Nat × Nat :=
  match strategy with
  | .roundRobin =>
    (candidates.rotateLeft (rotation % candidates.length), (rotation + 1) % 2 ^ 32)
  | .leastLoaded =>
    (candidates.mergeSort fun i j ↦ load inflight i ≤ load inflight j, rotation)

/-! ## Rendezvous hashing -/

/-- `FxHasher` adds a word to its state. -/
def fxAdd (state word : BitVec 64) : BitVec 64 := (state + word) * 0xf1357aea2e62a9c5#64

/-- The score of a candidate for a prompt prefix. -/
def score (prefixHash : BitVec 64) (idx : Nat) : BitVec 64 :=
  (fxAdd (fxAdd 0#64 prefixHash) (BitVec.ofNat 64 idx)).rotateLeft 26

/-- Rendezvous order: highest score first. -/
def scoredCandidates (prefixHash : BitVec 64) (candidates : List Nat) : List (BitVec 64 × Nat) :=
  (candidates.map fun idx ↦ (score prefixHash idx, idx)).mergeSort fun a b ↦ b.1 ≤ a.1

/-- `max(1, ceil(overload_factor * (total + 1) / n))`, in `u32`. -/
def loadBound (overloadFactor : Rat) (total n : Nat) : Nat :=
  max 1 (min (overloadFactor * (total + 1) / n).ceil.toNat (2 ^ 32 - 1))

/-- The first candidate under the bound, or the primary if all are over it. -/
def spillTarget (inflight : List Nat) (scored : List (BitVec 64 × Nat)) (bound primary : Nat) :
    Nat :=
  ((scored.find? fun candidate ↦ load inflight candidate.2 < bound).map Prod.snd).getD primary

/-- The prefix branch of `ordered_candidates`.  A routing entry has a candidate, so `scored[0]`
exists. -/
def prefixPlacement (overloadFactor : Rat) (inflight : List Nat) (prefixHash : BitVec 64)
    (candidates : List Nat) : List Nat :=
  match scoredCandidates prefixHash candidates with
  | [] => []
  | (top, primary) :: rest =>
    let scored := (top, primary) :: rest
    let total := (candidates.map (load inflight)).sum % 2 ^ 32
    let bound := loadBound overloadFactor total candidates.length
    let chosen :=
      if load inflight primary < bound then primary
      else spillTarget inflight scored bound primary
    chosen :: (scored.map Prod.snd).filter fun idx ↦ idx ≠ chosen

def orderedCandidates (strategy : LbStrategy) (overloadFactor : Rat) (inflight : List Nat)
    (rotation : Nat) (candidates : List Nat) (prefixHash : Option (BitVec 64)) :
    List Nat × Nat :=
  match prefixHash with
  | none => strategyPlacement strategy inflight rotation candidates
  | some h => (prefixPlacement overloadFactor inflight h candidates, rotation)

end TokenWeasel.Backends
