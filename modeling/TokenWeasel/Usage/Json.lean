import Mathlib.Algebra.Group.Int.Defs
import TokenWeasel.Text

/-!
# JSON values

`serde_json::Value` as the program reads it.  The parser is outside the repository and a parameter
of what uses it.  A map is the list of its entries in the order of its keys, which is the order
`values()` has.
-/

namespace TokenWeasel

/-- A number is an integer of any size the parser keeps exact, or a float. -/
inductive Number where
  | int (n : Int)
  | float (bits : UInt64)
  deriving DecidableEq, Repr

inductive Value where
  | null
  | bool (b : Bool)
  | number (n : Number)
  | string (s : String)
  | array (items : List Value)
  | object (entries : List (String × Value))

def i64Min : Int := -2 ^ 63
def i64Max : Int := 2 ^ 63 - 1

/-- `i64::saturating_add`. -/
def saturatingAdd (a b : Int) : Int := max i64Min (min i64Max (a + b))

namespace Value

/-- `Value::get` with a string key. -/
def get : Value → String → Option Value
  | .object entries, key => entries.lookup key
  | _, _ => none

def isNull : Value → Bool
  | .null => true
  | _ => false

def asStr : Value → Option String
  | .string s => some s
  | _ => none

def asBool : Value → Option Bool
  | .bool b => some b
  | _ => none

/-- An integer outside `i64` is none. -/
def asI64 : Value → Option Int
  | .number (.int n) => if i64Min ≤ n ∧ n ≤ i64Max then some n else none
  | _ => none

def asArray : Value → Option (List Value)
  | .array items => some items
  | _ => none

def asObject : Value → Option (List (String × Value))
  | .object entries => some entries
  | _ => none

/-! ## What is read -/

theorem get_object (obj : List (String × Value)) (key : String) :
    (object obj).get key = obj.lookup key := rfl

theorem asBool_eq_some {v : Value} {b : Bool} : v.asBool = some b ↔ v = .bool b := by
  cases v <;> simp [asBool]

theorem asArray_eq_some {v : Value} {items : List Value} :
    v.asArray = some items ↔ v = .array items := by
  cases v <;> simp [asArray]

theorem asObject_eq_some {v : Value} {entries : List (String × Value)} :
    v.asObject = some entries ↔ v = .object entries := by
  cases v <;> simp [asObject]

/-- Only an object has a member. -/
theorem exists_object_of_get {v value : Value} {key : String} (h : v.get key = some value) :
    ∃ obj, v = .object obj := by
  cases v with
  | object obj => exact ⟨obj, rfl⟩
  | null => cases h
  | bool b => cases h
  | number n => cases h
  | string s => cases h
  | array items => cases h

end Value

end TokenWeasel
