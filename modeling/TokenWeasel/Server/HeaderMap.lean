import TokenWeasel.Text

/-!
# Header maps (`http::HeaderMap`)

The field lines of a request or a response, and the `str` view of a value.
-/

namespace TokenWeasel.Server

/-- Field lines in the order they arrived, under their lower-case names. -/
abbrev HeaderMap := List (String × List UInt8)

def HeaderMap.getAll (headers : HeaderMap) (name : String) : List (List UInt8) :=
  (headers.filter fun line ↦ line.1 = name).map Prod.snd

/-- `HeaderMap::get`: the first line of the field. -/
def HeaderMap.get (headers : HeaderMap) (name : String) : Option (List UInt8) :=
  (headers.getAll name).head?

/-- `HeaderMap::insert`: the line replaces every line of its field. -/
def HeaderMap.insert (headers : HeaderMap) (name : String) (value : List UInt8) : HeaderMap :=
  (headers.filter fun line ↦ line.1 ≠ name) ++ [(name, value)]

def isVisibleAscii (b : UInt8) : Bool := (32 ≤ b && b < 127) || b == 9

/-- `HeaderValue::to_str`. -/
def toStr (value : List UInt8) : Option Text :=
  if value.all isVisibleAscii then some (value.map fun b ↦ Char.ofNat b.toNat) else none

def comma : UInt8 := 0x2C

theorem toStr_eq {value : List UInt8} (h : ∀ b ∈ value, isVisibleAscii b = true) :
    toStr value = some (value.map fun b ↦ Char.ofNat b.toNat) :=
  if_pos (List.all_eq_true.mpr h)

/-- A field line in ASCII. -/
def fieldLine (name value : String) : String × List UInt8 :=
  (name, value.toList.map fun c ↦ UInt8.ofNat c.toNat)

namespace HeaderMap

variable {headers : HeaderMap} {name : String}

theorem getAll_append (headers later : HeaderMap) (name : String) :
    getAll (headers ++ later) name = headers.getAll name ++ later.getAll name := by
  unfold getAll
  rw [List.filter_append, List.map_append]

/-- A filter that looks at names keeps a field as a whole or not at all. -/
theorem getAll_filter (headers : HeaderMap) (keep : String → Bool) (name : String) :
    getAll (headers.filter fun line ↦ keep line.1) name =
      if keep name then headers.getAll name else [] := by
  unfold getAll
  rw [List.filter_filter]
  cases hkeep : keep name with
  | true =>
      have hsame : ∀ line ∈ headers, (decide (line.1 = name) && keep line.1) =
          decide (line.1 = name) := by
        intro line _
        by_cases heq : line.1 = name <;> simp [heq, hkeep]
      rw [List.filter_congr hsame, if_pos rfl]
  | false =>
      have hnone : ∀ line ∈ headers, ¬ (decide (line.1 = name) && keep line.1) = true := by
        intro line _
        by_cases heq : line.1 = name <;> simp [heq, hkeep]
      rw [List.filter_eq_nil_iff.mpr hnone]
      rfl

theorem getAll_cons (line : String × List UInt8) (headers : HeaderMap) (name : String) :
    getAll (line :: headers) name =
      if line.1 = name then line.2 :: headers.getAll name else headers.getAll name := by
  unfold getAll
  by_cases heq : line.1 = name
  · rw [if_pos heq, List.filter_cons_of_pos (by rw [heq]; exact decide_eq_true rfl)]
    rfl
  · rw [if_neg heq, List.filter_cons_of_neg (by rw [decide_eq_true_eq]; exact heq)]

theorem getAll_eq_nil (h : ∀ line ∈ headers, line.1 ≠ name) : headers.getAll name = [] := by
  unfold getAll
  rw [List.filter_eq_nil_iff.mpr (fun line hline ↦ by rw [decide_eq_true_eq]; exact h line hline)]
  rfl

/-- Where no name comes twice, a line is its whole field. -/
theorem getAll_of_mem {line : String × List UInt8} (hnames : (headers.map Prod.fst).Nodup)
    (hline : line ∈ headers) : headers.getAll line.1 = [line.2] := by
  induction headers with
  | nil => exact absurd hline List.not_mem_nil
  | cons head rest ih =>
      have hhead : head.1 ∉ rest.map Prod.fst := (List.nodup_cons.mp hnames).1
      rw [getAll_cons]
      cases List.mem_cons.mp hline with
      | inl heq =>
          have hrest : ∀ other ∈ rest, other.1 ≠ line.1 := by
            intro other hother hsame
            rw [heq] at hsame
            exact hhead (List.mem_map.mpr ⟨other, hother, hsame⟩)
          rw [if_pos (by rw [heq]), getAll_eq_nil hrest, heq]
      | inr hmem =>
          have hne : head.1 ≠ line.1 := by
            intro hsame
            exact hhead (List.mem_map.mpr ⟨line, hmem, hsame.symm⟩)
          rw [if_neg hne]
          exact ih (List.nodup_cons.mp hnames).2 hmem

/-- An insert leaves one line of its field, and the other fields as they are. -/
theorem getAll_insert (headers : HeaderMap) (added name : String) (value : List UInt8) :
    (headers.insert added value).getAll name =
      if added = name then [value] else headers.getAll name := by
  have hkept := getAll_filter headers (fun name ↦ decide (name ≠ added)) name
  rw [insert, getAll_append, hkept, getAll_cons]
  by_cases heq : added = name
  · rw [if_pos heq, if_neg (by simp [heq]), if_pos heq]
    rfl
  · rw [if_neg heq, if_pos (by simpa using Ne.symm heq), if_neg heq]
    exact List.append_nil _

/-- The other fields stay as they are. -/
theorem mem_insert {line : String × List UInt8} {value : List UInt8} :
    line ∈ headers.insert name value ↔
      (line ∈ headers ∧ line.1 ≠ name) ∨ line = (name, value) := by
  unfold insert
  simp

end HeaderMap

end TokenWeasel.Server
