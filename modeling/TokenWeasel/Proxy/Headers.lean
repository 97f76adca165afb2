import TokenWeasel.Library.Separated
import TokenWeasel.Server.HeaderMap

/-!
# Header filtering of the proxy (`twl-server/src/proxy/headers.rs`)

Hop-by-hop headers are dropped in both directions: those of a static list, and those that a
`Connection` line nominates.
-/

namespace TokenWeasel.Proxy

open Library Server

/-! ## The filter -/

def skipRequestHeaders : List String :=
  ["host", "content-length", "connection", "keep-alive", "proxy-authenticate",
    "proxy-authorization", "te", "trailer", "transfer-encoding", "upgrade", "cookie",
    "accept-encoding"]

def skipResponseHeaders : List String :=
  ["connection", "keep-alive", "proxy-authenticate", "proxy-authorization", "te", "trailer",
    "transfer-encoding", "upgrade", "set-cookie", "content-length"]

/-- The static list of a direction. -/
def skipList (req : Bool) : List String := if req then skipRequestHeaders else skipResponseHeaders

/-- The lower-case names in the `Connection` lines. -/
def connectionHeaderNames (headers : HeaderMap) : List Text :=
  (headers.getAll "connection").flatMap fun value ↦
    match toStr value with
    -- `to_str` failed: the line nominates nothing
    | none => []
    | some s => (((s.splitOn ',').map Text.trim).filter (· ≠ [])).map Text.toAsciiLowercase

def skipHeaders (req : Bool) (headers : HeaderMap) (extraSkip : List String) : HeaderMap :=
  -- the names are lower-case on both sides
  let dynamic := connectionHeaderNames headers
  headers.filter fun line ↦
    ¬ (line.1 ∈ skipList req ∨ Text.toAsciiLowercase line.1.toList ∈ dynamic ∨
      line.1 ∈ extraSkip)

/-- The values of a field that go through: none if a readable `Connection` line names it. -/
def passed (headers : HeaderMap) (name : String) : List (List UInt8) :=
  if Text.toAsciiLowercase name.toList ∈ connectionHeaderNames headers then []
  else headers.getAll name

/-! ## Tokens of a value -/

/-- Optional white space of a field value. -/
def isOws (b : UInt8) : Bool := b == 32 || b == 9

/-- The bytes without white space at the ends. -/
def trimOws (bytes : List UInt8) : List UInt8 :=
  ((bytes.dropWhile isOws).reverse.dropWhile isOws).reverse

/-- Bytes as characters. -/
def chars (bytes : List UInt8) : Text := bytes.map fun b ↦ Char.ofNat b.toNat

/-- The comma-separated tokens of a value. -/
def tokens (value : List UInt8) : List (List UInt8) :=
  ((value.splitOn comma).map trimOws).filter (· ≠ [])

/-- A token of the value is the name, in any case. -/
def Nominates (value : List UInt8) (name : String) : Prop :=
  ∃ token ∈ tokens value, Text.eqIgnoreAsciiCase (chars token) name.toList

/-- A `Connection` line nominates the name. -/
def Nominated (headers : HeaderMap) (name : String) : Prop :=
  ∃ value ∈ headers.getAll "connection", Nominates value name

instance (value : List UInt8) (name : String) : Decidable (Nominates value name) :=
  inferInstanceAs (Decidable (∃ token ∈ tokens value, _))

instance (headers : HeaderMap) (name : String) : Decidable (Nominated headers name) :=
  inferInstanceAs (Decidable (∃ value ∈ headers.getAll "connection", _))

/-- A visible byte is white space if its character is. -/
theorem isWhitespace_visible {b : UInt8} (h : isVisibleAscii b = true) :
    Text.isWhitespace (Char.ofNat b.toNat) = isOws b := by
  have hall : ∀ n < 256, isVisibleAscii (UInt8.ofNat n) = true →
      Text.isWhitespace (Char.ofNat n) = isOws (UInt8.ofNat n) := by decide +kernel
  have hb : UInt8.ofNat b.toNat = b := UInt8.ofNat_toNat
  have hcase := hall b.toNat b.toNat_lt
  rw [hb] at hcase
  exact hcase h

theorem dropWhile_chars {bytes : List UInt8} (h : ∀ b ∈ bytes, isVisibleAscii b = true) :
    (chars bytes).dropWhile Text.isWhitespace = chars (bytes.dropWhile isOws) := by
  induction bytes with
  | nil => rfl
  | cons b bytes ih =>
      have hb := isWhitespace_visible (h b List.mem_cons_self)
      have htail := ih fun c hc ↦ h c (List.mem_cons_of_mem b hc)
      show (Char.ofNat b.toNat :: chars bytes).dropWhile Text.isWhitespace = _
      cases hows : isOws b with
      | true =>
          rw [List.dropWhile_cons_of_pos (by rw [hb, hows]), htail,
            List.dropWhile_cons_of_pos hows]
      | false =>
          rw [List.dropWhile_cons_of_neg (by rw [hb, hows]; decide),
            List.dropWhile_cons_of_neg (by rw [hows]; decide)]
          rfl

/-- Trimming the characters is trimming the bytes. -/
theorem trim_chars {bytes : List UInt8} (h : ∀ b ∈ bytes, isVisibleAscii b = true) :
    Text.trim (chars bytes) = chars (trimOws bytes) := by
  have hreverse : ∀ bs, (chars bs).reverse = chars bs.reverse := fun bs ↦ List.map_reverse.symm
  have hfront : ∀ b ∈ (bytes.dropWhile isOws).reverse, isVisibleAscii b = true := by
    intro b hb
    exact h b ((List.dropWhile_sublist isOws).subset (List.mem_reverse.mp hb))
  rw [Text.trim, dropWhile_chars h, hreverse, dropWhile_chars hfront, hreverse]
  rfl

/-- A character that is a given ASCII one comes from its byte. -/
theorem splitOn_chars (bytes : List UInt8) (sep : UInt8)
    (hsep : ∀ n < 256, Char.ofNat n = Char.ofNat sep.toNat → n = sep.toNat) :
    (chars bytes).splitOn (Char.ofNat sep.toNat) = (bytes.splitOn sep).map chars := by
  apply splitOn_map (fun b : UInt8 ↦ Char.ofNat b.toNat) sep
  intro b _ heq
  exact UInt8.toNat_inj.mp (hsep b.toNat b.toNat_lt heq)

theorem chars_eq_nil {bytes : List UInt8} : chars bytes = [] ↔ bytes = [] := List.map_eq_nil_iff

/-- The names in a readable value are its tokens in lower case. -/
theorem names_of_readable {value : List UInt8} (h : ∀ b ∈ value, isVisibleAscii b = true) :
    ((((chars value).splitOn ',').map Text.trim).filter (· ≠ [])).map Text.toAsciiLowercase =
      (tokens value).map fun token ↦ Text.toAsciiLowercase (chars token) := by
  have hsplit : (chars value).splitOn ',' = (value.splitOn comma).map chars :=
    splitOn_chars value comma (by decide +kernel)
  have htrim : ((value.splitOn comma).map chars).map Text.trim =
      ((value.splitOn comma).map trimOws).map chars := by
    rw [List.map_map, List.map_map]
    apply List.map_congr_left
    intro element helement
    exact trim_chars fun b hb ↦ h b (mem_of_mem_splitOn helement hb)
  have hfilter : ∀ elements : List (List UInt8), (elements.map chars).filter (· ≠ []) =
      (elements.filter (· ≠ [])).map chars := by
    intro elements
    rw [List.filter_map]
    congr 1
    apply List.filter_congr
    intro element _
    simp [chars_eq_nil]
  rw [hsplit, htrim, hfilter, List.map_map]
  rfl

/-- What the code reads off the `Connection` lines: the nominations of the readable ones. -/
theorem mem_connectionHeaderNames (headers : HeaderMap) (name : String) :
    Text.toAsciiLowercase name.toList ∈ connectionHeaderNames headers ↔
      ∃ value ∈ headers.getAll "connection", (toStr value).isSome = true ∧
        Nominates value name := by
  have hvalue : ∀ value, (Text.toAsciiLowercase name.toList ∈ (match toStr value with
      | none => []
      | some s => (((s.splitOn ',').map Text.trim).filter (· ≠ [])).map Text.toAsciiLowercase)) ↔
      (toStr value).isSome = true ∧ Nominates value name := by
    intro value
    by_cases hvisible : ∀ b ∈ value, isVisibleAscii b = true
    · rw [toStr_eq hvisible]
      show _ ∈ ((((chars value).splitOn ',').map Text.trim).filter (· ≠ [])).map
        Text.toAsciiLowercase ↔ _
      rw [names_of_readable hvisible, List.mem_map]
      unfold Nominates Text.eqIgnoreAsciiCase
      simp
    · have hunread : toStr value = none := by
        apply if_neg
        rw [List.all_eq_true]
        exact hvisible
      simp [hunread]
  unfold connectionHeaderNames
  simp only [List.mem_flatMap, hvalue]

theorem mem_skipHeaders {req : Bool} {headers : HeaderMap} {extraSkip : List String}
    {line : String × List UInt8} :
    line ∈ skipHeaders req headers extraSkip ↔ line ∈ headers ∧ line.1 ∉ skipList req ∧
      line.1 ∉ extraSkip ∧
        ¬ ∃ value ∈ headers.getAll "connection", (toStr value).isSome = true ∧
          Nominates value line.1 := by
  unfold skipHeaders
  rw [List.mem_filter, decide_eq_true_eq, mem_connectionHeaderNames, not_or, not_or]
  constructor
  · rintro ⟨hline, hstatic, hdynamic, hextra⟩
    exact ⟨hline, hstatic, hextra, hdynamic⟩
  · rintro ⟨hline, hstatic, hextra, hdynamic⟩
    exact ⟨hline, hstatic, hdynamic, hextra⟩

/-- A field goes through as a whole or not at all. -/
theorem getAll_skipHeaders (req : Bool) (headers : HeaderMap) (extraSkip : List String)
    (name : String) :
    (skipHeaders req headers extraSkip).getAll name =
      if name ∈ skipList req ∨ Text.toAsciiLowercase name.toList ∈ connectionHeaderNames headers ∨
        name ∈ extraSkip then [] else headers.getAll name := by
  have hfilter := HeaderMap.getAll_filter headers (fun name ↦ decide (¬ (name ∈ skipList req ∨
    Text.toAsciiLowercase name.toList ∈ connectionHeaderNames headers ∨ name ∈ extraSkip))) name
  rw [skipHeaders, hfilter]
  by_cases hskip : name ∈ skipList req ∨
      Text.toAsciiLowercase name.toList ∈ connectionHeaderNames headers ∨ name ∈ extraSkip
  · rw [if_pos hskip, if_neg (by simp [hskip])]
  · rw [if_neg hskip, if_pos (by simp [hskip])]

/-- The filter drops exactly what the static list, the caller and the `Connection` lines name if
and only if every nomination in an unreadable line is of a header that is dropped anyway. -/
theorem skipHeaders_eq_iff (req : Bool) (headers : HeaderMap) (extraSkip : List String) :
    skipHeaders req headers extraSkip = (headers.filter fun line ↦
        ¬ (line.1 ∈ skipList req ∨ line.1 ∈ extraSkip ∨ Nominated headers line.1)) ↔
      ∀ line ∈ headers, ∀ value ∈ headers.getAll "connection", toStr value = none →
        Nominates value line.1 → line.1 ∈ skipList req ∨ line.1 ∈ extraSkip ∨
          ∃ readable ∈ headers.getAll "connection", (toStr readable).isSome = true ∧
            Nominates readable line.1 := by
  constructor
  · intro heq line hline value hvalue _ hnominates
    by_contra hkept
    push Not at hkept
    -- the line survives although the value nominates it
    have hmem : line ∈ skipHeaders req headers extraSkip := by
      apply mem_skipHeaders.mpr
      refine ⟨hline, hkept.1, hkept.2.1, ?_⟩
      rintro ⟨readable, hreadable, hsome, hother⟩
      exact hkept.2.2 readable hreadable hsome hother
    rw [heq, List.mem_filter, decide_eq_true_eq] at hmem
    exact hmem.2 (Or.inr (Or.inr ⟨value, hvalue, hnominates⟩))
  · intro h
    unfold skipHeaders
    apply List.filter_congr
    intro line hline
    rw [decide_eq_decide, mem_connectionHeaderNames]
    apply not_congr
    constructor
    · rintro (hstatic | ⟨value, hvalue, -, hnominates⟩ | hextra)
      · exact Or.inl hstatic
      · exact Or.inr (Or.inr ⟨value, hvalue, hnominates⟩)
      · exact Or.inr (Or.inl hextra)
    · rintro (hstatic | hextra | ⟨value, hvalue, hnominates⟩)
      · exact Or.inl hstatic
      · exact Or.inr (Or.inr hextra)
      · cases hread : toStr value with
        | some s => exact Or.inr (Or.inl ⟨value, hvalue, by rw [hread]; rfl, hnominates⟩)
        | none =>
            -- an unreadable nomination is of a header dropped for another reason
            rcases h line hline value hvalue hread hnominates with hstatic | hextra | hother
            · exact Or.inl hstatic
            · exact Or.inr (Or.inr hextra)
            · exact Or.inr (Or.inl hother)

/-- A request whose `Connection` line has one opaque byte. -/
def opaqueConnection : HeaderMap :=
  [("connection", (fieldLine "" "x-internal, ").2 ++ [0xE9]), fieldLine "x-internal" "1"]

/-- The nominated header goes upstream. -/
theorem skipHeaders_opaque_connection :
    Nominated opaqueConnection "x-internal" ∧
      fieldLine "x-internal" "1" ∈ skipHeaders true opaqueConnection [] ∧
      skipHeaders true opaqueConnection [] ≠ opaqueConnection.filter fun line ↦
        ¬ (line.1 ∈ skipList true ∨ line.1 ∈ ([] : List String) ∨
          Nominated opaqueConnection line.1) := by
  decide +kernel

end TokenWeasel.Proxy
