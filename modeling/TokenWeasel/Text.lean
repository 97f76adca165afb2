import Mathlib.Data.List.Infix
import Mathlib.Data.List.TakeDrop
import Mathlib.Data.List.TakeWhile

/-!
# Text

The operations of Rust's `str` that the program uses.  Text is the list of its characters, and a
literal stays a `String`.
-/

namespace TokenWeasel

abbrev Text := List Char

namespace Text

/-! ## Lossy UTF-8 decoding -/

/-- Between characters, or inside one: how many bytes are still owed, the bounds of the next of
them, and the bits read. -/
inductive Decoder where
  | ready
  | inside (owed : Nat) (low high : UInt8) (bits : Nat)
  deriving DecidableEq, Repr

def replacement : Char := Char.ofNat 0xFFFD

/-- A byte between characters. -/
def decodeFirst (b : UInt8) : Decoder × Text :=
  if b ≤ 0x7F then (.ready, [Char.ofNat b.toNat])
  else if 0xC2 ≤ b ∧ b ≤ 0xDF then (.inside 1 0x80 0xBF (b.toNat % 32), [])
  else if b = 0xE0 then (.inside 2 0xA0 0xBF 0, [])
  else if b = 0xED then (.inside 2 0x80 0x9F 13, [])
  else if 0xE1 ≤ b ∧ b ≤ 0xEF then (.inside 2 0x80 0xBF (b.toNat % 16), [])
  else if b = 0xF0 then (.inside 3 0x90 0xBF 0, [])
  else if 0xF1 ≤ b ∧ b ≤ 0xF3 then (.inside 3 0x80 0xBF (b.toNat % 8), [])
  else if b = 0xF4 then (.inside 3 0x80 0x8F 4, [])
  else (.ready, [replacement])

/-- A byte that cannot continue a character ends the ill-formed part before it, which is replaced
as a whole, and is read again as a first byte. -/
def decodeByte : Decoder → UInt8 → Decoder × Text
  | .ready, b => decodeFirst b
  | .inside owed low high bits, b =>
    if low ≤ b ∧ b ≤ high then
      let bits := bits * 64 + b.toNat % 64
      if owed ≤ 1 then (.ready, [Char.ofNat bits])
      else (.inside (owed - 1) 0x80 0xBF bits, [])
    else
      let next := decodeFirst b
      (next.1, replacement :: next.2)

def decode : Decoder → List UInt8 → Text
  | .ready, [] => []
  | .inside _ _ _ _, [] => [replacement]
  | state, b :: rest =>
    let next := decodeByte state b
    next.2 ++ decode next.1 rest

/-- `String::from_utf8_lossy`. -/
def fromUtf8Lossy (bytes : List UInt8) : Text := decode .ready bytes

theorem fromUtf8Lossy_ascii {bytes : List UInt8} (h : ∀ b ∈ bytes, b ≤ 0x7F) :
    fromUtf8Lossy bytes = bytes.map fun b ↦ Char.ofNat b.toNat := by
  unfold fromUtf8Lossy
  induction bytes with
  | nil => rfl
  | cons b bytes ih =>
      have hb : decodeFirst b = (.ready, [Char.ofNat b.toNat]) := by
        rw [decodeFirst, if_pos (h b List.mem_cons_self)]
      rw [decode, decodeByte, hb, ih fun c hc ↦ h c (List.mem_cons_of_mem b hc)]
      rfl

/-! ## UTF-8 -/

/-- `str::as_bytes`. -/
def asBytes (text : Text) : List UInt8 := text.flatMap String.utf8EncodeChar

/-- `0xFF` is in no character. -/
theorem ff_not_mem_asBytes (text : Text) : 0xFF ∉ asBytes text := by
  intro hmem
  rcases List.mem_flatMap.mp hmem with ⟨c, -, hc⟩
  have hbyte : ∀ b ∈ String.utf8EncodeChar c, b.toNat < 0xFF := by
    -- one case for each length of a character
    fun_cases String.utf8EncodeChar c
    all_goals
      simp only [List.forall_mem_cons, UInt8.toNat_ofNat', List.not_mem_nil, false_implies,
        implies_true, and_true]
      omega
  exact absurd (hbyte 0xFF hc) (by decide)

/-- Different texts have different bytes. -/
theorem asBytes_injective : Function.Injective asBytes := by
  intro text other h
  have hbytes : text.utf8Encode = other.utf8Encode := congrArg List.toByteArray h
  have hstring : String.ofList text = String.ofList other := by
    apply String.toByteArray_inj.mp
    rw [String.toByteArray_ofList, String.toByteArray_ofList, hbytes]
  exact String.ofList_inj.mp hstring

/-! ## Trimming and affixes -/

/-- Unicode's `White_Space`, as `char::is_whitespace` has it. -/
def isWhitespace (c : Char) : Bool :=
  let n := c.toNat
  (9 ≤ n && n ≤ 13) || n == 0x20 || n == 0x85 || n == 0xA0 || n == 0x1680 ||
    (0x2000 ≤ n && n ≤ 0x200A) || n == 0x2028 || n == 0x2029 || n == 0x202F || n == 0x205F ||
    n == 0x3000

/-- `str::trim`. -/
def trim (text : Text) : Text :=
  ((text.dropWhile isWhitespace).reverse.dropWhile isWhitespace).reverse

/-- `str::strip_prefix`. -/
def stripPrefix (text : Text) (start : String) : Option Text := text.dropPrefix? start.toList

/-- `str::ends_with`. -/
def endsWith (text : Text) (finish : String) : Bool := finish.toList.isSuffixOf text

/-- `str::contains`. -/
def contains (text : Text) (part : String) : Bool := text.tails.any part.toList.isPrefixOf

/-- `str::starts_with`. -/
def startsWith (text : Text) (start : String) : Bool := start.toList.isPrefixOf text

/-- `str::split_once`. -/
def splitOnce (text : Text) (sep : Char) : Option (Text × Text) :=
  match text.span (· ≠ sep) with
  | (_, []) => none
  | (before, _ :: after) => some (before, after)

/-- `str::to_ascii_lowercase`. -/
def toAsciiLowercase (text : Text) : Text := text.map Char.toLower

/-- `str::eq_ignore_ascii_case`. -/
def eqIgnoreAsciiCase (text other : Text) : Bool := toAsciiLowercase text = toAsciiLowercase other

/-- `u8::is_ascii_whitespace`, of a character. -/
def isAsciiWhitespace (c : Char) : Bool :=
  c == ' ' || c == '\t' || c == '\n' || c == Char.ofNat 0x0C || c == '\r'

/-- `str::replace` of a character. -/
def replace (text : Text) (c : Char) (substitute : String) : Text :=
  text.flatMap fun d ↦ if d = c then substitute.toList else [d]

theorem stripPrefix_append (start : String) (rest : Text) :
    stripPrefix (start.toList ++ rest) start = some rest :=
  List.dropPrefix?_append_of_beq rest (beq_self_eq_true start.toList)

theorem dropWhile_padded {p : Char → Bool} {before rest : Text} (hbefore : ∀ c ∈ before, p c = true)
    (hhead : ∀ c ∈ rest.head?, p c = false) : (before ++ rest).dropWhile p = rest := by
  induction before with
  | nil =>
      cases rest with
      | nil => rfl
      | cons c rest =>
          have hc : p c = false := hhead c rfl
          rw [List.nil_append, List.dropWhile_cons_of_neg (by rw [hc]; decide)]
  | cons c before ih =>
      rw [List.cons_append, List.dropWhile_cons_of_pos (hbefore c List.mem_cons_self)]
      exact ih fun d hd ↦ hbefore d (List.mem_cons_of_mem c hd)

/-- The first character that fails ends a span. -/
theorem span_append {p : Char → Bool} {before rest : Text} (hbefore : ∀ c ∈ before, p c = true)
    (hhead : ∀ c ∈ rest.head?, p c = false) : (before ++ rest).span p = (before, rest) := by
  rw [List.span_eq_takeWhile_dropWhile, dropWhile_padded hbefore hhead,
    List.takeWhile_append_of_pos hbefore]
  cases rest with
  | nil => rw [List.takeWhile_nil, List.append_nil]
  | cons c rest =>
      have hc : p c = false := hhead c rfl
      rw [List.takeWhile_cons_of_neg (by rw [hc]; decide), List.append_nil]

/-- A split is at the first separator. -/
theorem splitOnce_eq_some_iff {text before after : Text} {sep : Char} :
    splitOnce text sep = some (before, after) ↔ text = before ++ sep :: after ∧ sep ∉ before := by
  constructor
  · intro h
    have hjoin : text.takeWhile (· ≠ sep) ++ text.dropWhile (· ≠ sep) = text :=
      List.takeWhile_append_dropWhile
    unfold splitOnce at h
    rw [List.span_eq_takeWhile_dropWhile] at h
    split at h
    · cases h
    · rename_i front first rest hspan
      have hfront : text.takeWhile (· ≠ sep) = front := congrArg Prod.fst hspan
      have hback : text.dropWhile (· ≠ sep) = first :: rest := congrArg Prod.snd hspan
      have hfirst : first = sep := by
        have hhead := List.head?_dropWhile_not (fun c ↦ decide (c ≠ sep)) text
        rw [hback] at hhead
        simpa using hhead
      cases h
      rw [hfront, hback, hfirst] at hjoin
      refine ⟨hjoin.symm, fun hmem ↦ ?_⟩
      rw [← hfront] at hmem
      simpa using List.mem_takeWhile_imp hmem
  · rintro ⟨rfl, hsep⟩
    have hspan : (before ++ sep :: after).span (· ≠ sep) = (before, sep :: after) := by
      apply span_append
      · intro c hc
        exact decide_eq_true fun heq ↦ hsep (heq ▸ hc)
      · intro c hc
        rw [← Option.some.inj hc]
        simp
    unfold splitOnce
    rw [hspan]

/-- White space around text that has none at its ends is all that is trimmed. -/
theorem trim_padded {before text after : Text} (hbefore : ∀ c ∈ before, isWhitespace c = true)
    (hafter : ∀ c ∈ after, isWhitespace c = true) (hne : text ≠ [])
    (hhead : ∀ c ∈ text.head?, isWhitespace c = false)
    (hlast : ∀ c ∈ text.getLast?, isWhitespace c = false) :
    trim (before ++ text ++ after) = text := by
  have hfront : (before ++ (text ++ after)).dropWhile isWhitespace = text ++ after := by
    apply dropWhile_padded hbefore
    rw [List.head?_append_of_ne_nil _ hne]
    exact hhead
  have hback : (after.reverse ++ text.reverse).dropWhile isWhitespace = text.reverse := by
    apply dropWhile_padded
    · intro c hc
      exact hafter c (List.mem_reverse.mp hc)
    · rw [List.head?_reverse]
      exact hlast
  rw [trim, List.append_assoc, hfront, List.reverse_append, hback, List.reverse_reverse]

/-- White space before a text is trimmed with it. -/
theorem trim_append_left {before : Text} (hbefore : ∀ c ∈ before, isWhitespace c = true)
    (text : Text) : trim (before ++ text) = trim text := by
  unfold trim
  rw [List.dropWhile_append_of_pos hbefore]

/-- White space behind a text is trimmed with it. -/
theorem trim_append_right {after : Text} (hafter : ∀ c ∈ after, isWhitespace c = true)
    (text : Text) : trim (text ++ after) = trim text := by
  have hreverse : ∀ c ∈ after.reverse, isWhitespace c = true :=
    fun c hc ↦ hafter c (List.mem_reverse.mp hc)
  unfold trim
  rw [List.dropWhile_append]
  split
  · rename_i hempty
    -- the text is all white space, and so is what stands behind it
    rw [List.isEmpty_iff.mp hempty, List.dropWhile_eq_nil_iff.mpr hafter]
  · rw [List.reverse_append, List.dropWhile_append_of_pos hreverse]

/-- A text is what trimming leaves, between white space. -/
theorem eq_append_trim (text : Text) :
    ∃ before after, (∀ c ∈ before, isWhitespace c = true) ∧ (∀ c ∈ after, isWhitespace c = true) ∧
      text = before ++ (trim text ++ after) := by
  let inner := text.dropWhile isWhitespace
  refine ⟨text.takeWhile isWhitespace, (inner.reverse.takeWhile isWhitespace).reverse, ?_, ?_, ?_⟩
  · exact fun c hc ↦ List.mem_takeWhile_imp hc
  · exact fun c hc ↦ List.mem_takeWhile_imp (List.mem_reverse.mp hc)
  · have hinner : trim text ++ (inner.reverse.takeWhile isWhitespace).reverse = inner := by
      unfold trim
      rw [← List.reverse_append, List.takeWhile_append_dropWhile, List.reverse_reverse]
    rw [hinner]
    exact List.takeWhile_append_dropWhile.symm

/-- Up to a character that is no white space, a text may be trimmed before it is cut. -/
theorem trim_takeWhile_trim {p : Char → Bool} (hp : ∀ c, isWhitespace c = true → p c = true)
    (text : Text) : trim ((trim text).takeWhile p) = trim (text.takeWhile p) := by
  rcases eq_append_trim text with ⟨before, after, hbefore, hafter, htext⟩
  have hcut : text.takeWhile p = before ++ (trim text ++ after).takeWhile p := by
    conv_lhs => rw [htext]
    exact List.takeWhile_append_of_pos fun c hc ↦ hp c (hbefore c hc)
  rw [hcut, trim_append_left hbefore, List.takeWhile_append]
  split
  · rename_i hall
    have hwhole : (trim text).takeWhile p = trim text :=
      (List.takeWhile_prefix p).eq_of_length hall
    rw [hwhole]
    exact (trim_append_right (fun c hc ↦ hafter c (List.takeWhile_subset p hc)) _).symm
  · rfl

end Text

end TokenWeasel
