import Mathlib.Data.List.Induction
import TokenWeasel.Net.IpAddr

/-!
# Printed addresses are read back

The parser tries an IPv4 address at every place where one may stand, so each step also has to say
that this fails on a segment in hexadecimal.
-/

namespace TokenWeasel.Net

open Library

/-! ## Numbers -/

/-- The text does not go on with a digit. -/
def NoDigit (radix : Nat) (text : Text) : Prop := ∀ c ∈ text.head?, isDigit radix c = false

theorem readNumber_toDigits {radix n : Nat} {rest : Text} (maxDigits : Nat)
    (allowZeroPrefix : Bool) (bound : Nat) (hlow : 1 < radix) (hhigh : radix ≤ 16)
    (hmax : 0 < maxDigits) (hdigits : n < radix ^ maxDigits) (hbound : n < bound)
    (hrest : NoDigit radix rest) :
    readNumber radix maxDigits allowZeroPrefix bound (Nat.toDigits radix n ++ rest) =
      some (n, rest) := by
  have hlength : (Nat.toDigits radix n).length ≤ maxDigits :=
    (Nat.length_toDigits_le_iff hlow hmax).mpr hdigits
  have hpos : 0 < (Nat.toDigits radix n).length := Nat.length_toDigits_pos
  have hread : readDigits radix maxDigits 0 0 (Nat.toDigits radix n ++ rest) =
      some (n, (Nat.toDigits radix n).length, rest) := by
    rw [readDigits_append (isDigit_of_mem_toDigits hlow hhigh n) hrest 0 (by omega),
      numeralValue_toDigits hlow hhigh, Nat.zero_add]
  have hzero : ¬ (allowZeroPrefix = false ∧ (Nat.toDigits radix n ++ rest).head? = some '0' ∧
      (Nat.toDigits radix n).length > 1) := by
    rintro ⟨-, hhead, hlong⟩
    rw [List.head?_append_of_ne_nil _ Nat.toDigits_ne_nil] at hhead
    by_cases hn : n = 0
    · rw [hn, Nat.toDigits_zero] at hlong
      exact absurd hlong (by decide)
    · exact head?_toDigits hlow hhigh hn hhead
  rw [readNumber, hread]
  simp only [if_neg (Nat.ne_of_gt hpos), if_neg hzero, if_pos hbound]

theorem readOctet_decimal (octet : UInt8) {rest : Text} (hrest : NoDigit 10 rest) :
    readOctet (decimal octet ++ rest) = some (octet, rest) := by
  have hlt : octet.toNat < 256 := octet.toNat_lt
  have hread := readNumber_toDigits 3 false 256 (by decide) (by decide) (by decide)
    (Nat.lt_trans hlt (by decide)) hlt hrest
  rw [readOctet, decimal, hread, Option.map_some, UInt8.ofNat_toNat]

theorem readSegment_hex (segment : UInt16) {rest : Text} (hrest : NoDigit 16 rest) :
    readSegment (hex segment ++ rest) = some (segment, rest) := by
  have hlt : segment.toNat < 65536 := segment.toNat_lt
  have hread := readNumber_toDigits 4 true 65536 (by decide) (by decide) (by decide)
    (Nat.lt_of_lt_of_eq hlt (by decide)) hlt hrest
  rw [readSegment, hex, hread, Option.map_some, UInt16.ofNat_toNat]

theorem readNumber_noDigit {radix maxDigits bound : Nat} {allowZeroPrefix : Bool} {text : Text}
    (h : NoDigit radix text) : readNumber radix maxDigits allowZeroPrefix bound text = none := by
  have hread : readDigits radix maxDigits 0 0 ([] ++ text) = some (0, 0, text) :=
    readDigits_append (fun c hc ↦ absurd hc List.not_mem_nil) h 0 (Nat.zero_le maxDigits)
  rw [readNumber, ← List.nil_append text, hread]
  rfl

/-! ## IPv4 addresses -/

theorem noDigit_dot (rest : Text) : NoDigit 10 ('.' :: rest) := by
  intro c hc
  rw [← Option.some.inj hc]
  decide

theorem readIpv4Addr_toText (addr : Ipv4Addr) {rest : Text} (hrest : NoDigit 10 rest) :
    readIpv4Addr (addr.toText ++ rest) = some (addr, rest) := by
  rw [Ipv4Addr.toText]
  simp only [List.append_assoc, List.cons_append]
  simp only [readIpv4Addr, readSeparator, readGivenChar, readOctet_decimal _ (noDigit_dot _),
    readOctet_decimal _ hrest, Option.bind_eq_bind, Option.bind_some, gt_iff_lt, if_true,
    Nat.lt_irrefl, if_false, Nat.zero_lt_succ]

/-- An IPv4 address has a dot after its first digits. -/
theorem readIpv4Addr_dot {text : Text} {read : Ipv4Addr × Text}
    (h : readIpv4Addr text = some read) : (text.dropWhile (isDigit 10)).head? = some '.' := by
  unfold readIpv4Addr at h
  rcases Option.bind_eq_some_iff.mp h with ⟨⟨a, rest⟩, hfirst, h⟩
  rcases Option.bind_eq_some_iff.mp h with ⟨⟨b, rest'⟩, hsecond, -⟩
  have hrest : rest = text.dropWhile (isDigit 10) := by
    rcases Option.map_eq_some_iff.mp hfirst with ⟨⟨n, rest₀⟩, hnumber, heq⟩
    cases heq
    unfold readNumber at hnumber
    split at hnumber
    · exact absurd hnumber (by simp)
    · rename_i result count rest₁ hread
      have hdrop := readDigits_rest hread
      split at hnumber
      · exact absurd hnumber (by simp)
      · split at hnumber
        · exact absurd hnumber (by simp)
        · split at hnumber
          · cases hnumber
            exact hdrop
          · exact absurd hnumber (by simp)
  rw [← hrest]
  rcases Option.bind_eq_some_iff.mp hsecond with ⟨rest'', hdot, -⟩
  cases rest with
  | nil => exact absurd hdot (by simp [readGivenChar])
  | cons c rest =>
      rw [readGivenChar] at hdot
      split at hdot
      · rename_i hc
        rw [hc]
        rfl
      · exact absurd hdot (by simp)

theorem head?_dropWhile_hex {digits rest : Text} (hdigits : ∀ c ∈ digits, isDigit 16 c = true)
    (hrest : NoDigit 10 rest) (hdot : rest.head? ≠ some '.') :
    ((digits ++ rest).dropWhile (isDigit 10)).head? ≠ some '.' := by
  induction digits with
  | nil =>
      cases rest with
      | nil => simp
      | cons c rest =>
          have hc : isDigit 10 c = false := hrest c rfl
          rw [List.nil_append, List.dropWhile_cons_of_neg (by rw [hc]; decide)]
          exact hdot
  | cons c digits ih =>
      rw [List.cons_append]
      by_cases hc : isDigit 10 c = true
      · rw [List.dropWhile_cons_of_pos hc]
        exact ih fun d hd ↦ hdigits d (List.mem_cons_of_mem c hd)
      · rw [List.dropWhile_cons_of_neg hc]
        intro heq
        have hhex := hdigits c List.mem_cons_self
        rw [Option.some.inj heq] at hhex
        exact absurd hhex (by decide)

/-- Text that begins with hexadecimal digits and no dot after them is no IPv4 address. -/
theorem readIpv4Addr_hex {digits rest : Text} (hdigits : ∀ c ∈ digits, isDigit 16 c = true)
    (hrest : NoDigit 10 rest) (hdot : rest.head? ≠ some '.') :
    readIpv4Addr (digits ++ rest) = none := by
  cases hread : readIpv4Addr (digits ++ rest) with
  | none => rfl
  | some read => exact absurd (readIpv4Addr_dot hread) (head?_dropWhile_hex hdigits hrest hdot)

/-! ## Groups -/

/-- Text in which no group begins: the end, or a colon with another one after it. -/
def Stops (text : Text) : Prop := text = [] ∨ ∃ rest, text = ':' :: ':' :: rest

theorem noDigit_colon (radix : Nat) (rest : Text) : NoDigit radix (':' :: rest) := by
  intro c hc
  rw [← Option.some.inj hc]
  have hnone : hexValue ':' = none := by decide
  rw [isDigit, digitValue, hnone]
  rfl

theorem Stops.noDigit {text : Text} (h : Stops text) (radix : Nat) : NoDigit radix text := by
  rcases h with rfl | ⟨rest, rfl⟩
  · exact fun _ hc ↦ absurd hc (by simp)
  · exact noDigit_colon radix _

/-- What a printed segment is followed by. -/
theorem colonSegments_noDigit (segments : List UInt16) {rest : Text} (h : Stops rest)
    (radix : Nat) :
    NoDigit radix (colonSegments segments ++ rest) ∧
      (colonSegments segments ++ rest).head? ≠ some '.' := by
  cases segments with
  | nil =>
      refine ⟨h.noDigit radix, ?_⟩
      rcases h with rfl | ⟨rest, rfl⟩
      · exact fun heq ↦ absurd heq (by simp [colonSegments])
      · exact fun heq ↦ absurd (Option.some.inj heq) (by decide)
  | cons segment segments =>
      refine ⟨noDigit_colon radix _, ?_⟩
      exact fun heq ↦ absurd (Option.some.inj heq) (by decide)

theorem readIpv4Addr_noDigit {text : Text} (h : NoDigit 10 text) (hdot : text.head? ≠ some '.') :
    readIpv4Addr text = none :=
  readIpv4Addr_hex (fun _ hc ↦ absurd hc List.not_mem_nil) h hdot

theorem readSegment_noDigit {text : Text} (h : NoDigit 16 text) : readSegment text = none := by
  rw [readSegment, readNumber_noDigit h]
  rfl

theorem readGroups_stops {text : Text} (h : Stops text) (remaining i : Nat) :
    readGroups remaining i text = ([], false, text) := by
  cases remaining with
  | zero => rfl
  | succ remaining =>
      have hfails : readSeparator ':' i readIpv4Addr text = none ∧
          readSeparator ':' i readSegment text = none := by
        rcases h with rfl | ⟨rest, rfl⟩
        · cases i with
          | zero => exact ⟨by decide, by decide⟩
          | succ i => exact ⟨rfl, rfl⟩
        · have hdot : ∀ text : Text, (':' :: text).head? ≠ some '.' :=
            fun text heq ↦ absurd (Option.some.inj heq) (by decide)
          cases i with
          | zero =>
              exact ⟨readIpv4Addr_noDigit (noDigit_colon 10 (':' :: rest)) (hdot (':' :: rest)),
                readSegment_noDigit (noDigit_colon 16 (':' :: rest))⟩
          | succ i =>
              exact ⟨readIpv4Addr_noDigit (noDigit_colon 10 rest) (hdot rest),
                readSegment_noDigit (noDigit_colon 16 rest)⟩
      rw [readGroups, hfails.1, hfails.2]
      simp

/-- A printed segment is one group, with or without its separator. -/
theorem readGroups_segment (remaining i : Nat) (segment : UInt16) {rest : Text}
    (hrest : NoDigit 16 rest) (hrest' : NoDigit 10 rest) (hdot : rest.head? ≠ some '.') :
    readGroups (remaining + 1) i ((if i > 0 then [':'] else []) ++ (hex segment ++ rest)) =
      (segment :: (readGroups remaining (i + 1) rest).1,
        (readGroups remaining (i + 1) rest).2) := by
  have hhex : ∀ c ∈ hex segment, isDigit 16 c = true :=
    isDigit_of_mem_toDigits (by decide) (by decide) segment.toNat
  have hseparator : ∀ {α : Type} (inner : Text → Option (α × Text)),
      readSeparator ':' i inner ((if i > 0 then [':'] else []) ++ (hex segment ++ rest)) =
        inner (hex segment ++ rest) := by
    intro α inner
    by_cases hi : i > 0
    · rw [readSeparator, if_pos hi, if_pos hi, List.singleton_append, readGivenChar, if_pos rfl]
      rfl
    · rw [readSeparator, if_neg hi, if_neg hi, List.nil_append]
  rw [readGroups, hseparator, hseparator, readIpv4Addr_hex hhex hrest' hdot,
    readSegment_hex segment hrest]
  simp

theorem readGroups_colonSegments (segments : List UInt16) {remaining i : Nat} {rest : Text}
    (h : Stops rest) (hlength : segments.length ≤ remaining) (hi : i > 0) :
    readGroups remaining i (colonSegments segments ++ rest) = (segments, false, rest) := by
  induction segments generalizing remaining i with
  | nil => exact readGroups_stops h remaining i
  | cons segment segments ih =>
      cases remaining with
      | zero => exact absurd hlength (by simp)
      | succ remaining =>
          have hfollow := colonSegments_noDigit segments h
          have hsegment := readGroups_segment remaining i segment (hfollow 16).1 (hfollow 10).1
            (hfollow 10).2
          rw [if_pos hi, ih (Nat.le_of_succ_le_succ hlength) (Nat.succ_pos i)] at hsegment
          rw [← hsegment, colonSegments, List.flatMap_cons, List.append_assoc]
          rfl

theorem readGroups_fmtSubslice (chunk : List UInt16) (remaining : Nat) {rest : Text}
    (h : Stops rest) (hlength : chunk.length ≤ remaining) :
    readGroups remaining 0 (fmtSubslice chunk ++ rest) = (chunk, false, rest) := by
  cases chunk with
  | nil => exact readGroups_stops h remaining 0
  | cons first tail =>
      cases remaining with
      | zero => exact absurd hlength (by simp)
      | succ remaining =>
          have hfollow := colonSegments_noDigit tail h
          have hsegment := readGroups_segment remaining 0 first (hfollow 16).1 (hfollow 10).1
            (hfollow 10).2
          rw [readGroups_colonSegments tail h (Nat.le_of_succ_le_succ hlength) (Nat.succ_pos 0)]
            at hsegment
          rw [← hsegment, fmtSubslice, List.append_assoc]
          rfl

theorem readIpv4Addr_fmtSubslice (chunk : List UInt16) {rest : Text} (h : Stops rest) :
    readIpv4Addr (fmtSubslice chunk ++ rest) = none := by
  cases chunk with
  | nil =>
      have hfollow := colonSegments_noDigit [] h 10
      exact readIpv4Addr_noDigit hfollow.1 hfollow.2
  | cons first tail =>
      have hhex : ∀ c ∈ hex first, isDigit 16 c = true :=
        isDigit_of_mem_toDigits (by decide) (by decide) first.toNat
      have hfollow := colonSegments_noDigit tail h 10
      rw [fmtSubslice, List.append_assoc]
      exact readIpv4Addr_hex hhex hfollow.1 hfollow.2

/-! ## Runs of zeros -/

def ZeroRun (segments : List UInt16) (span : Span) : Prop :=
  ∃ before after, segments = before ++ List.replicate span.len 0 ++ after ∧
    before.length = span.start

theorem ZeroRun.concat {segments : List UInt16} {span : Span} (h : ZeroRun segments span)
    (segment : UInt16) : ZeroRun (segments ++ [segment]) span := by
  rcases h with ⟨before, after, heq, hstart⟩
  refine ⟨before, after ++ [segment], ?_, hstart⟩
  rw [heq, List.append_assoc]

/-- The longest run is one, and the current run is at the end. -/
theorem spans_zeroRun (segments : List UInt16) :
    let spans := segments.zipIdx.foldl spanStep
      ({ start := 0, len := 0 }, { start := 0, len := 0 })
    ZeroRun segments spans.1 ∧
      (spans.2.len = 0 ∨ ∃ before, segments = before ++ List.replicate spans.2.len 0 ∧
        before.length = spans.2.start) := by
  induction segments using List.reverseRecOn with
  | nil => exact ⟨⟨[], [], rfl, rfl⟩, Or.inl rfl⟩
  | append_singleton segments segment ih =>
      rw [List.zipIdx_append, List.foldl_append]
      generalize segments.zipIdx.foldl spanStep
        ({ start := 0, len := 0 }, { start := 0, len := 0 }) = spans at ih ⊢
      rcases spans with ⟨longest, current⟩
      simp only [List.zipIdx_singleton, List.foldl_cons, List.foldl_nil, spanStep]
      by_cases hzero : segment = 0
      · -- the current run grows or begins
        have hcurrent : ∃ before, segments ++ [segment] =
              before ++ List.replicate (current.len + 1) 0 ∧
            before.length = if current.len = 0 then 0 + segments.length else current.start := by
          rw [hzero]
          rcases ih.2 with hnone | ⟨before, heq, hstart⟩
          · have hlen : current.len = 0 := hnone
            refine ⟨segments, ?_, ?_⟩
            · rw [hlen]
              rfl
            · rw [if_pos hlen, Nat.zero_add]
          · by_cases hlen : current.len = 0
            · refine ⟨segments, ?_, ?_⟩
              · rw [hlen]
                rfl
              · rw [if_pos hlen, Nat.zero_add]
            · refine ⟨before, ?_, ?_⟩
              · rw [List.replicate_succ', ← List.append_assoc]
                exact congrArg (· ++ [0]) heq
              · rw [if_neg hlen]
                exact hstart
        rcases hcurrent with ⟨before, heq, hstart⟩
        rw [if_pos hzero]
        refine ⟨?_, Or.inr ⟨before, heq, hstart⟩⟩
        split
        · exact ⟨before, [], by rw [List.append_nil]; exact heq, hstart⟩
        · exact ih.1.concat segment
      · rw [if_neg hzero]
        exact ⟨ih.1.concat segment, Or.inl rfl⟩

theorem longestZeroes_split (segments : List UInt16) :
    let zeroes := longestZeroes segments
    segments = segments.take zeroes.start ++ List.replicate zeroes.len 0 ++
      segments.drop (zeroes.start + zeroes.len) ∧
    (segments.take zeroes.start).length = zeroes.start := by
  intro zeroes
  have hrun : ZeroRun segments zeroes := (spans_zeroRun segments).1
  rcases hrun with ⟨before, after, heq, hstart⟩
  have htake : segments.take zeroes.start = before := by
    rw [heq, List.append_assoc, ← hstart]
    exact List.take_left
  have hdrop : segments.drop (zeroes.start + zeroes.len) = after := by
    have hlength : (before ++ List.replicate zeroes.len 0).length = zeroes.start + zeroes.len := by
      rw [List.length_append, List.length_replicate, hstart]
    rw [← hlength, heq]
    exact List.drop_left
  rw [htake, hdrop]
  exact ⟨heq, hstart⟩

/-! ## Whole addresses -/

theorem fromBeBytes_split (x : UInt16) :
    fromBeBytes (UInt8.ofNat (x.toNat / 256)) (UInt8.ofNat (x.toNat % 256)) = x := by
  have hlt : x.toNat < 65536 := x.toNat_lt
  rw [fromBeBytes, UInt8.toNat_ofNat', UInt8.toNat_ofNat']
  have heq : x.toNat / 256 % 2 ^ 8 * 256 + x.toNat % 256 % 2 ^ 8 = x.toNat := by omega
  rw [heq, UInt16.ofNat_toNat]

theorem toIpv4Mapped_segments {segments : List UInt16} {addr : Ipv4Addr}
    (h : toIpv4Mapped segments = some addr) :
    segments = [0, 0, 0, 0, 0, 0xffff, fromBeBytes addr.a addr.b, fromBeBytes addr.c addr.d] := by
  unfold toIpv4Mapped at h
  split at h
  · cases h
    rw [fromBeBytes_split, fromBeBytes_split]
  · exact absurd h (by simp)

/-- The part after `::ffff:` is read as an IPv4 address. -/
theorem readGroups_mapped (addr : Ipv4Addr) :
    readGroups 7 0 ("ffff:".toList ++ addr.toText) =
      ([0xffff, fromBeBytes addr.a addr.b, fromBeBytes addr.c addr.d], true, []) := by
  have hdot : (':' :: addr.toText).head? ≠ some '.' :=
    fun heq ↦ absurd (Option.some.inj heq) (by decide)
  have hsegment := readGroups_segment 6 0 0xffff (noDigit_colon 16 addr.toText)
    (noDigit_colon 10 addr.toText) hdot
  have htext : "ffff:".toList ++ addr.toText =
      (if 0 > 0 then [':'] else []) ++ (hex 0xffff ++ ':' :: addr.toText) := by
    have hffff : hex 0xffff = "ffff".toList := by decide
    rw [hffff]
    rfl
  have hread : readIpv4Addr addr.toText = some (addr, []) := by
    have hnone : NoDigit 10 [] := fun _ hc ↦ absurd hc (by simp)
    have hread := readIpv4Addr_toText addr hnone
    rwa [List.append_nil] at hread
  have hrest : readGroups 6 1 (':' :: addr.toText) =
      ([fromBeBytes addr.a addr.b, fromBeBytes addr.c addr.d], true, []) := by
    have hseparator : readSeparator ':' 1 readIpv4Addr (':' :: addr.toText) = some (addr, []) :=
      hread
    rw [readGroups, hseparator]
    rfl
  rw [htext, hsegment, hrest]

theorem stops_colons (rest : Text) : Stops ("::".toList ++ rest) := Or.inr ⟨rest, rfl⟩

/-- The three ways to print an IPv6 address. -/
theorem Ipv6Addr.toText_cases (addr : Ipv6Addr) :
    (∃ ipv4, toIpv4Mapped addr.segments = some ipv4 ∧
      addr.toText = "::".toList ++ ("ffff:".toList ++ ipv4.toText)) ∨
    ((longestZeroes addr.segments).len > 1 ∧
      addr.toText = fmtSubslice (addr.segments.take (longestZeroes addr.segments).start) ++
        ("::".toList ++ fmtSubslice (addr.segments.drop
          ((longestZeroes addr.segments).start + (longestZeroes addr.segments).len)))) ∨
    addr.toText = fmtSubslice addr.segments := by
  unfold Ipv6Addr.toText
  cases hmapped : toIpv4Mapped addr.segments with
  | some ipv4 => exact Or.inl ⟨ipv4, rfl, rfl⟩
  | none =>
      right
      by_cases hlong : (longestZeroes addr.segments).len > 1
      · simp only [if_pos hlong, List.append_assoc]
        exact Or.inl ⟨hlong, trivial⟩
      · simp only [if_neg hlong]
        exact Or.inr trivial

theorem readIpv4Addr_ipv6 (addr : Ipv6Addr) : readIpv4Addr addr.toText = none := by
  rcases addr.toText_cases with ⟨ipv4, -, htext⟩ | ⟨-, htext⟩ | htext
  · rw [htext]
    exact readIpv4Addr_fmtSubslice [] (stops_colons _)
  · rw [htext]
    exact readIpv4Addr_fmtSubslice _ (stops_colons _)
  · rw [htext, ← List.append_nil (fmtSubslice _)]
    exact readIpv4Addr_fmtSubslice _ (Or.inl rfl)

/-- Groups around `::` are read as the segments they stand for. -/
theorem readIpv6Addr_colons {text rest : Text} {head tail segments : List UInt16} {ipv4 : Bool}
    (hhead : readGroups 8 0 text = (head, false, "::".toList ++ rest)) (hfull : head.length ≠ 8)
    (htail : readGroups (8 - (head.length + 1)) 0 rest = (tail, ipv4, []))
    (hlength : segments.length = 8) (heq : joinGroups head tail = segments) :
    readIpv6Addr text = some (⟨segments, hlength⟩, []) := by
  have hcolons : (readGivenChar ':' ("::".toList ++ rest)).bind (readGivenChar ':') = some rest :=
    rfl
  unfold readIpv6Addr
  simp only [hhead, dif_neg hfull, Bool.false_eq_true, if_false, hcolons, Option.map_some, htail,
    heq]

theorem readIpv6Addr_toText (addr : Ipv6Addr) : readIpv6Addr addr.toText = some (addr, []) := by
  rcases addr.toText_cases with ⟨ipv4, hmapped, htext⟩ | ⟨hlong, htext⟩ | htext
  · have hhead := readGroups_stops (stops_colons ("ffff:".toList ++ ipv4.toText)) 8 0
    rw [htext]
    apply readIpv6Addr_colons hhead (by decide) (readGroups_mapped ipv4) addr.length_eq
    rw [toIpv4Mapped_segments hmapped]
    rfl
  · -- the longest run of zeros was printed as `::`
    let zeroes := longestZeroes addr.segments
    have hlen : zeroes.len > 1 := hlong
    have hsplit : addr.segments = addr.segments.take zeroes.start ++
      List.replicate zeroes.len 0 ++ addr.segments.drop (zeroes.start + zeroes.len) :=
      (longestZeroes_split addr.segments).1
    have hsum := congrArg List.length hsplit
    rw [List.length_append, List.length_append, List.length_replicate, addr.length_eq] at hsum
    have hhead := readGroups_fmtSubslice (addr.segments.take zeroes.start) 8
      (stops_colons (fmtSubslice (addr.segments.drop (zeroes.start + zeroes.len)))) (by omega)
    have htail := readGroups_fmtSubslice (addr.segments.drop (zeroes.start + zeroes.len))
      (8 - ((addr.segments.take zeroes.start).length + 1)) (Or.inl rfl) (by omega)
    rw [List.append_nil] at htail
    rw [htext]
    apply readIpv6Addr_colons hhead (by omega) htail addr.length_eq
    have hzeros : 8 - (addr.segments.take zeroes.start).length -
        (addr.segments.drop (zeroes.start + zeroes.len)).length = zeroes.len := by omega
    rw [joinGroups, hzeros]
    exact hsplit.symm
  · have hread := readGroups_fmtSubslice addr.segments 8 (Or.inl rfl) (Nat.le_of_eq addr.length_eq)
    rw [List.append_nil] at hread
    rw [htext]
    unfold readIpv6Addr
    simp only [hread, dif_pos addr.length_eq]

/-- An address is read back from its text. -/
theorem IpAddr.parse_toText (ip : IpAddr) : IpAddr.parse ip.toText = some ip := by
  have hnone : NoDigit 10 [] := fun _ hc ↦ absurd hc (by simp)
  cases ip with
  | v4 addr =>
      have hread := readIpv4Addr_toText addr hnone
      rw [List.append_nil] at hread
      have haddr : readIpAddr addr.toText = some (.v4 addr, []) := by
        simp only [readIpAddr, hread]
      simp only [IpAddr.parse, IpAddr.toText, haddr]
  | v6 addr =>
      have haddr : readIpAddr addr.toText = some (.v6 addr, []) := by
        simp only [readIpAddr, readIpv4Addr_ipv6, readIpv6Addr_toText, Option.map_some]
      simp only [IpAddr.parse, IpAddr.toText, haddr]

theorem IpAddr.toText_inj {ip ip' : IpAddr} : ip.toText = ip'.toText ↔ ip = ip' := by
  constructor
  · intro h
    have hread := IpAddr.parse_toText ip
    rw [h, IpAddr.parse_toText] at hread
    exact (Option.some.inj hread).symm
  · exact congrArg IpAddr.toText

end TokenWeasel.Net
