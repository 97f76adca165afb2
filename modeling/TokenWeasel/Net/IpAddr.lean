import Mathlib.Algebra.Group.Nat.Defs
import TokenWeasel.Library.Numeral
import TokenWeasel.Text

/-!
# IP addresses as text

`std::net::IpAddr` with its `Display` and `FromStr`: an address is read back from what is printed.
-/

namespace TokenWeasel.Net

open Library

structure Ipv4Addr where
  a : UInt8
  b : UInt8
  c : UInt8
  d : UInt8
  deriving DecidableEq, Repr

structure Ipv6Addr where
  segments : List UInt16
  length_eq : segments.length = 8
  deriving DecidableEq, Repr

inductive IpAddr where
  | v4 (addr : Ipv4Addr)
  | v6 (addr : Ipv6Addr)
  deriving DecidableEq, Repr

/-! ## Printing -/

def decimal (octet : UInt8) : Text := Nat.toDigits 10 octet.toNat

def hex (segment : UInt16) : Text := Nat.toDigits 16 segment.toNat

def Ipv4Addr.toText (addr : Ipv4Addr) : Text :=
  decimal addr.a ++ '.' :: (decimal addr.b ++ '.' :: (decimal addr.c ++ '.' :: decimal addr.d))

/-- `u16::from_be_bytes`. -/
def fromBeBytes (high low : UInt8) : UInt16 := UInt16.ofNat (high.toNat * 256 + low.toNat)

def toIpv4Mapped (segments : List UInt16) : Option Ipv4Addr :=
  match segments with
  | [0, 0, 0, 0, 0, 0xffff, x, y] =>
    some {
      a := UInt8.ofNat (x.toNat / 256)
      b := UInt8.ofNat (x.toNat % 256)
      c := UInt8.ofNat (y.toNat / 256)
      d := UInt8.ofNat (y.toNat % 256) }
  | _ => none

/-- Segments from `start` on. -/
structure Span where
  start : Nat
  len : Nat
  deriving DecidableEq, Repr

/-- The body of the loop that looks for the longest run of zeros. -/
def spanStep (spans : Span × Span) (segment : UInt16 × Nat) : Span × Span :=
  let (longest, current) := spans
  if segment.1 = 0 then
    let current : Span :=
      { start := if current.len = 0 then segment.2 else current.start, len := current.len + 1 }
    (if current.len > longest.len then current else longest, current)
  else (longest, { start := 0, len := 0 })

def longestZeroes (segments : List UInt16) : Span :=
  (segments.zipIdx.foldl spanStep ({ start := 0, len := 0 }, { start := 0, len := 0 })).1

/-- Segments after the first, each after a colon. -/
def colonSegments (segments : List UInt16) : Text := segments.flatMap fun s ↦ ':' :: hex s

def fmtSubslice (chunk : List UInt16) : Text :=
  match chunk with
  | [] => []
  | first :: tail => hex first ++ colonSegments tail

def Ipv6Addr.toText (addr : Ipv6Addr) : Text :=
  match toIpv4Mapped addr.segments with
  | some ipv4 => "::ffff:".toList ++ ipv4.toText
  | none =>
    let zeroes := longestZeroes addr.segments
    if zeroes.len > 1 then
      fmtSubslice (addr.segments.take zeroes.start) ++ "::".toList ++
        fmtSubslice (addr.segments.drop (zeroes.start + zeroes.len))
    else fmtSubslice addr.segments

def IpAddr.toText : IpAddr → Text
  | .v4 addr => addr.toText
  | .v6 addr => addr.toText

/-! ## Parsing -/

def readGivenChar (target : Char) : Text → Option Text
  | c :: rest => if c = target then some rest else none
  | [] => none

/-- `inner` after a separator, unless it is the first. -/
def readSeparator {α : Type} (sep : Char) (index : Nat) (inner : Text → Option (α × Text))
    (text : Text) : Option (α × Text) :=
  if index > 0 then (readGivenChar sep text).bind inner else inner text

/-- `read_number` with a number of digits: what does not fit `bound` fails. -/
def readNumber (radix maxDigits : Nat) (allowZeroPrefix : Bool) (bound : Nat) (text : Text) :
    Option (Nat × Text) :=
  match readDigits radix maxDigits 0 0 text with
  | none => none
  | some (result, count, rest) =>
    if count = 0 then none
    else if allowZeroPrefix = false ∧ text.head? = some '0' ∧ count > 1 then none
    else if result < bound then some (result, rest)
    else none

def readOctet (text : Text) : Option (UInt8 × Text) :=
  (readNumber 10 3 false 256 text).map fun r ↦ (UInt8.ofNat r.1, r.2)

def readSegment (text : Text) : Option (UInt16 × Text) :=
  (readNumber 16 4 true 65536 text).map fun r ↦ (UInt16.ofNat r.1, r.2)

def readIpv4Addr (text : Text) : Option (Ipv4Addr × Text) := do
  let (a, text) ← readSeparator '.' 0 readOctet text
  let (b, text) ← readSeparator '.' 1 readOctet text
  let (c, text) ← readSeparator '.' 2 readOctet text
  let (d, text) ← readSeparator '.' 3 readOctet text
  some ({ a := a, b := b, c := c, d := d }, text)

/-- `read_groups`, with `remaining` groups of the slice left after the first `i`: the groups,
whether they end in an embedded IPv4 address, and the rest. -/
def readGroups : Nat → Nat → Text → List UInt16 × Bool × Text
  | 0, _, text => ([], false, text)
  | remaining + 1, i, text =>
    -- an IPv4 address takes two groups
    match if remaining ≥ 1 then readSeparator ':' i readIpv4Addr text else none with
    | some (v4, rest) => ([fromBeBytes v4.a v4.b, fromBeBytes v4.c v4.d], true, rest)
    | none =>
      match readSeparator ':' i readSegment text with
      | some (group, rest) =>
        let next := readGroups remaining (i + 1) rest
        (group :: next.1, next.2)
      | none => ([], false, text)

theorem readGroups_length (remaining i : Nat) (text : Text) :
    (readGroups remaining i text).1.length ≤ remaining := by
  induction remaining generalizing i text with
  | zero => exact Nat.le_refl 0
  | succ remaining ih =>
      rw [readGroups]
      split
      · rename_i hread
        split at hread
        · show 2 ≤ remaining + 1
          omega
        · exact absurd hread (by simp)
      · split
        · rename_i rest _
          exact Nat.succ_le_succ (ih (i + 1) rest)
        · exact Nat.zero_le _

/-- The groups around `::`, with the zeros it stands for. -/
def joinGroups (head tail : List UInt16) : List UInt16 :=
  head ++ List.replicate (8 - head.length - tail.length) 0 ++ tail

theorem joinGroups_length {head tail : List UInt16} (h : head.length + tail.length ≤ 8) :
    (joinGroups head tail).length = 8 := by
  rw [joinGroups, List.length_append, List.length_append, List.length_replicate]
  omega

theorem groups_fit (text rest : Text) :
    (readGroups 8 0 text).1.length +
      (readGroups (8 - ((readGroups 8 0 text).1.length + 1)) 0 rest).1.length ≤ 8 := by
  have hhead := readGroups_length 8 0 text
  have htail := readGroups_length (8 - ((readGroups 8 0 text).1.length + 1)) 0 rest
  omega

def readIpv6Addr (text : Text) : Option (Ipv6Addr × Text) :=
  let head := readGroups 8 0 text
  if hfull : head.1.length = 8 then some ({ segments := head.1, length_eq := hfull }, head.2.2)
  -- an IPv4 address is not allowed before `::`
  else if head.2.1 then none
  else
    ((readGivenChar ':' head.2.2).bind (readGivenChar ':')).map fun rest ↦
      let tail := readGroups (8 - (head.1.length + 1)) 0 rest
      ({ segments := joinGroups head.1 tail.1
         length_eq := joinGroups_length (groups_fit text rest) }, tail.2.2)

def readIpAddr (text : Text) : Option (IpAddr × Text) :=
  match readIpv4Addr text with
  | some (addr, rest) => some (.v4 addr, rest)
  | none => (readIpv6Addr text).map fun r ↦ (.v6 r.1, r.2)

/-- `str::parse::<IpAddr>`: nothing may be left over. -/
def IpAddr.parse (text : Text) : Option IpAddr :=
  match readIpAddr text with
  | some (addr, []) => some addr
  | _ => none

example : IpAddr.parse "::ffff:192.0.2.44".toList =
    some (.v6 { segments := [0, 0, 0, 0, 0, 0xffff, 0xc000, 0x22c], length_eq := rfl }) := by
  decide

end TokenWeasel.Net
