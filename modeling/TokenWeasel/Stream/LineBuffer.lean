import TokenWeasel.Library.Lines

/-!
# The line buffer of streamed accounting (`twl-server/src/proxy/stream.rs`)

`LineBuffer::push` hands each complete line to a callback and drops lines of more than `MAX_LINE`
bytes in two ways: by length when their newline is in the buffer, and through the discarding state
when the buffer overflowed before the newline came.  `Tracks` says what either state knows of the
bytes pushed so far.
-/

namespace TokenWeasel.Stream

open Library

abbrev Bytes := List UInt8

def newline : UInt8 := 10

/-- Cap on a single un-terminated line in the parse buffer (1 MiB). -/
def maxLine : Nat := 1024 * 1024

structure LineBuffer where
  buf : Bytes
  discarding : Bool
  deriving DecidableEq, Repr

namespace LineBuffer

def new : LineBuffer := { buf := [], discarding := false }

/-- The bytes behind the first newline: what the loop of the discarding state keeps. -/
def resync : Bytes → Option Bytes
  | [] => none
  | b :: rest => if b = newline then some rest else resync rest

section Push

variable {σ : Type} (onLine : σ → Bytes → σ)

/-- The forward scan over `buf`, at the byte `i`: the callback's state and `nextStart`. -/
def scan (buf : Bytes) : Bytes → Nat → Nat → σ → Nat × σ
  | [], _, nextStart, s => (nextStart, s)
  | b :: rest, i, nextStart, s =>
    if b = newline then
      -- an oversized line is skipped without a call
      if i + 1 - nextStart > maxLine then scan buf rest (i + 1) (i + 1) s
      else scan buf rest (i + 1) (i + 1)
        (onLine s ((buf.drop nextStart).take (i + 1 - nextStart)))
    else scan buf rest (i + 1) nextStart s

/-- The part of `push` behind the discarding state. -/
def scanBuffer (buf : Bytes) (s : σ) : LineBuffer × σ :=
  let scanned := scan onLine buf buf 0 0 s
  let kept := buf.drop scanned.1
  -- a tail that is too long already will never be handed over
  if kept.length > maxLine then ({ buf := [], discarding := true }, scanned.2)
  else ({ buf := kept, discarding := false }, scanned.2)

/-- `LineBuffer::push`, with the state `s` of the callback. -/
def push (lines : LineBuffer) (chunk : Bytes) (s : σ) : LineBuffer × σ :=
  let buf := lines.buf ++ chunk
  if lines.discarding then
    match resync buf with
    -- no newline yet: the buffer is only kept from growing
    | none => ({ buf := if buf.length > maxLine then [] else buf, discarding := true }, s)
    | some rest => scanBuffer onLine rest s
  else scanBuffer onLine buf s

/-- The chunks of a stream, pushed one after another. -/
def pushAll (lines : LineBuffer) (chunks : List Bytes) (s : σ) : LineBuffer × σ :=
  chunks.foldl (fun state chunk ↦ push onLine state.1 chunk state.2) (lines, s)

end Push

def remainder (lines : LineBuffer) : Bytes := if lines.discarding then [] else lines.buf

/-! ## The lines of the bytes pushed -/

/-- The terminated lines the accounting sees. -/
def shortLines (bytes : Bytes) : List Bytes :=
  (terminatedLines newline bytes).filter fun line ↦ line.length ≤ maxLine

/-- What the buffer holds after `bytes` have been pushed in any number of chunks. -/
def Tracks (lines : LineBuffer) (bytes : Bytes) : Prop :=
  lines.buf.length ≤ maxLine ∧
    if lines.discarding then
      newline ∉ lines.buf ∧ maxLine < (unterminatedTail newline bytes).length
    else lines.buf = unterminatedTail newline bytes

theorem tracks_new : Tracks new [] := ⟨Nat.zero_le _, rfl⟩

theorem resync_of_not_mem {bytes : Bytes} (h : newline ∉ bytes) : resync bytes = none := by
  induction bytes with
  | nil => rfl
  | cons b bytes ih =>
      have hb : b ≠ newline := fun heq ↦ h (heq ▸ List.mem_cons_self)
      rw [resync, if_neg hb]
      exact ih fun hmem ↦ h (List.mem_cons_of_mem b hmem)

theorem resync_cons_line {line : Bytes} (h : newline ∉ line) (rest : Bytes) :
    resync (line ++ newline :: rest) = some rest := by
  induction line with
  | nil => rw [List.nil_append, resync, if_pos rfl]
  | cons b line ih =>
      have hb : b ≠ newline := fun heq ↦ h (heq ▸ List.mem_cons_self)
      rw [List.cons_append, resync, if_neg hb]
      exact ih fun hmem ↦ h (List.mem_cons_of_mem b hmem)

theorem shortLines_of_not_mem {bytes : Bytes} (h : newline ∉ bytes) : shortLines bytes = [] := by
  rw [shortLines, (lines_of_not_mem h).1, List.filter_nil]

theorem shortLines_cons_line {line : Bytes} (h : newline ∉ line) (rest : Bytes) :
    shortLines (line ++ newline :: rest) =
      if line.length + 1 > maxLine then shortLines rest
      else (line ++ [newline]) :: shortLines rest := by
  have hlen : (line ++ [newline]).length = line.length + 1 := by
    rw [List.length_append, List.length_singleton]
  rw [shortLines, (lines_cons_line h rest).1]
  by_cases hlong : line.length + 1 > maxLine
  · rw [if_pos hlong, List.filter_cons_of_neg (by rw [hlen]; simpa using hlong)]
    rfl
  · rw [if_neg hlong, List.filter_cons_of_pos (by rw [hlen]; simpa using hlong)]
    rfl

/-! ## One push -/

section Steps

variable {σ : Type} (onLine : σ → Bytes → σ)

/-- Scanning a part without a newline moves on to its end. -/
theorem scan_not_mem (buf : Bytes) {text : Bytes} (h : newline ∉ text) (rest : Bytes)
    (i nextStart : Nat) (s : σ) :
    scan onLine buf (text ++ rest) i nextStart s =
      scan onLine buf rest (i + text.length) nextStart s := by
  induction text generalizing i with
  | nil => rfl
  | cons b text ih =>
      have hb : b ≠ newline := fun heq ↦ h (heq ▸ List.mem_cons_self)
      rw [List.cons_append, scan, if_neg hb, ih fun hmem ↦ h (List.mem_cons_of_mem b hmem),
        List.length_cons]
      congr 1
      omega

/-- The scan from the start of a line hands over the short lines behind it, and stops at the start
of the tail. -/
theorem scan_lines (done bytes : Bytes) (s : σ) :
    ∃ nextStart, scan onLine (done ++ bytes) bytes done.length done.length s =
        (nextStart, (shortLines bytes).foldl onLine s) ∧
      (done ++ bytes).drop nextStart = unterminatedTail newline bytes := by
  induction bytes using line_induction newline generalizing done s with
  | htail bytes h =>
      refine ⟨done.length, ?_, ?_⟩
      · have hscan := scan_not_mem onLine (done ++ bytes) h [] done.length done.length s
        rw [List.append_nil] at hscan
        rw [hscan, shortLines_of_not_mem h]
        rfl
      · rw [List.drop_left, (lines_of_not_mem h).2]
  | hline line rest h ih =>
      have hbuf : done ++ (line ++ newline :: rest) = (done ++ (line ++ [newline])) ++ rest := by
        simp
      have hlen : (done ++ (line ++ [newline])).length = done.length + line.length + 1 := by
        simp; omega
      have hslice : ((done ++ (line ++ newline :: rest)).drop done.length).take
          (done.length + line.length + 1 - done.length) = line ++ [newline] := by
        rw [List.drop_left, show done.length + line.length + 1 - done.length =
          (line ++ [newline]).length by simp; omega,
          show line ++ newline :: rest = (line ++ [newline]) ++ rest by simp, List.take_left]
      rw [scan_not_mem onLine _ h, scan, if_pos rfl, shortLines_cons_line h,
        (lines_cons_line h rest).2]
      by_cases hlong : line.length + 1 > maxLine
      · rw [if_pos (by omega), if_pos hlong, hbuf, ← hlen]
        exact ih _ s
      · rw [if_neg (by omega), if_neg hlong, hslice, hbuf, ← hlen]
        exact ih _ _

/-- From a buffer without discarded text, `push` sees the lines of the buffer. -/
theorem scanBuffer_spec (buf : Bytes) (s : σ) :
    ∃ lines, scanBuffer onLine buf s = (lines, (shortLines buf).foldl onLine s) ∧
      Tracks lines buf := by
  rcases scan_lines onLine [] buf s with ⟨nextStart, hscan, hdrop⟩
  rw [List.nil_append, List.length_nil] at hscan
  rw [List.nil_append] at hdrop
  rw [scanBuffer, hscan, hdrop]
  by_cases hlong : (unterminatedTail newline buf).length > maxLine
  · rw [if_pos hlong]
    exact ⟨_, rfl, Nat.zero_le _, List.not_mem_nil, hlong⟩
  · rw [if_neg hlong]
    exact ⟨_, rfl, Nat.le_of_not_lt hlong, rfl⟩

/-- A push hands over the short lines the chunk completes, and the buffer keeps track. -/
theorem push_spec {lines : LineBuffer} {bytes : Bytes} (h : Tracks lines bytes) (chunk : Bytes)
    (s : σ) :
    ∃ lines', push onLine lines chunk s =
        (lines', (shortLines (unterminatedTail newline bytes ++ chunk)).foldl onLine s) ∧
      Tracks lines' (bytes ++ chunk) := by
  obtain ⟨hshort, htail⟩ := h
  have hmore : ∀ lines', Tracks lines' (unterminatedTail newline bytes ++ chunk) →
      Tracks lines' (bytes ++ chunk) := by
    intro lines' h'
    unfold Tracks at h' ⊢
    rw [(lines_append bytes chunk).2]
    exact h'
  by_cases hdiscarding : lines.discarding = true
  · rw [if_pos hdiscarding] at htail
    obtain ⟨hbuf, hlong⟩ := htail
    have hnot := not_mem_unterminatedTail newline bytes
    rw [push, if_pos hdiscarding]
    cases first_line_split newline chunk with
    | inl hchunk =>
        -- still inside the oversized line
        have hbytes : newline ∉ lines.buf ++ chunk := by simp [hbuf, hchunk]
        have htext : newline ∉ unterminatedTail newline bytes ++ chunk := by simp [hnot, hchunk]
        rw [resync_of_not_mem hbytes, shortLines_of_not_mem htext]
        refine ⟨_, rfl, hmore _ ⟨?_, ?_, ?_⟩⟩
        · show (if _ then [] else lines.buf ++ chunk).length ≤ maxLine
          split
          · exact Nat.zero_le _
          · omega
        · show newline ∉ (if _ then [] else lines.buf ++ chunk)
          split
          · exact List.not_mem_nil
          · exact hbytes
        · rw [(lines_of_not_mem htext).2, List.length_append]
          omega
    | inr hsplit =>
        -- the newline ends the oversized line, which is too long to be handed over
        rcases hsplit with ⟨line, rest, rfl, hline⟩
        have hbytes : newline ∉ lines.buf ++ line := by simp [hbuf, hline]
        have htext : newline ∉ unterminatedTail newline bytes ++ line := by simp [hnot, hline]
        have hskip : shortLines (unterminatedTail newline bytes ++ line ++ newline :: rest) =
            shortLines rest := by
          rw [shortLines_cons_line htext, if_pos (by rw [List.length_append]; omega)]
        rw [← List.append_assoc, resync_cons_line hbytes, ← List.append_assoc, hskip]
        rcases scanBuffer_spec onLine rest s with ⟨lines', heq, htracks⟩
        refine ⟨lines', heq, hmore lines' ?_⟩
        unfold Tracks at htracks ⊢
        rw [← List.append_assoc, (lines_cons_line htext rest).2]
        exact htracks
  · rw [if_neg hdiscarding] at htail
    rw [push, if_neg hdiscarding, htail]
    rcases scanBuffer_spec onLine (unterminatedTail newline bytes ++ chunk) s with
      ⟨lines', heq, htracks⟩
    exact ⟨lines', heq, hmore lines' htracks⟩

end Steps

theorem shortLines_append (bytes chunk : Bytes) :
    shortLines (bytes ++ chunk) =
      shortLines bytes ++ shortLines (unterminatedTail newline bytes ++ chunk) := by
  rw [shortLines, (lines_append bytes chunk).1, List.filter_append]
  rfl

theorem pushAll_spec {σ : Type} (onLine : σ → Bytes → σ) {lines : LineBuffer} {bytes : Bytes}
    (h : Tracks lines bytes) (chunks : List Bytes) (s : σ) :
    ∃ lines', pushAll onLine lines chunks s =
        (lines', (shortLines (unterminatedTail newline bytes ++ chunks.flatten)).foldl onLine s) ∧
      Tracks lines' (bytes ++ chunks.flatten) := by
  induction chunks generalizing lines bytes s with
  | nil =>
      have hnot := not_mem_unterminatedTail newline bytes
      rw [List.flatten_nil, List.append_nil, List.append_nil, shortLines_of_not_mem hnot]
      exact ⟨lines, rfl, h⟩
  | cons chunk chunks ih =>
      rcases push_spec onLine h chunk s with ⟨lines₁, hpush, h₁⟩
      rcases ih h₁ ((shortLines (unterminatedTail newline bytes ++ chunk)).foldl onLine s) with
        ⟨lines₂, hrest, h₂⟩
      refine ⟨lines₂, ?_, by rw [List.flatten_cons, ← List.append_assoc]; exact h₂⟩
      have hsplit := shortLines_append (unterminatedTail newline bytes ++ chunk) chunks.flatten
      rw [pushAll, List.foldl_cons, hpush, List.flatten_cons, ← List.append_assoc, hsplit,
        List.foldl_append, ← (lines_append bytes chunk).2]
      exact hrest

theorem Tracks.remainder_eq {lines : LineBuffer} {bytes : Bytes} (h : Tracks lines bytes) :
    remainder lines =
      if (unterminatedTail newline bytes).length ≤ maxLine then unterminatedTail newline bytes
      else [] := by
  obtain ⟨hshort, htail⟩ := h
  unfold remainder
  by_cases hdiscarding : lines.discarding = true
  · rw [if_pos hdiscarding] at htail ⊢
    rw [if_neg (by omega)]
  · rw [if_neg hdiscarding] at htail ⊢
    rw [← htail, if_pos hshort]

/-- However a stream is cut into chunks, the callback is run on its short lines in order, the
remainder is its tail when that is short and empty otherwise, and the buffer is bounded.  The lines
and the tail make up the stream, and a newline stands at the end of every line and nowhere else. -/
theorem chunking_invariance {σ : Type} (onLine : σ → Bytes → σ) (chunks : List Bytes) (s : σ) :
    let bytes := chunks.flatten
    let tail := unterminatedTail newline bytes
    (pushAll onLine new chunks s).2 = (shortLines bytes).foldl onLine s ∧
      remainder (pushAll onLine new chunks s).1 = (if tail.length ≤ maxLine then tail else []) ∧
      (pushAll onLine new chunks s).1.buf.length ≤ maxLine ∧
      (terminatedLines newline bytes).flatten ++ tail = bytes ∧
      (∀ line ∈ terminatedLines newline bytes, ∃ text, line = text ++ [newline] ∧ newline ∉ text) ∧
      newline ∉ tail := by
  intro bytes tail
  rcases pushAll_spec onLine tracks_new chunks s with ⟨lines, heq, htracks⟩
  rw [heq]
  exact ⟨rfl, htracks.remainder_eq, htracks.1, flatten_lines_append_tail bytes,
    fun line hline ↦ mem_terminatedLines hline, not_mem_unterminatedTail newline bytes⟩

end LineBuffer

end TokenWeasel.Stream
