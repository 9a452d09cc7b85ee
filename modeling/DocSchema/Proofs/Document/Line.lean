/-
  DocSchema/Proofs/Document/Line.lean
  ===================================
  **Positions, read from the text line by line.**

  The position of an offset can be read from the text itself: the line is the number of lines that
  start up to the offset, and the column is told by the part of the text between the start of the
  last of them and the offset (`readPosition?`).  Such a reading may fail: there may be no such
  line, or no such part, as when the offset is inside of a character.  So may the reading of a byte
  past the end, where line breaks are dropped from a range (`readSpan?`).

  On boundaries of characters, and past the end of the text, nothing fails, and what is read is what
  the index of the text has (`readPosition?_eq`, `readSpan?_eq`).
-/
import DocSchema.Proofs.Document.Span
import Mathlib.Data.List.Induction
import Mathlib.Data.List.TakeWhile

namespace DocSchema

open DocSchema.Json DocSchema.Text

/-! ### Parts of a text -/

/-- What comes after some bytes; none if these end inside of a character or past the text. -/
def skipBytes? : List Char → Nat → Option (List Char)
  | cs, 0 => some cs
  | [], _ + 1 => none
  | c :: cs, n + 1 => if c.utf8Size ≤ n + 1 then skipBytes? cs (n + 1 - c.utf8Size) else none

/-- The characters of some bytes; none if these end inside of a character or past the text. -/
def takeBytes? : List Char → Nat → Option (List Char)
  | _, 0 => some []
  | [], _ + 1 => none
  | c :: cs, n + 1 =>
    if c.utf8Size ≤ n + 1 then (takeBytes? cs (n + 1 - c.utf8Size)).map (c :: ·) else none

/-- The part of a text between two byte offsets. -/
def slice? (cs : List Char) (first last : Nat) : Option (List Char) :=
  if first ≤ last then (skipBytes? cs first).bind (takeBytes? · (last - first)) else none

variable {cs before after : List Char} {o first last : Nat}

theorem skipBytes?_append (before after : List Char) :
    skipBytes? (before ++ after) (byteCount before) = some after := by
  induction before with
  | nil => cases after <;> rfl
  | cons c before ih =>
    obtain ⟨n, hn⟩ := Nat.exists_eq_add_one_of_ne_zero (Nat.ne_of_gt (Char.utf8Size_pos c))
    have hcount : byteCount (c :: before) = n + byteCount before + 1 := by
      rw [byteCount_cons]
      omega
    rw [hcount, List.cons_append, skipBytes?, if_pos (by omega), ← ih]
    congr 1
    omega

theorem takeBytes?_append (before after : List Char) :
    takeBytes? (before ++ after) (byteCount before) = some before := by
  induction before with
  | nil => cases after <;> rfl
  | cons c before ih =>
    obtain ⟨n, hn⟩ := Nat.exists_eq_add_one_of_ne_zero (Nat.ne_of_gt (Char.utf8Size_pos c))
    have hcount : byteCount (c :: before) = n + byteCount before + 1 := by
      rw [byteCount_cons]
      omega
    have hrest : n + byteCount before + 1 - c.utf8Size = byteCount before := by omega
    rw [hcount, List.cons_append, takeBytes?, if_pos (by omega), hrest, ih]
    rfl

theorem slice?_append (front part after : List Char) :
    slice? (front ++ part ++ after) (byteCount front) (byteCount (front ++ part)) = some part := by
  have hle : byteCount front ≤ byteCount (front ++ part) := by simp
  have hlength : byteCount (front ++ part) - byteCount front = byteCount part := by simp
  rw [slice?, if_pos hle, hlength, List.append_assoc, skipBytes?_append, Option.bind_some,
    takeBytes?_append]

/-! ### Line starts -/

/-- The offsets where further lines start in characters that themselves start at an offset. -/
def furtherStarts : Nat → List Char → List Nat
  | _, [] => []
  | o, c :: cs =>
    let next := o + c.utf8Size
    if c = '\n' then next :: furtherStarts next cs else furtherStarts next cs

/-- The offsets where the lines of a text start. -/
def lineStarts (cs : List Char) : List Nat :=
  0 :: furtherStarts 0 cs

theorem furtherStarts_append (o : Nat) (before after : List Char) :
    furtherStarts o (before ++ after) =
      furtherStarts o before ++ furtherStarts (o + byteCount before) after := by
  induction before generalizing o with
  | nil => rfl
  | cons c before ih =>
    rw [List.cons_append, furtherStarts, furtherStarts, byteCount_cons, ← Nat.add_assoc, ih]
    split <;> rfl

theorem mem_furtherStarts (h : first ∈ furtherStarts o cs) :
    o < first ∧ first ≤ o + byteCount cs := by
  induction cs generalizing o with
  | nil => exact absurd h List.not_mem_nil
  | cons c cs ih =>
    have hpos := Char.utf8Size_pos c
    have hrest : first ∈ furtherStarts (o + c.utf8Size) cs →
        o < first ∧ first ≤ o + byteCount (c :: cs) := by
      intro h
      obtain ⟨hlt, hle⟩ := ih h
      rw [byteCount_cons]
      omega
    rw [furtherStarts] at h
    split at h
    · rcases List.mem_cons.1 h with rfl | h
      · rw [byteCount_cons]
        omega
      · exact hrest h
    · exact hrest h

/-- The lines that start up to an offset are those of the text before it. -/
theorem takeWhile_lineStarts (before after : List Char) :
    (lineStarts (before ++ after)).takeWhile (· ≤ byteCount before) = lineStarts before := by
  have hbefore : ∀ x ∈ furtherStarts 0 before, decide (x ≤ byteCount before) = true := by
    intro x hx
    have hle := (mem_furtherStarts hx).2
    simpa using hle
  have hafter : (furtherStarts (0 + byteCount before) after).takeWhile
      (· ≤ byteCount before) = [] := by
    rw [List.takeWhile_eq_nil_iff]
    intro hpos
    have hlt := (mem_furtherStarts (List.getElem_mem hpos)).1
    simpa using hlt
  rw [lineStarts, lineStarts, furtherStarts_append, List.takeWhile_cons_of_pos (by simp),
    List.takeWhile_append_of_pos hbefore, hafter, List.append_nil]

/-- The last line of a text, and what comes before it. -/
theorem exists_last_line (cs : List Char) : ∃ front line, cs = front ++ line ∧
    (lineStarts cs).getLast? = some (byteCount front) ∧
    Position.start.pass cs = ⟨(lineStarts cs).length, line.length + 1⟩ := by
  induction cs using List.reverseRecOn with
  | nil => exact ⟨[], [], rfl, rfl, rfl⟩
  | append_singleton cs c ih =>
    obtain ⟨front, line, rfl, hlast, hpass⟩ := ih
    have hpass' : Position.start.pass (front ++ line ++ [c]) =
        (Position.start.pass (front ++ line)).advance c := Position.pass_append _ _ _
    have hstarts : lineStarts (front ++ line ++ [c]) = lineStarts (front ++ line) ++
        furtherStarts (byteCount (front ++ line)) [c] := by
      rw [lineStarts, furtherStarts_append, Nat.zero_add]
      rfl
    rw [hpass', hpass, hstarts]
    by_cases hc : c = '\n'
    · subst hc
      refine ⟨front ++ line ++ ['\n'], [], (List.append_nil _).symm, ?_, ?_⟩
      · simp [furtherStarts, Nat.add_assoc]
      · simp [furtherStarts, Position.advance]
    · refine ⟨front, line ++ [c], by simp, ?_, ?_⟩
      · simp [furtherStarts, hc, hlast]
      · simp [furtherStarts, Position.advance, hc]

/-! ### Positions -/

/-- The position of an offset, read from the text. -/
def readPosition? (cs : List Char) (o : Nat) : Option Position :=
  match ((lineStarts cs).takeWhile (· ≤ o)).length with
  | 0 => none
  | above + 1 => do
    let start ← (lineStarts cs)[above]?
    let part ← slice? cs start o
    return ⟨above + 1, part.length + 1⟩

theorem readPosition?_append (before after : List Char) :
    readPosition? (before ++ after) (byteCount before) = some (Position.start.pass before) := by
  obtain ⟨front, line, rfl, hlast, hpass⟩ := exists_last_line before
  have hlength : (lineStarts (front ++ line)).length =
      (furtherStarts 0 (front ++ line)).length + 1 := rfl
  have hstart : (lineStarts (front ++ line ++ after))[(furtherStarts 0 (front ++ line)).length]? =
      some (byteCount front) := by
    rw [lineStarts, furtherStarts_append, ← List.cons_append,
      List.getElem?_append_left (Nat.lt_succ_self _)]
    rw [List.getLast?_eq_getElem?] at hlast
    exact hlast
  unfold readPosition?
  rw [takeWhile_lineStarts, hpass, hlength]
  dsimp only
  rw [hstart]
  simp only [Option.bind_eq_bind, Option.bind_some, slice?_append]
  rfl

/-- On a boundary the position can be read. -/
theorem readPosition?_eq (h : OnBoundary cs o) :
    readPosition? cs o = some ((LineIndex.ofChars cs).position o) := by
  obtain ⟨before, after, rfl, rfl⟩ := h
  rw [readPosition?_append, LineIndex.position_ofChars, positionIn_append]

/-! ### Spans -/

/-- Whether the byte at an offset is a line break character; none past the end. -/
def readBreak? : List Char → Nat → Option Bool
  | [], _ => none
  | c :: cs, o => if o < c.utf8Size then some (isLineEnd c) else readBreak? cs (o - c.utf8Size)

/-- Drops line breaks from the end of a range of bytes. -/
def trimBreaks? (cs : List Char) (first : Nat) : Nat → Option Nat
  | 0 => some 0
  | last + 1 =>
    if first ≤ last then do
      if ← readBreak? cs last then trimBreaks? cs first last else return last + 1
    else some (last + 1)

/-- The span of a range of bytes, read from the text. -/
def readSpan? (cs : List Char) (first last : Nat) : Option Span := do
  let first := min first (byteCount cs)
  let last ← trimBreaks? cs first (min last (byteCount cs))
  return ⟨← readPosition? cs first, ← readPosition? cs last, first, last⟩

theorem readBreak?_eq (h : o < byteCount cs) : readBreak? cs o = some (isBreakIn cs o) := by
  induction cs generalizing o with
  | nil => cases h
  | cons c cs ih =>
    rw [byteCount_cons] at h
    rw [readBreak?, isBreakIn]
    split
    · rfl
    · exact ih (by omega)

theorem trimBreaks?_eq (h : last ≤ byteCount cs) :
    trimBreaks? cs first last = some ((LineIndex.ofChars cs).trimBreaks first last) := by
  induction last with
  | zero => rfl
  | succ last ih =>
    rw [trimBreaks?, LineIndex.trimBreaks, LineIndex.isBreak_ofChars, readBreak?_eq (by omega),
      ih (by omega)]
    by_cases hfirst : first ≤ last <;> cases isBreakIn cs last <;> simp [hfirst]

/-- A boundary, or an offset past the end of the text. -/
def InReach (cs : List Char) (o : Nat) : Prop :=
  OnBoundary cs o ∨ byteCount cs ≤ o

theorem InReach.min (h : InReach cs o) : OnBoundary cs (min o (byteCount cs)) := by
  rcases h with h | h
  · have hle := LineIndex.onBoundary_le_size h
    rw [LineIndex.size_ofChars] at hle
    rwa [Nat.min_eq_left hle]
  · rw [Nat.min_eq_right h]
    exact ⟨cs, [], (List.append_nil cs).symm, rfl⟩

/-- The span of a range can be read if its ends are on boundaries or past the end. -/
theorem readSpan?_eq (hfirst : InReach cs first) (hlast : InReach cs last) :
    readSpan? cs first last = some ((LineIndex.ofChars cs).span first last) := by
  have hstop : OnBoundary cs ((LineIndex.ofChars cs).trimBreaks (min first (byteCount cs))
      (min last (byteCount cs))) := LineIndex.onBoundary_trimBreaks hlast.min
  have htrim : trimBreaks? cs (min first (byteCount cs)) (min last (byteCount cs)) =
      some ((LineIndex.ofChars cs).trimBreaks (min first (byteCount cs))
        (min last (byteCount cs))) := trimBreaks?_eq (Nat.min_le_right _ _)
  unfold readSpan? LineIndex.span
  dsimp only
  rw [LineIndex.size_ofChars, htrim, readPosition?_eq hfirst.min]
  simp only [Option.bind_eq_bind, Option.bind_some, readPosition?_eq hstop]
  rfl

end DocSchema
