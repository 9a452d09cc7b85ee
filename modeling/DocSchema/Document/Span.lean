/-
  DocSchema/Document/Span.lean
  ============================
  **Places and stretches of a source text.**

  A position is a line and a column, both counted from one, the column in characters.  A span
  has its two positions and its two byte offsets, the end exclusive.  One span contains another
  (`Span.contains`) when it does so in both measures.

  `LineIndex` knows the position of every byte offset of a text; `LineIndex.span` makes the
  span of a range of bytes, without the line breaks that the range ends with.
-/
import DocSchema.Json.Value
import DocSchema.Text.Ascii

namespace DocSchema

open DocSchema.Text DocSchema.Json

/-! ### Positions -/

/-- A line and a column, counted from one. -/
structure Position where
  line : Nat
  column : Nat
  deriving DecidableEq, Repr

namespace Position

def start : Position :=
  ⟨1, 1⟩

/-- Positions are ordered by line, then by column. -/
def le (a b : Position) : Bool :=
  a.line < b.line || (a.line == b.line && a.column ≤ b.column)

/-- The text `line:column`. -/
def text (p : Position) : String :=
  s!"{p.line}:{p.column}"

/-- The position after a character. -/
def advance (p : Position) (c : Char) : Position :=
  if c = '\n' then ⟨p.line + 1, 1⟩ else ⟨p.line, p.column + 1⟩

def toJson (p : Position) : Value :=
  .object [("line", .ofNat p.line), ("column", .ofNat p.column)]

end Position

/-! ### Spans -/

/-- A stretch of a text: where it starts, and the place after its last character. -/
structure Span where
  start : Position
  stop : Position
  startOffset : Nat
  stopOffset : Nat
  deriving DecidableEq, Repr

namespace Span

/-- The empty span at the start of a text. -/
def zero : Span :=
  ⟨.start, .start, 0, 0⟩

/-- Whether `inner` lies within `outer`, by offsets and by positions. -/
def contains (outer inner : Span) : Bool :=
  outer.startOffset ≤ inner.startOffset && inner.stopOffset ≤ outer.stopOffset &&
    outer.start.le inner.start && inner.stop.le outer.stop

/-- Whether the span covers no text. -/
def isEmpty (s : Span) : Bool :=
  s.startOffset == s.stopOffset

/-- The number of lines that the span touches. -/
def lineCount (s : Span) : Nat :=
  (s.stop.line - s.start.line) + 1

/-- The text `line:column-line:column`. -/
def text (s : Span) : String :=
  s!"{s.start.text}-{s.stop.text}"

def toJson (s : Span) : Value :=
  .object [("start", s.start.toJson), ("end", s.stop.toJson),
    ("start_offset", .ofNat s.startOffset), ("end_offset", .ofNat s.stopOffset)]

end Span

/-! ### Offsets and positions -/

/-- What is known of a byte offset: its position, and whether the byte there is a line break
character. -/
structure Mark where
  position : Position
  isBreak : Bool
  deriving Repr

/-- The marks of all byte offsets of a text, the end included. -/
structure LineIndex where
  marks : Array Mark
  /-- The number of bytes. -/
  size : Nat

namespace LineIndex

/-- Adds the marks of one character: one for each of its bytes. -/
def addChar (acc : Array Mark × Position) (c : Char) : Array Mark × Position :=
  let mark : Mark := ⟨acc.2, isLineEnd c⟩
  (Nat.repeat (fun a => a.push mark) c.utf8Size acc.1, acc.2.advance c)

def ofChars (cs : List Char) : LineIndex :=
  let (marks, last) := cs.foldl addChar (#[], Position.start)
  ⟨marks.push ⟨last, false⟩, marks.size⟩

/-- The position of a byte offset; past the end, that of the end. -/
def position (ix : LineIndex) (offset : Nat) : Position :=
  (ix.marks[min offset ix.size]?.map (·.position)).getD .start

/-- Whether the byte at an offset is a line break character. -/
def isBreak (ix : LineIndex) (offset : Nat) : Bool :=
  (ix.marks[offset]?.map (·.isBreak)).getD false

/-- Drops line breaks from the end of a range of bytes. -/
def trimBreaks (ix : LineIndex) (first : Nat) : Nat → Nat
  | 0 => 0
  | last + 1 => if first ≤ last && ix.isBreak last then ix.trimBreaks first last else last + 1

/-- The span of a range of bytes, without line breaks at its end. -/
def span (ix : LineIndex) (first last : Nat) : Span :=
  let first := min first ix.size
  let last := ix.trimBreaks first (min last ix.size)
  ⟨ix.position first, ix.position last, first, last⟩

/-- The span of the whole text, line breaks included. -/
def whole (ix : LineIndex) : Span :=
  ⟨.start, ix.position ix.size, 0, ix.size⟩

end LineIndex

end DocSchema
