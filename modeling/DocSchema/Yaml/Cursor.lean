/-
  DocSchema/Yaml/Cursor.lean
  ==========================
  **A place in a YAML text, and the classes of its characters.**

  Besides line feeds and carriage returns, the next-line character and the two Unicode
  separators end a line.
-/
import DocSchema.Text.Ascii

namespace DocSchema.Yaml

open DocSchema.Text

/-! ### Characters -/

/-- A character that a YAML text may hold. -/
def isAllowed (c : Char) : Bool :=
  let n := c.toNat
  n == 0x09 || n == 0x0A || n == 0x0D || (0x20 ≤ n && n ≤ 0x7E) || n == 0x85 ||
    (0xA0 ≤ n && n ≤ 0xFFFD) || 0x10000 ≤ n

/-- A character that ends a line. -/
def isBreak (c : Char) : Bool :=
  let n := c.toNat
  n == 0x0A || n == 0x0D || n == 0x85 || n == 0x2028 || n == 0x2029

/-- A space or a tab. -/
def isWhite (c : Char) : Bool :=
  c == ' ' || c == '\t'

/-- A character of a name: of an anchor, a directive or a tag handle. -/
def isNameChar (c : Char) : Bool :=
  isAlphanumeric c || c == '_' || c == '-'

/-! ### Places -/

/-- A place in a text. -/
structure Cursor where
  chars : Array Char
  pos : Nat
  line : Nat
  column : Nat

namespace Cursor

/-- The character at a distance. -/
def ahead? (c : Cursor) (n : Nat) : Option Char :=
  c.chars[c.pos + n]?

/-- The current character. -/
def peek? (c : Cursor) : Option Char :=
  c.ahead? 0

/-- Whether a character stands at a distance. -/
def holds (c : Cursor) (n : Nat) (ch : Char) : Bool :=
  c.ahead? n == some ch

/-- Whether the character at a distance is of a kind. -/
def test (c : Cursor) (n : Nat) (p : Char → Bool) : Bool :=
  match c.ahead? n with
  | some ch => p ch
  | none => false

/-- Whether whitespace, a line end or the end of the text is at a distance. -/
def blankOrEnd (c : Cursor) (n : Nat) : Bool :=
  match c.ahead? n with
  | some ch => isWhite ch || isBreak ch
  | none => true

/-- Whether a line end or the end of the text is here. -/
def breakOrEnd (c : Cursor) : Bool :=
  match c.peek? with
  | some ch => isBreak ch
  | none => true

/-- Passes a character within a line. -/
def next (c : Cursor) : Cursor :=
  { c with pos := c.pos + 1, column := c.column + 1 }

/-- Passes a line end, if one is here. -/
def nextLine (c : Cursor) : Cursor :=
  if c.holds 0 '\r' && c.holds 1 '\n' then
    { c with pos := c.pos + 2, line := c.line + 1, column := 0 }
  else if c.test 0 isBreak then
    { c with pos := c.pos + 1, line := c.line + 1, column := 0 }
  else c

/-- The character that stands for the line end here: a line feed, but the two Unicode
separators stand for themselves. -/
def breakChars (c : Cursor) : List Char :=
  match c.peek? with
  | some ch =>
    if ch.toNat == 0x2028 || ch.toNat == 0x2029 then [ch]
    else if isBreak ch then ['\n'] else []
  | none => []

/-- Passes characters of a kind within a line; answers them. -/
def takeWhile (c : Cursor) (p : Char → Bool) : List Char × Cursor :=
  let rest := (c.chars.extract c.pos c.chars.size).toList.takeWhile p
  (rest, { c with pos := c.pos + rest.length, column := c.column + rest.length })

/-- Passes spaces and tabs. -/
def skipWhite (c : Cursor) : Cursor :=
  go (c.chars.size - c.pos) c
where
  /-- Passes at most so many. -/
  go : Nat → Cursor → Cursor
    | 0, c => c
    | fuel + 1, c => if c.test 0 isWhite then go fuel c.next else c

/-- Passes everything up to the end of the line. -/
def skipToBreak (c : Cursor) : Cursor :=
  go (c.chars.size - c.pos) c
where
  /-- Passes at most so many. -/
  go : Nat → Cursor → Cursor
    | 0, c => c
    | fuel + 1, c => if c.breakOrEnd then c else go fuel c.next

/-- Whether a mark that starts or ends a document is here, at the start of a line. -/
def atDocumentMark (c : Cursor) : Bool :=
  c.column == 0 && c.blankOrEnd 3 &&
    ((c.holds 0 '-' && c.holds 1 '-' && c.holds 2 '-') ||
      (c.holds 0 '.' && c.holds 1 '.' && c.holds 2 '.'))

/-- Passes the blank and comment rest of a line, with its end. -/
def skipRestOfLine? (c : Cursor) : Option Cursor :=
  let c := c.skipWhite
  let c := if c.holds 0 '#' then c.skipToBreak else c
  if c.breakOrEnd then some c.nextLine else none

end Cursor

end DocSchema.Yaml
