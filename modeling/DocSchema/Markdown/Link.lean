/-
  DocSchema/Markdown/Link.lean
  ============================
  **The parts of links: labels, destinations, titles.**

  Labels match without regard to case and to the amount of whitespace (`labelKey`).
  Destinations and titles are kept as written until `unescape` takes out backslashes and
  character references.  In a table the cell is cut out first, so there `\|` stands for a pipe
  everywhere.
-/
import DocSchema.Markdown.Entity
import DocSchema.Markdown.Line
import DocSchema.Text.CaseFold

namespace DocSchema.Markdown

open DocSchema.Text

/-- Whether a backslash at `i` takes away the meaning of the next character. -/
def isEscape (w : Window) (i : Nat) : Bool :=
  w.holds i '\\' && w.test (i + 1) isAsciiPunctuation

/-! ### Labels -/

/-- The form of a label that is compared. -/
def labelKey (label : List Char) : List Char :=
  foldCase label

/-- Reads whitespace inside a label; answers the position after it.  `onBreak` says where the
text goes on after a line break, or that it does not. -/
def labelSpace? (w : Window) (onBreak : Nat → Option Nat) : Nat → Bool → Nat → Option Nat
  | 0, _, _ => none
  | fuel + 1, broken, i =>
    if w.test i isBlank then labelSpace? w onBreak fuel broken (i + 1)
    else if w.test i isLineEnd then
      if broken then none
      else
        match w.lineEnd? i with
        | some next => (onBreak next).bind (labelSpace? w onBreak fuel true)
        | none => none
    else some i

/-- How large a label may be. -/
def labelLimit : Nat := 1000

/-- The rest of a label up to its bracket; `visible` once it holds more than whitespace.  `size`
counts towards the limit: whitespace and what it skips, two for an escape, and the bytes of
characters above ASCII; other characters are free. -/
def labelRest? (w : Window) (inTable : Bool) (onBreak : Nat → Option Nat) :
    Nat → Bool → Nat → List Char → Nat → Option (Nat × List Char)
  | 0, _, _, _, _ => none
  | fuel + 1, visible, size, acc, i =>
    if labelLimit ≤ size then none
    else
      match w.get? i with
      | none => none
      | some c =>
        if c == '[' then none
        else if c == ']' then if visible then some (i + 1, acc.reverse) else none
        else if inTable && c == '\\' && w.holds (i + 1) '|' then
          labelRest? w inTable onBreak fuel true (size + 1) ('|' :: acc) (i + 2)
        else if inTable && c == '|' && acc.head? == some '\\' then
          -- the second of two backslashes belongs to the pipe
          labelRest? w inTable onBreak fuel true size ('|' :: acc.tail) (i + 1)
        else if isEscape w i then
          match w.get? (i + 1) with
          | some d => labelRest? w inTable onBreak fuel true (size + 2) (d :: c :: acc) (i + 2)
          | none => none
        else if isAsciiSpace c then
          match labelSpace? w onBreak (w.stop - i + 1) false i with
          | some next =>
            labelRest? w inTable onBreak fuel visible (size + (next - i)) (' ' :: acc) next
          | none => none
        else
          labelRest? w inTable onBreak fuel true
            (if c.toNat < 128 then size else size + c.utf8Size) (c :: acc) (i + 1)

/-- A text without the spaces that it starts and ends with. -/
def trimSpaces (cs : List Char) : List Char :=
  let isSpace (c : Char) : Bool := c == ' '
  ((cs.dropWhile isSpace).reverse.dropWhile isSpace).reverse

/-- Reads a label whose bracket has been taken: the position after its closing bracket, and
its text with each run of whitespace as one space and none at its ends. -/
def label? (w : Window) (inTable : Bool) (onBreak : Nat → Option Nat) (i : Nat) :
    Option (Nat × List Char) :=
  (labelRest? w inTable onBreak (w.stop - i + 1) false 0 [] i).map fun (stop, label) =>
    (stop, trimSpaces label)

/-! ### Destinations -/

/-- A destination in angle brackets, from after its bracket on. -/
def pointyDestination? (w : Window) (first : Nat) : Nat → Nat → Option (Nat × Nat × Nat)
  | 0, _ => none
  | fuel + 1, i =>
    match w.get? i with
    | none => none
    | some c =>
      if c == '\n' || c == '\r' || c == '<' then none
      else if c == '>' then some (i + 1, first, i)
      else if isEscape w i then pointyDestination? w first fuel (i + 2)
      else pointyDestination? w first fuel (i + 1)

/-- How deep the parentheses of a bare destination may be nested. -/
def parenthesisLimit : Nat := 32

/-- A bare destination: no whitespace or control characters, parentheses in pairs. -/
def bareDestination? (w : Window) (first : Nat) :
    Nat → Nat → Nat → Option (Nat × Nat × Nat)
  | 0, _, _ => none
  | fuel + 1, nest, i =>
    let stop := if nest == 0 then some (i, first, i) else none
    match w.get? i with
    | none => stop
    | some c =>
      if c ≤ ' ' then stop
      else if c == '(' then
        if parenthesisLimit < nest then none else bareDestination? w first fuel (nest + 1) (i + 1)
      else if c == ')' then
        if nest == 0 then stop else bareDestination? w first fuel (nest - 1) (i + 1)
      else if isEscape w i then bareDestination? w first fuel nest (i + 2)
      else bareDestination? w first fuel nest (i + 1)

/-- Reads a destination: the position after it and the bounds of its text. -/
def destination? (w : Window) (i : Nat) : Option (Nat × Nat × Nat) :=
  if w.holds i '<' then pointyDestination? w (i + 1) (w.stop - i + 1) (i + 1)
  else bareDestination? w i (w.stop - i + 1) 0 i

/-! ### Backslashes and references -/

/-- The text with escapes, character references and carriage returns taken out. -/
def unescapeFrom (w : Window) (inTable : Bool) (stop : Nat) : Nat → Nat → List Char
  | 0, _ => []
  | fuel + 1, i =>
    if stop ≤ i then []
    else
      match w.get? i with
      | none => []
      | some c =>
        if inTable && c == '\\' && w.holds (i + 1) '\\' && w.holds (i + 2) '|' then
          '|' :: unescapeFrom w inTable stop fuel (i + 3)
        else if isEscape w i then
          match w.get? (i + 1) with
          | some d => d :: unescapeFrom w inTable stop fuel (i + 2)
          | none => []
        else if c == '&' then
          match entity? w i with
          | some (next, text) => text ++ unescapeFrom w inTable stop fuel next
          | none => c :: unescapeFrom w inTable stop fuel (i + 1)
        else if c == '\r' then unescapeFrom w inTable stop fuel (i + 1)
        else c :: unescapeFrom w inTable stop fuel (i + 1)

/-- The text between two positions with escapes and references taken out. -/
def unescape (w : Window) (inTable : Bool) (first last : Nat) : List Char :=
  unescapeFrom (w.upTo last) inTable last (last - first + 1) first

end DocSchema.Markdown
