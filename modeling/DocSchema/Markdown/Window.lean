/-
  DocSchema/Markdown/Window.lean
  ==============================
  **Looking at a text by position.**

  A `Window` is a text cut off at some position.  The scanners here answer positions: where a
  run of characters of one kind ends, where a line ends, where the next line starts.
-/
import DocSchema.Text.Ascii

namespace DocSchema.Markdown

open DocSchema.Text

/-- The characters of a text before `stop`. -/
structure Window where
  chars : Array Char
  stop : Nat

namespace Window

/-- All of a text. -/
def whole (chars : Array Char) : Window :=
  ⟨chars, chars.size⟩

/-- The same text, cut off earlier. -/
def upTo (w : Window) (stop : Nat) : Window :=
  ⟨w.chars, min stop w.stop⟩

/-- The character at a position. -/
def get? (w : Window) (i : Nat) : Option Char :=
  if i < w.stop then w.chars[i]? else none

/-- Whether a given character stands at a position. -/
def holds (w : Window) (i : Nat) (c : Char) : Bool :=
  w.get? i == some c

/-- Whether the character at a position is of a kind. -/
def test (w : Window) (i : Nat) (p : Char → Bool) : Bool :=
  match w.get? i with
  | some c => p c
  | none => false

/-- Whether a word stands at a position. -/
def startsWith (w : Window) : Nat → List Char → Bool
  | _, [] => true
  | i, c :: cs => w.holds i c && w.startsWith (i + 1) cs

/-- Whether a word stands at a position, letters compared without regard to case; the word is
given in lower case. -/
def startsWithNoCase (w : Window) : Nat → List Char → Bool
  | _, [] => true
  | i, c :: cs => w.test i (fun d => lowerAscii d == c) && w.startsWithNoCase (i + 1) cs

/-- Where the run of characters of a kind that starts at `i` ends. -/
def skipWhile (w : Window) (p : Char → Bool) (i : Nat) : Nat :=
  if i < w.stop then
    match w.chars[i]? with
    | some c => if p c then w.skipWhile p (i + 1) else i
    | none => i
  else i
termination_by w.stop - i

/-- Where the run of characters of a kind that ends at `i` starts, no earlier than `low`. -/
def backWhile (w : Window) (p : Char → Bool) (low : Nat) : Nat → Nat
  | 0 => 0
  | i + 1 => if low ≤ i && w.test i p then w.backWhile p low i else i + 1

/-- Where the run of one character that starts at `i` ends. -/
def skipRun (w : Window) (c : Char) (i : Nat) : Nat :=
  w.skipWhile (· == c) i

/-- Skips whitespace within the line. -/
def skipBlanks (w : Window) (i : Nat) : Nat :=
  w.skipWhile isBlank i

/-- The position after the line end that stands at `i`; the end of the text is one. -/
def lineEnd? (w : Window) (i : Nat) : Option Nat :=
  match w.get? i with
  | none => some i
  | some '\n' => some (i + 1)
  | some '\r' => some (if w.holds (i + 1) '\n' then i + 2 else i + 1)
  | some _ => none

/-- The position after the line, if only whitespace stands between `i` and its end. -/
def blankLine? (w : Window) (i : Nat) : Option Nat :=
  w.lineEnd? (w.skipBlanks i)

/-- The position after the next line feed, or the end of the text. -/
def nextLine (w : Window) (i : Nat) : Nat :=
  min w.stop (w.skipWhile (· != '\n') i + 1)

/-- The first position from `i` on where a character stands. -/
def find? (w : Window) (c : Char) (i : Nat) : Option Nat :=
  let j := w.skipWhile (· != c) i
  if j < w.stop then some j else none

/-- The characters between two positions. -/
def slice (w : Window) (first last : Nat) : List Char :=
  (w.chars.extract first last).toList

/-- The text between two positions. -/
def text (w : Window) (first last : Nat) : String :=
  String.ofList (w.slice first last)

end Window

end DocSchema.Markdown
