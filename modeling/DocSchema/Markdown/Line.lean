/-
  DocSchema/Markdown/Line.lean
  ============================
  **The start of a line: indentation, container marks and block marks.**

  A line first continues the containers that are open (`matchContainers`), then may open new
  ones, then starts a block.  A `Cursor` walks over this part of the line.  It counts columns:
  a tab reaches to the next multiple of four, and may be used up in part.

  The recognisers for block marks answer the position after the mark.
-/
import DocSchema.Markdown.Window

namespace DocSchema.Markdown

open DocSchema.Text

/-! ### Walking over indentation -/

/-- A place in the start of a line. -/
structure Cursor where
  pos : Nat
  /-- Where the count of columns towards the next tab stop began. -/
  tabStart : Nat
  /-- Columns of a tab before `pos` that are not used up. -/
  spare : Nat
  deriving Repr

namespace Cursor

def start (i : Nat) : Cursor :=
  ⟨i, i, 0⟩

/-- Takes up to `n` columns of spaces and tabs; answers how many were missing. -/
def takeSpaces (w : Window) (c : Cursor) (n : Nat) : Nat × Cursor :=
  let used := min c.spare n
  go (n - used) ⟨c.pos, c.tabStart, c.spare - used⟩
where
  /-- Takes columns from the text; each space takes one, a tab what it holds. -/
  go (n : Nat) (c : Cursor) : Nat × Cursor :=
    if n = 0 ∨ w.stop ≤ c.pos then (n, c)
    else
      match w.chars[c.pos]? with
      | some ' ' => go (n - 1) ⟨c.pos + 1, c.tabStart, c.spare⟩
      | some '\t' =>
        let columns := 4 - (c.pos - c.tabStart) % 4
        let taken := min columns n
        go (n - taken) ⟨c.pos + 1, c.pos + 1, columns - taken⟩
      | _ => (n, c)
  termination_by w.stop - c.pos

/-- Takes `n` columns, or as many as there are; answers whether there were enough. -/
def indent (w : Window) (c : Cursor) (n : Nat) : Bool × Cursor :=
  let (missing, c) := c.takeSpaces w n
  (missing == 0, c)

/-- Takes at most `n` columns; answers how many. -/
def indentUpTo (w : Window) (c : Cursor) (n : Nat) : Nat × Cursor :=
  let (missing, c) := c.takeSpaces w n
  (n - missing, c)

/-- Takes all spaces and tabs. -/
def skipIndent (w : Window) (c : Cursor) : Cursor :=
  ⟨w.skipWhile (fun ch => ch == ' ' || ch == '\t') c.pos, c.tabStart, 0⟩

def atLineEnd (w : Window) (c : Cursor) : Bool :=
  match w.get? c.pos with
  | none => true
  | some ch => isLineEnd ch

/-- Takes the mark of a block quote and one column of space after it. -/
def quoteMark? (w : Window) (c : Cursor) : Option Cursor :=
  if w.holds c.pos '>' then some ((Cursor.takeSpaces w { c with pos := c.pos + 1 } 1).2) else none

end Cursor

/-! ### Block marks -/

/-- A thematic break: three or more of one mark and nothing else but spaces. -/
def rule? (w : Window) (i : Nat) : Option Nat :=
  match w.get? i with
  | some c =>
    if c == '*' || c == '-' || c == '_' then
      let stop := w.skipWhile (fun d => d == c || d == ' ' || d == '\t') i
      match w.lineEnd? stop with
      | some next =>
        if 3 ≤ ((w.slice i stop).filter (· == c)).length then some next else none
      | none => none
    else none
  | none => none

/-- The level of a heading that starts with `#` marks. -/
def headingLevel? (w : Window) (i : Nat) : Option Nat :=
  let after := w.skipRun '#' i
  let level := after - i
  let ends := match w.get? after with
    | none => true
    | some c => isAsciiSpace c
  if ends && 1 ≤ level && level ≤ 6 then some level else none

/-- The underline of a heading: its level and the start of the next line. -/
def underline? (w : Window) (i : Nat) : Option (Nat × Nat) :=
  match w.get? i with
  | some '=' => (w.blankLine? (w.skipRun '=' i)).map fun next => (1, next)
  | some '-' => (w.blankLine? (w.skipRun '-' i)).map fun next => (2, next)
  | _ => none

/-- An opening code fence: its mark and length. -/
def fence? (w : Window) (i : Nat) : Option (Char × Nat) :=
  match w.get? i with
  | some c =>
    if c == '\x60' || c == '~' then
      let after := w.skipRun c i
      if after - i < 3 then none
      -- the rest of a line that opens with backticks holds none
      else if c == '\x60' && (w.slice after (w.nextLine after)).contains c then none
      else some (c, after - i)
    else none
  | none => none

/-- A closing fence of at least `size` marks; answers the end of the line, before its break.
The end of the text closes any fence. -/
def closingFence? (w : Window) (mark : Char) (size : Nat) (i : Nat) : Option Nat :=
  if w.stop ≤ i then some i
  else
    let after := w.skipRun mark i
    if after - i < size then none
    else
      let stop := w.skipRun ' ' after
      (w.lineEnd? stop).map fun _ => stop

/-- A list mark at a position: its end, its character and its number. -/
def listMark? (w : Window) (i : Nat) : Option (Nat × Char × Nat) :=
  match w.get? i with
  | some c =>
    if c == '-' || c == '+' || c == '*' then confirm (i + 1) c 0
    else if isDigit c then
      let after := min (w.skipWhile isDigit i) (i + 9)
      let number := (w.slice i after).foldl (fun n d => n * 10 + digitValue d) 0
      match w.get? after with
      | some d => if d == '.' || d == ')' then confirm (after + 1) d number else none
      | none => none
    else none
  | none => none
where
  /-- The mark is followed by a space or the end of the line. -/
  confirm (after : Nat) (c : Char) (number : Nat) : Option (Nat × Char × Nat) :=
    if w.test after (fun d => d == ' ' || d == '\t') then some (after, c, number)
    else (w.lineEnd? after).map fun _ => (after, c, number)

/-! ### Containers -/

/-- A block that holds other blocks, as far as its later lines are concerned. -/
inductive Container where
  | quote
  | list
  | item (indent : Nat)
  | footnote
  deriving Repr

def Container.resume? (w : Window) (c : Cursor) : Container → Option Cursor
  | .quote => ((c.takeSpaces w 3).2).quoteMark? w
  | .list => some c
  | .item n =>
    let (enough, next) := c.indent w n
    if enough || next.atLineEnd w then some next else none
  | .footnote =>
    let (enough, next) := c.indent w 4
    if enough || next.atLineEnd w then some next else none

/-- Continues containers from the outermost on, as many as the line goes on with. -/
def matchContainers (w : Window) : List Container → Cursor → Nat × Cursor
  | [], c => (0, c)
  | k :: ks, c =>
    match k.resume? w c with
    | some next =>
      let (n, c) := matchContainers w ks next
      (n + 1, c)
    | none => (0, c)

/-- Where the content of the line at `i` starts, and whether all containers go on. -/
def enterLine (w : Window) (ks : List Container) (i : Nat) : Bool × Cursor :=
  let (n, c) := matchContainers w ks (Cursor.start i)
  (n == ks.length, c)

end DocSchema.Markdown
