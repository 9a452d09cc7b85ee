/-
  DocSchema/Markdown/Block.lean
  =============================
  **The block structure of a text.**

  A text is read line by line.  The blocks that are open form a spine of containers, innermost
  first; a line goes on with some of them, closes the rest, may open new ones, and then starts
  or continues a block of text, code or HTML.  The inline content of a block is kept as tokens.

  Every block has the positions of its first character and of the place after its last line.
  A container ends where the line starts that closes it.

  `Outline.read` answers the blocks of a text together with what the whole text defines: the
  destinations of link references and the labels of footnotes.
-/
import DocSchema.Markdown.Html
import DocSchema.Markdown.Token

namespace DocSchema.Markdown

open DocSchema.Text

/-! ### Blocks -/

/-- A stretch of the text that a block holds as it is, or characters in its place. -/
structure Chunk where
  first : Nat
  last : Nat
  replaced : Option (List Char)
  deriving Repr

/-- A cell of a table. -/
structure Cell where
  first : Nat
  last : Nat
  content : List Token
  deriving Repr

/-- A row of a table. -/
structure Row where
  first : Nat
  last : Nat
  cells : List Cell
  deriving Repr

/-- A block that holds no other blocks. -/
inductive Leaf where
  | paragraph (content : List Token)
  | heading (level : Nat) (content : List Token)
  /-- Code; a fenced block has an info string. -/
  | code (info : Option (List Char)) (lines : List Chunk)
  | html (lines : List Chunk)
  | rule
  | table (alignments : List Alignment) (head : Row) (rows : List Row)
  | taskMarker (checked : Bool)
  deriving Repr

/-- The kinds of blocks that hold other blocks. -/
inductive Frame where
  | quote
  /-- A list: whether it is tight, its mark, and the number of its first item. -/
  | list (tight : Bool) (mark : Char) (start : Nat)
  /-- An item, with the indentation of its content. -/
  | item (indent : Nat)
  | footnote (label : List Char)
  deriving Repr

/-- A closed block. -/
inductive Block where
  | leaf (first last : Nat) (leaf : Leaf)
  | container (first last : Nat) (frame : Frame) (children : List Block)
  deriving Repr

/-- What the line structure needs to know of a container. -/
def Frame.container : Frame → Container
  | .quote => .quote
  | .list .. => .list
  | .item indent => .item indent
  | .footnote _ => .footnote

/-- What a link reference stands for. -/
structure LinkTarget where
  destination : List Char
  title : List Char
  deriving Repr

/-- The bytes that a target takes up. -/
def LinkTarget.size (t : LinkTarget) : Nat :=
  (t.destination ++ t.title).foldl (fun n c => n + c.utf8Size) 0

/-! ### The state of reading -/

/-- An open container; its closed children are kept last first. -/
structure OpenBlock where
  first : Nat
  frame : Frame
  children : List Block

/-- The open containers and what else is carried from line to line. -/
structure Outline where
  /-- The open containers, innermost first. -/
  spine : List OpenBlock := []
  /-- The closed blocks outside all open containers, last first. -/
  blocks : List Block := []
  /-- Where the content of an item that is still empty would start. -/
  emptyItem : Option Nat := none
  lastLineBlank : Bool := false
  /-- The task mark that goes to the next paragraph. -/
  task : Option Token := none
  /-- The link references, by the key of their label, last first. -/
  links : List (List Char × LinkTarget) := []
  /-- The keys of the footnote labels. -/
  notes : List (List Char) := []

namespace Outline

/-- The open containers, outermost first. -/
def containers (o : Outline) : List Container :=
  (o.spine.map fun b => b.frame.container).reverse

/-- Adds a closed block to the innermost container. -/
def append (o : Outline) (b : Block) : Outline :=
  match o.spine with
  | top :: rest => { o with spine := { top with children := b :: top.children } :: rest }
  | [] => { o with blocks := b :: o.blocks }

/-- Adds a block without blocks inside. -/
def appendLeaf (o : Outline) (first last : Nat) (leaf : Leaf) : Outline :=
  o.append (.leaf first last leaf)

/-- Opens a container. -/
def push (o : Outline) (first : Nat) (frame : Frame) : Outline :=
  { o with spine := ⟨first, frame, []⟩ :: o.spine }

/-- Closes the innermost container. -/
def pop (o : Outline) (last : Nat) : Outline :=
  match o.spine with
  | [] => o
  | top :: rest =>
    let closed :=
      { o with spine := rest }.append (.container top.first last top.frame top.children.reverse)
    match top.frame with
    | .list true _ _ => { closed with emptyItem := none }
    | _ => closed

/-- Closes containers until `size` are open. -/
def popTo (o : Outline) (size : Nat) (last : Nat) : Outline :=
  Nat.repeat (fun o => o.pop last) (o.spine.length - size) o

/-- The innermost container. -/
def top? (o : Outline) : Option Frame :=
  o.spine.head?.map (·.frame)

/-- Closes an item that has no content and was followed by a blank line. -/
def finishEmptyItem (o : Outline) : Outline :=
  let o := match o.emptyItem, o.lastLineBlank, o.top? with
    | some first, true, some (.item _) => o.pop first
    | _, _, _ => o
  { o with emptyItem := none }

/-- Makes a list loose. -/
def loosen (b : OpenBlock) : OpenBlock :=
  match b.frame with
  | .list _ mark start => { b with frame := .list false mark start }
  | _ => b

/-- Closes a list that is innermost, since what follows is no item of it.  A blank line before
content of an item makes its list loose. -/
def finishList (o : Outline) (last : Nat) : Outline :=
  let o := o.finishEmptyItem
  let o := match o.top? with
    | some (.list ..) => o.pop last
    | _ => o
  if o.lastLineBlank then
    let spine := match o.spine with
      | top :: parent :: rest => top :: loosen parent :: rest
      | spine => spine
    { o with spine, lastLineBlank := false }
  else o

/-- Goes on with a list that is innermost and has the same mark, or opens a new one. -/
def continueList (o : Outline) (first : Nat) (mark : Char) (start : Nat) : Outline :=
  let o := o.finishEmptyItem
  let same := match o.top? with
    | some (.list _ m _) => m == mark
    | _ => false
  if same then
    if o.lastLineBlank then
      let spine := match o.spine with
        | top :: rest => loosen top :: rest
        | [] => []
      { o with spine, lastLineBlank := false }
    else o
  else
    let o := if o.spine.isEmpty then o else o.finishList first
    { o.push first (.list true mark start) with lastLineBlank := false }

end Outline

/-! ### What may interrupt a paragraph -/

def startsFootnote (w : Window) (inTable : Bool) (i : Nat) : Bool :=
  w.holds i '[' && w.holds (i + 1) '^' &&
    match label? w inTable (fun _ => none) (i + 2) with
    | some (stop, _) => w.holds stop ':'
    | none => false

/-- Whether a block starts at `i` that ends a paragraph or table before it. -/
def startsBlock (w : Window) (inside inTable : Bool) (i : Nat) : Bool :=
  (w.lineEnd? i).isSome || (rule? w i).isSome || (headingLevel? w i).isSome ||
    (fence? w i).isSome || w.holds i '>' ||
    (match listMark? w i with
      | some (after, mark, number) =>
        !inside || inTable ||
          ((mark == '-' || mark == '+' || mark == '*' || number == 1) &&
            (w.blankLine? after).isNone)
      | none => false) ||
    (w.holds i '<' && ((htmlEnding? w (i + 1)).isSome || startsBlockTag w (i + 1))) ||
    startsFootnote w inTable i

/-- Counts the bare pipes up to the end of the line: their number, the last one, and where the
line ends. -/
def countPipes (w : Window) : Nat → Bool → Nat → Nat → Nat → Nat × Nat × Nat
  | 0, _, pipes, lastPipe, i => (pipes, lastPipe, i)
  | fuel + 1, escaped, pipes, lastPipe, i =>
    match w.get? i with
    | none => (pipes, lastPipe, i)
    | some c =>
      if isLineEnd c then (pipes, lastPipe, i)
      else if c == '\\' then countPipes w fuel true pipes lastPipe (i + 1)
      else if c == '|' && !escaped then countPipes w fuel false (pipes + 1) i (i + 1)
      else countPipes w fuel false pipes lastPipe (i + 1)

/-- Whether the head of a table with a leading pipe starts at `i`. -/
def startsTable (w : Window) (ks : List Container) (i : Nat) : Bool :=
  if w.holds i '|' then
    let (pipes, lastPipe, stop) := countPipes w (w.stop - i + 1) false 0 i i
    match w.get? stop, w.lineEnd? stop with
    | some _, some next =>
      let (all, c) := enterLine w ks next
      all &&
        match tableRule? w c.pos with
        | some (_, columns) => columns.length == headColumns w pipes i lastPipe
        | none => false
    | _, _ => false
  else false

/-- Whether the line at `i` ends the paragraph before it. -/
def interrupts (w : Window) (ks : List Container) (inside : Bool) (i : Nat) : Bool :=
  startsBlock w inside false i || startsTable w ks i

/-- Whether the line at `i` ends the text before it, or underlines it. -/
def endsText (w : Window) (ks : List Container) (inside : Bool) (i : Nat) : Bool :=
  interrupts w ks inside i || (inside && (underline? w i).isSome)

/-! ### Link references -/

/-- Where text goes on after a line break inside a link reference, unless the next line starts
another block. -/
def joinLine? (w : Window) (ks : List Container) (i : Nat) : Option Cursor :=
  let (inside, c) := enterLine w ks i
  let (deep, c) := c.indent w 4
  if !deep && endsText w ks inside c.pos then none else some c

/-- Passes whitespace with at most one line break; answers whether there was one. -/
def referenceSpace? (w : Window) (ks : List Container) : Nat → Bool → Nat → Option (Nat × Bool)
  | 0, _, _ => none
  | fuel + 1, broken, i =>
    let i := w.skipBlanks i
    match w.lineEnd? i with
    | some next =>
      if broken then none
      else (joinLine? w ks next).bind fun c => referenceSpace? w ks fuel true c.pos
    | none => some (i, broken)

/-- The characters of a title up to its closing mark, last first, and the position after it.  A
title holds no blank line, and all its line ends are line feeds. -/
def titleChars? (w : Window) (ks : List Container) (close : Char) :
    Nat → List Char → Nat → Option (Nat × List Char)
  | 0, _, _ => none
  | fuel + 1, acc, i =>
    match w.get? i with
    | none => none
    | some c =>
      if c == close then some (i + 1, acc)
      else if c == '(' && close == ')' then none
      else if isLineEnd c then
        match (w.lineEnd? i).bind (joinLine? w ks) with
        | some cursor =>
          let next := (cursor.skipIndent w).pos
          if (w.blankLine? next).isSome then none
          else titleChars? w ks close fuel ('\n' :: acc) next
        | none => none
      else if c == '\\' && w.test (i + 1) (fun d => !isLineEnd d) then
        titleChars? w ks close fuel ((w.slice (i + 1) (i + 2)) ++ c :: acc) (i + 2)
      else titleChars? w ks close fuel (c :: acc) (i + 1)

/-- Reads the title of a link reference. -/
def referenceTitle? (w : Window) (ks : List Container) (i : Nat) :
    Option (Nat × List Char) :=
  let close := match w.get? i with
    | some '"' => some '"'
    | some '\'' => some '\''
    | some '(' => some ')'
    | _ => none
  match close with
  | none => none
  | some close =>
    (titleChars? w ks close (w.stop - i + 1) [] (i + 1)).map fun (next, acc) =>
      let chars := acc.reverse.toArray
      (next, unescape (Window.whole chars) false 0 chars.size)

/-- Reads a link reference at `i`: the position after it, the key of its label, and its
target. -/
def linkReference? (w : Window) (ks : List Container) (i : Nat) :
    Option (Nat × List Char × LinkTarget) := do
  guard (w.holds i '[')
  let (afterLabel, label) ← label? w false (fun j => (joinLine? w ks j).map (·.pos)) (i + 1)
  guard (w.holds afterLabel ':')
  let (start, _) ← referenceSpace? w ks 3 false (afterLabel + 1)
  let (stop, first, last) ← destination? w start
  guard (start < stop)
  let destination := unescape w false first last
  let plain := (stop, labelKey label, ⟨destination, []⟩)
  match referenceSpace? w ks 3 false stop with
  | none => some plain
  | some (next, broken) =>
    let broken := broken || stop == w.stop
    if next == stop && !broken then none
    else
      let titled := (referenceTitle? w ks next).filter fun (after, _) =>
        (w.blankLine? after).isSome
      match titled with
      | some (after, title) => some (after, labelKey label, ⟨destination, title⟩)
      | none => if broken then some plain else none

/-! ### Blocks of lines -/

/-- A line of code or HTML: the columns left over from its indentation, then its text without
a carriage return in its last place but one. -/
def lineChunks (w : Window) (spaces first last : Nat) : List Chunk :=
  let lead := if spaces == 0 then [] else [⟨first, first, some (List.replicate spaces ' ')⟩]
  let body :=
    if 2 ≤ last && w.holds (last - 2) '\r' && w.test (last - 1) (fun c => c.toNat < 128) then
      [(first, last - 2), (last - 1, last)]
    else [(first, last)]
  lead ++ (body.filter fun (a, b) => a < b).map fun (a, b) => ⟨a, b, none⟩

/-- The lines of an indented block of code: its chunks, the end of its last line that is not
blank, where reading goes on, and whether the last line was blank. -/
structure IndentedLines where
  chunks : List Chunk
  last : Nat
  next : Nat
  lastBlank : Bool

/-- Reads lines of indented code from `i` on; `kept` are the chunks up to the last line that is
not blank, `all` those of every line. -/
def indentedLines (w : Window) (ks : List Container) :
    Nat → List Chunk → List Chunk → Nat → Bool → Nat → Nat → IndentedLines
  | 0, kept, _, last, blank, _, i => ⟨kept, last, i, blank⟩
  | fuel + 1, kept, all, last, blank, spaces, i =>
    let next := w.nextLine i
    let all := all ++ lineChunks w spaces i next
    let (kept, last) := if blank then (kept, last) else (all, next)
    let (inside, c) := enterLine w ks next
    let (deep, c) := c.indent w 4
    if !inside || !(deep || c.atLineEnd w) || c.pos == w.stop then ⟨kept, last, next, blank⟩
    else
      indentedLines w ks fuel kept all last (w.blankLine? c.pos).isSome c.spare c.pos

/-- Reads lines of fenced code from `i` on, the opening fence being indented by `indent`: the
chunks, the end of the block, and where reading goes on.  What follows a closing fence on its
line is passed; a line outside the containers ends the block and is read again. -/
def fencedLines (w : Window) (ks : List Container) (indent : Nat) (mark : Char) (size : Nat) :
    Nat → List Chunk → Nat → List Chunk × Nat × Nat
  | 0, acc, i => (acc, i, i)
  | fuel + 1, acc, i =>
    let (inside, c) := enterLine w ks i
    if !inside then (acc, i, i)
    else
      let (_, c) := c.indent w indent
      let (deep, closing) := c.indent w (4 - indent)
      match if deep then none else closingFence? w mark size closing.pos with
      | some stop => (acc, stop, (w.blankLine? stop).getD stop)
      | none =>
        let next := w.nextLine c.pos
        fencedLines w ks indent mark size fuel (acc ++ lineChunks w c.spare c.pos next) next

/-- When a block of HTML ends. -/
inductive HtmlEnd where
  /-- After the line that holds a text. -/
  | after (ending : List Char)
  /-- Before a blank line. -/
  | blankLine

/-- Whether the text between two positions holds a word. -/
def holdsWord (w : Window) (word : List Char) (first last : Nat) : Bool :=
  (afterWord? (w.upTo last) word first).isSome

/-- Reads lines of HTML from `i` on: the chunks, the end of the block, and where reading goes
on. -/
def htmlLines (w : Window) (ks : List Container) (kind : HtmlEnd) :
    Nat → List Chunk → Nat → Nat → List Chunk × Nat × Nat
  | 0, acc, _, i => (acc, i, i)
  | fuel + 1, acc, spaces, i =>
    let next := w.nextLine i
    let acc := acc ++ lineChunks w spaces i next
    let (inside, c) := enterLine w ks next
    let ended := match kind with
      | .after ending => holdsWord w ending i next
      | .blankLine => c.atLineEnd w
    if !inside || ended then (acc, next, next)
    else
      let blank := match kind with
        | .after _ => false
        | .blankLine => (w.blankLine? c.pos).isSome
      if c.pos == w.stop || blank then (acc, c.pos, next)
      else htmlLines w ks kind fuel acc c.spare c.pos

/-! ### Tables -/

/-- Reads the cells of a row; `acc` holds those before, last first. -/
def rowCells (w : Window) (ks : List Container) : Nat → List Cell → Nat → List Cell × Nat
  | 0, acc, i => (acc, i)
  | fuel + 1, acc, i =>
    let first := if w.holds i '|' then i + 1 else i
    let start := w.skipBlanks first
    match w.lineEnd? start with
    | some next => (acc, next)
    | none =>
      let line := lexLine w ks .cell start
      rowCells w ks fuel (⟨first, line.next, line.tokens.reverse⟩ :: acc) line.next

/-- Reads a row of `columns` cells: cells that are missing are empty, those in excess are
dropped.  A row without any cell is none. -/
def tableRow? (w : Window) (ks : List Container) (columns i : Nat) : Option (Row × Nat) :=
  let (acc, next) := rowCells w ks (w.stop - i + 1) [] i
  if acc.isEmpty then none
  else
    let empty : Cell := ⟨next, next, []⟩
    let cells := acc.reverse.take columns ++ List.replicate (columns - acc.length) empty
    some (⟨i, next, cells⟩, next)

/-- Reads the rows under the head of a table, and answers where it ends. -/
def tableRows (w : Window) (ks : List Container) (columns : Nat) :
    Nat → List Row → Nat → List Row × Nat
  | 0, acc, i => (acc.reverse, i)
  | fuel + 1, acc, i =>
    let (inside, c) := enterLine w ks i
    let c := c.skipIndent w
    if !inside || startsBlock w true true c.pos then (acc.reverse, i)
    else
      match tableRow? w ks columns c.pos with
      | none => (acc.reverse, i)
      | some (row, next) => tableRows w ks columns fuel (row :: acc) next

/-! ### Paragraphs and headings -/

/-- What the lines of a paragraph turned out to be. -/
structure TextBlock where
  leaf : Leaf
  last : Nat

/-- Lets the last token, tokens being kept last first, end at a position. -/
def trimLast (tokens : List Token) (stop : Token → Nat) : List Token :=
  match tokens with
  | t :: rest => { t with last := stop t } :: rest
  | [] => []

/-- Reads the lines of a paragraph from the one at `i` on; `tokens` are those so far, last
first. -/
def paragraphLines (w : Window) (ks : List Container) (start : Nat) :
    Nat → List Token → Nat → TextBlock
  | 0, tokens, i => ⟨.paragraph tokens.reverse, i⟩
  | fuel + 1, tokens, i =>
    let line := lexLine w ks (if i == start then .tableHead else .plain) i
    let table : Option (List Alignment × Row) := match line.stop with
      | .table columns => (tableRow? w ks columns.length start).map fun row => (columns, row.1)
      | _ => none
    match table with
    | some (columns, head) =>
      let (rows, last) := tableRows w ks columns.length (w.stop - i + 1) [] line.next
      ⟨.table columns head rows, last⟩
    | none =>
      let tokens := line.tokens ++ tokens
      -- a backslash that turns out to end the block is text
      let closed := match line.stop with
        | .broken ⟨first, _, .hardBreak true⟩ => addText tokens first (first + 1)
        | _ => tokens
      let (inside, c) := enterLine w ks line.next
      let (deep, c) := c.indent w 4
      match if !deep && inside then underline? w c.pos else none with
      | some (level, last) =>
        let trimmed :=
          if closed.length == tokens.length then
            trimLast closed fun t => w.backWhile isBlank start t.last
          else closed
        ⟨.heading level trimmed.reverse, last⟩
      | none =>
        if (!deep && interrupts w ks inside c.pos) || (c.skipIndent w).atLineEnd w then
          ⟨.paragraph closed.reverse, line.next⟩
        else
          let tokens := match line.stop with
            | .broken t => t :: tokens
            | _ => tokens
          paragraphLines w ks start fuel tokens (c.skipIndent w).pos

/-- Where the content of a heading ends: before trailing spaces and closing marks. -/
def headingEnd (w : Window) (first last : Nat) : Nat :=
  let limit := w.backWhile (fun c => c == ' ' || isLineEnd c) first last
  let closer := w.backWhile (· == '#') first limit
  if closer == first then first
  else
    let spaces := w.backWhile (· == ' ') first closer
    if spaces < closer then spaces else limit

/-- Reads a heading of a level that starts at `i`; answers its block and the next line. -/
def headingLine (w : Window) (ks : List Container) (level i : Nat) : Leaf × Nat :=
  let after := i + level
  match w.lineEnd? after with
  | some next => (.heading level [], next)
  | none =>
    let first := w.skipBlanks after
    let line := lexLine w ks .plain first
    -- a backslash at the end of a heading is text
    let tokens := match line.stop with
      | .broken ⟨backslash, _, .hardBreak true⟩ => addText line.tokens backslash (backslash + 1)
      | _ => line.tokens
    let stop := headingEnd w first line.next
    let tokens := if stop == first then [] else trimLast tokens fun _ => stop
    (.heading level tokens.reverse, line.next)

/-! ### Lines -/

/-- Opens a footnote definition at `i`; answers where its content starts. -/
def Outline.openFootnote? (o : Outline) (w : Window) (i : Nat) : Option (Outline × Nat) :=
  if w.holds i '[' && w.holds (i + 1) '^' then
    match label? w false (fun _ => none) (i + 2) with
    | some (stop, label) =>
      if w.holds stop ':' then
        let o := o.finishList i
        let o := match o.top? with
          | some (.footnote _) => o.pop i
          | _ => o
        let o := { o.push i (.footnote label) with notes := labelKey label :: o.notes }
        some (o, w.skipBlanks (stop + 1))
      else none
    | none => none
  else none

/-- A list mark at the cursor: the cursor after it, its character, the number, and the
indentation of the item's content. -/
def openItem? (w : Window) (outer : Nat) (c : Cursor) : Option (Cursor × Char × Nat × Nat) :=
  match w.get? c.pos with
  | none => none
  | some ch =>
    if ch == '-' || ch == '+' || ch == '*' then
      if (rule? w c.pos).isSome then none
      else confirm { c with pos := c.pos + 1 } ch 0 (outer + 2)
    else if isDigit ch then
      let stop := w.skipWhile isDigit c.pos
      if 9 < stop - c.pos then none
      else
        let number := (w.slice c.pos stop).foldl (fun n d => n * 10 + digitValue d) 0
        match w.get? stop with
        | some d =>
          if d == '.' || d == ')' then
            confirm { c with pos := stop + 1 } d number (outer + 1 + (stop + 1 - c.pos))
          else none
        | none => none
    else none
where
  /-- A mark needs a space or the end of the line after it. -/
  confirm (c : Cursor) (ch : Char) (number indent : Nat) :
      Option (Cursor × Char × Nat × Nat) :=
    let (spaced, c) := c.indent w 1
    if !(spaced || c.atLineEnd w) then none
    else if (w.blankLine? c.pos).isSome then some (c, ch, number, indent)
    else
      let (columns, further) := c.indentUpTo w 4
      if columns < 4 then some (further, ch, number, indent + columns)
      else some (c, ch, number, indent)

/-- A task mark at the cursor, followed by whitespace: the cursor after it, and whether it is
ticked. -/
def taskMark? (w : Window) (c : Cursor) : Option (Cursor × Bool) :=
  let (_, c) := c.indentUpTo w 3
  if w.holds c.pos '[' && w.holds (c.pos + 2) ']' && w.test (c.pos + 3) isBlank then
    if w.test (c.pos + 1) isBlank then some ({ c with pos := c.pos + 3 }, false)
    else if w.holds (c.pos + 1) 'x' || w.holds (c.pos + 1) 'X' then
      some ({ c with pos := c.pos + 3 }, true)
    else none
  else none

/-- What opening the containers of a line came to. -/
inductive Opened where
  /-- The rest of the line is blank; the next line starts here. -/
  | blank (o : Outline) (next : Nat)
  /-- The content of the line starts at the cursor; the line, or the content of the footnote
  opened last on it, started at `start`. -/
  | content (o : Outline) (start : Nat) (c : Cursor)

/-- Opens the containers that the line has marks for. -/
def openContainers (w : Window) : Nat → Outline → Nat → Cursor → Opened
  | 0, o, start, c => .content o start c
  | fuel + 1, o, start, c =>
    let (outer, inner) := c.indentUpTo w 4
    if 4 ≤ outer then .content o start c
    else
      match o.openFootnote? w inner.pos with
      | some (o, start) => openContainers w fuel o start (Cursor.start start)
      | none =>
        match openItem? w outer inner with
        | some (after, mark, number, indent) =>
          let first := inner.pos - outer
          let o := (o.continueList first mark number).push first (.item indent)
          match w.blankLine? after.pos with
          | some next => .blank { o with emptyItem := some next } next
          | none =>
            match taskMark? w after with
            | some (marked, checked) =>
              match w.blankLine? marked.pos with
              | some next =>
                let o := o.appendLeaf after.pos marked.pos (.taskMarker checked)
                .blank { o with emptyItem := some next } next
              | none =>
                let task := ⟨after.pos, marked.pos, .taskMarker checked⟩
                openContainers w fuel { o with task := some task } start marked
            | none => openContainers w fuel o start after
        | none =>
          match inner.quoteMark? w with
          | some after =>
            openContainers w fuel ((o.finishList start).push inner.pos .quote) start after
          | none => .content o start c

/-- Notes a blank line. -/
def Outline.noteBlank (o : Outline) : Outline :=
  match o.spine with
  | top :: rest =>
    match top.frame with
    | .quote => o
    | .item _ =>
      if o.emptyItem.isSome then
        -- an item that starts with a blank line holds nothing that comes after a second one
        { o with spine := { top with frame := .item 0 } :: rest, lastLineBlank := true }
      else { o with lastLineBlank := true }
    | _ => { o with lastLineBlank := true }
  | [] => { o with lastLineBlank := true }

def htmlKind? (w : Window) (i : Nat) : Option HtmlEnd :=
  if w.holds i '<' then
    match htmlEnding? w (i + 1) with
    | some ending => some (.after ending.toList)
    | none =>
      if startsBlockTag w (i + 1) || lonelyTag w i then some .blankLine else none
  else none

/-- Reads the link references that follow one another from `i` on, in the line that starts at
`start`: where text starts that is none, or the next line if a block follows.  What comes after
a reference goes on as a paragraph would: a line that could not end a paragraph is text. -/
def Outline.readReferences (w : Window) (ks : List Container) :
    Nat → Outline → Nat → Nat → Outline × (Nat ⊕ Nat)
  | 0, o, _, i => (o, .inl i)
  | fuel + 1, o, start, i =>
    match linkReference? w ks i with
    | none => (o, .inl i)
    | some (last, key, target) =>
      let o := { o with links := (key, target) :: o.links }
      match w.blankLine? last with
      | none => (o.finishList start, .inr last)
      | some next =>
        let (inside, c) := enterLine w ks next
        let (deep, inner) := c.indent w 4
        if !deep && interrupts w ks inside inner.pos then (o.finishList start, .inr next)
        else Outline.readReferences w ks fuel o next (inner.skipIndent w).pos

/-- Reads a block of text at `i`, in the line that starts at `start`: link references, and the
paragraph after them. -/
def Outline.readText (o : Outline) (w : Window) (ks : List Container) (start i : Nat) :
    Outline × Nat :=
  let fuel := w.stop - i + 2
  match Outline.readReferences w ks fuel o start i with
  | (o, .inr next) => (o, next)
  | (o, .inl i) =>
    let o := o.finishList i
    let text := paragraphLines w ks i fuel o.task.toList i
    ({ o.appendLeaf i text.last text.leaf with task := none }, text.last)

/-- Reads the block whose content starts at the cursor; answers the next line.  A block other
than text ends the list before it where the line starts. -/
def Outline.readContent (o : Outline) (w : Window) (start : Nat) (c : Cursor) : Outline × Nat :=
  let ks := o.containers
  let fuel := w.stop - c.pos + 2
  let (indent, inner) := c.indentUpTo w 4
  let i := inner.pos
  if indent == 4 then
    let code := indentedLines w ks fuel [] [] i false inner.spare i
    ({ (o.finishList start).appendLeaf i code.last (.code none code.chunks) with
        lastLineBlank := code.lastBlank }, code.next)
  else
    match htmlKind? w i with
    | some kind =>
      let (chunks, last, next) := htmlLines w ks kind fuel [] (max c.spare indent) i
      ((o.finishList start).appendLeaf i last (.html chunks), next)
    | none =>
      match rule? w i with
      | some next => ((o.finishList start).appendLeaf i next .rule, next)
      | none =>
        match headingLevel? w i with
        | some level =>
          let (leaf, next) := headingLine w ks level i
          ((o.finishList start).appendLeaf i next leaf, next)
        | none =>
          match fence? w i with
          | some (mark, size) =>
            let first := w.skipBlanks (i + size)
            let next := w.nextLine first
            let info := unescape w false first (w.backWhile isAsciiSpace first next)
            let (chunks, last, after) := fencedLines w ks indent mark size fuel [] next
            ((o.finishList start).appendLeaf i last (.code (some info) chunks), after)
          | none => o.readText w ks start i

/-- Reads a line, and the lines that its block goes on for; answers the next one. -/
def Outline.readBlock (o : Outline) (w : Window) (start : Nat) : Outline × Nat :=
  let (matched, c) := matchContainers w o.containers (Cursor.start start)
  let o := o.popTo matched start
  match openContainers w (w.stop - start + 1) o start c with
  | .blank o next => (o, next)
  | .content o start c =>
    match w.blankLine? c.pos with
    | some next => (o.noteBlank, next)
    | none => o.readContent w start c

/-- Reads blocks up to the end of the text, then closes all containers. -/
def Outline.readBlocks (w : Window) : Nat → Outline → Nat → Outline
  | 0, o, i => o.popTo 0 i
  | fuel + 1, o, i =>
    if i < w.stop then
      let (o, next) := o.readBlock w i
      Outline.readBlocks w fuel o next
    else o.popTo 0 i

/-- The block structure of a text. -/
def Outline.read (w : Window) : Outline :=
  Outline.readBlocks w (w.stop + 1) {} 0

end DocSchema.Markdown
