/-
  DocSchema/Markdown/Token.lean
  =============================
  **A line of text as tokens.**

  `lexLine` cuts a line at the characters that may mean something: delimiter runs, brackets,
  backticks, `<`, character references, escapes.  What each one means is settled later, when
  the whole block is known.  The line ends in a soft break or a hard break, or is found to be
  the head of a table, or ends with the text.

  Inside a table cell a line ends at the next bare pipe.
-/
import DocSchema.Markdown.Link
import DocSchema.Text.Punctuation

namespace DocSchema.Markdown

open DocSchema.Text

/-! ### Tokens -/

/-- The horizontal alignment of a table column. -/
inductive Alignment where
  | none
  | left
  | center
  | right
  deriving DecidableEq, Repr

/-- What a stretch of a line may be. -/
inductive TokenKind where
  /-- The characters themselves. -/
  | text
  /-- Other characters in their place. -/
  | replaced (chars : List Char)
  | softBreak
  /-- A hard break, by a backslash or by spaces. -/
  | hardBreak (backslash : Bool)
  /-- A delimiter run. -/
  | delimiter (mark : Char) (canOpen canClose : Bool)
  /-- A run of backticks; an escaped one starts with one that is plain text. -/
  | backticks (escaped : Bool)
  | lessThan
  | imageOpen
  | linkOpen
  /-- A closing bracket; `false` once it is known to end no reference. -/
  | linkClose (mayRefer : Bool)
  | taskMarker (checked : Bool)
  /-- A block that stands between text in an item of a tight list, by its place among the blocks
  of the item. -/
  | block (index : Nat)
  deriving Repr

/-- Whether what a stretch is depends on the rest of the block. -/
def TokenKind.isOpen : TokenKind → Bool
  | .delimiter .. | .backticks _ | .lessThan | .imageOpen | .linkOpen | .linkClose _ => true
  | _ => false

/-- A stretch of the text and what it may be. -/
structure Token where
  first : Nat
  last : Nat
  kind : TokenKind
  deriving Repr

/-- Adds the text between two positions, unless it is empty, to tokens that are kept last
first. -/
def addText (tokens : List Token) (first last : Nat) : List Token :=
  if first < last then ⟨first, last, .text⟩ :: tokens else tokens

/-! ### Delimiter runs -/

/-- How pipes are taken. -/
inductive PipeMode where
  /-- As text. -/
  | plain
  /-- As text, unless the next line makes this one the head of a table. -/
  | tableHead
  /-- As the end of a cell. -/
  | cell
  deriving DecidableEq, Repr

/-- Whether a bare pipe stands before `i` in a line that starts at `start`. -/
def afterPipe (w : Window) (start i : Nat) : Bool :=
  start < i && w.holds (i - 1) '|' && !(start + 1 < i && w.holds (i - 2) '\\')

/-- Whether the run of `size` marks at `i` may open emphasis. -/
def canOpenAt (w : Window) (mode : PipeMode) (mark : Char) (size start i : Nat) : Bool :=
  match w.get? (i + size) with
  | none => false
  | some next =>
    if isUnicodeSpace next then false
    else if i == start then true
    else if mode == .cell && afterPipe w start i then true
    else if mode == .cell && next == '|' then false
    else if mark == '*' && !isPunctuation next then true
    else if mark == '~' && 1 < size then true
    else
      match w.get? (i - 1) with
      | none => true
      | some prev =>
        if mark == '~' && prev == '~' && !isPunctuation next then true
        else isUnicodeSpace prev || isPunctuation prev

/-- Whether the run of `size` marks at `i` may close emphasis. -/
def canCloseAt (w : Window) (mode : PipeMode) (mark : Char) (size start i : Nat) : Bool :=
  if i == start then false
  else
    match w.get? (i - 1) with
    | none => false
    | some prev =>
      if isUnicodeSpace prev then false
      else
        match w.get? (i + size) with
        | none => true
        | some next =>
          if mode == .cell && afterPipe w start i then false
          else if mode == .cell && next == '|' then true
          else if (mark == '*' || (mark == '~' && 1 < size)) && !isPunctuation prev then true
          else if mark == '~' && prev == '~' then true
          else isUnicodeSpace next || isPunctuation next

/-! ### Heads of tables -/

/-- The columns of a delimiter row, so far. -/
structure HeadScan where
  columns : List Alignment
  current : Alignment
  /-- Nothing of the current column has been seen. -/
  fresh : Bool
  /-- The current column has a hyphen. -/
  hyphen : Bool
  anyPipe : Bool
  anyHyphen : Bool

/-- Takes one character of a delimiter row. -/
def HeadScan.step? (s : HeadScan) (c : Char) : Option HeadScan :=
  if c == ' ' then some s
  else if c == ':' then
    let align := match s.fresh, s.current with
      | true, .none => .left
      | false, .left => .center
      | false, .none => .right
      | _, a => a
    some { s with current := align, fresh := false }
  else if c == '-' then some { s with fresh := false, hyphen := true, anyHyphen := true }
  else if c == '|' then
    if s.hyphen then
      some { s with
        columns := s.current :: s.columns, current := .none, fresh := true, hyphen := false,
        anyPipe := true }
    else none
  else none

/-- Reads the row of hyphens under the head of a table: the start of the next line and the
alignments. -/
def tableRule? (w : Window) (i : Nat) : Option (Nat × List Alignment) :=
  let (columns, c) := (Cursor.start i).indentUpTo w 4
  if 4 ≤ columns || w.stop ≤ c.pos then none
  else
    let lead := w.holds c.pos '|'
    let first := if lead then c.pos + 1 else c.pos
    let stop := w.skipWhile (fun d => !isLineEnd d) first
    let start : HeadScan := ⟨[], .none, true, false, lead, false⟩
    match (w.slice first stop).foldlM HeadScan.step? start with
    | none => none
    | some s =>
      let columns := if s.fresh then s.columns else s.current :: s.columns
      match w.lineEnd? stop with
      | some next => if s.anyPipe && s.anyHyphen then some (next, columns.reverse) else none
      | none => none

/-- The number of columns of a head with a number of bare pipes, the last at `lastPipe`. -/
def headColumns (w : Window) (pipes start lastPipe : Nat) : Nat :=
  let pipes := if w.holds (w.skipBlanks start) '|' then pipes - 1 else pipes
  if (w.blankLine? (lastPipe + 1)).isSome then pipes else pipes + 1

/-! ### Lines -/

/-- How a line ended. -/
inductive LineStop where
  /-- With the text, or at the end of a cell. -/
  | done
  /-- With a break. -/
  | broken (token : Token)
  /-- The line is the head of a table. -/
  | table (alignments : List Alignment)

/-- The tokens of a line, last first, where the next line starts, and how this one ended. -/
structure LexedLine where
  tokens : List Token
  next : Nat
  stop : LineStop

/-- What has been seen of a line. -/
structure LineState where
  /-- Where text that is not yet a token starts. -/
  textStart : Nat
  tokens : List Token
  pipes : Nat
  lastPipe : Nat

/-- Ends a line at the line break at `i`. -/
def endLine (w : Window) (ks : List Container) (mode : PipeMode) (start : Nat) (s : LineState)
    (i next : Nat) : LexedLine :=
  let backslashes := i - w.backWhile (· == '\\') 0 i
  if backslashes % 2 == 1 && next < w.stop then
    ⟨addText s.tokens s.textStart (i - 1), next, .broken ⟨i - 1, next, .hardBreak true⟩⟩
  else
    let head :=
      if mode == .tableHead && 0 < s.pipes then
        let (all, c) := enterLine w ks next
        if all then
          (tableRule? w c.pos).filter fun (_, columns) =>
            columns.length == headColumns w s.pipes start s.lastPipe
        else none
      else none
    match head with
    | some (after, columns) => ⟨s.tokens, after, .table columns⟩
    | none =>
      let stripped := w.backWhile isBlank 0 i
      if 2 ≤ i - stripped then
        ⟨addText s.tokens s.textStart stripped, next,
          .broken ⟨stripped, next, .hardBreak false⟩⟩
      else
        ⟨addText s.tokens s.textStart stripped, next, .broken ⟨i, next, .softBreak⟩⟩

/-- Ends a line at the end of the text or of a cell. -/
def closeLine (w : Window) (s : LineState) (i : Nat) : LexedLine :=
  ⟨addText s.tokens s.textStart (w.backWhile isBlank s.textStart i), i, .done⟩

/-- Adds the text before `i` and a token there. -/
def LineState.push (s : LineState) (i last : Nat) (kind : TokenKind) : LineState :=
  { s with textStart := last, tokens := ⟨i, last, kind⟩ :: addText s.tokens s.textStart i }

/-- Adds the text before a backslash at `i`; what is escaped begins at `textStart`. -/
def LineState.escape (s : LineState) (i textStart : Nat) : LineState :=
  { s with textStart, tokens := addText s.tokens s.textStart i }

/-- Cuts a line into tokens from `i` on. -/
def lexFrom (w : Window) (ks : List Container) (mode : PipeMode) (start : Nat) :
    Nat → LineState → Nat → LexedLine
  | 0, s, i => closeLine w s i
  | fuel + 1, s, i =>
    match w.get? i with
    | none => closeLine w s i
    | some c =>
      let go := lexFrom w ks mode start fuel
      if isLineEnd c then
        if mode == .cell then closeLine w s i
        else
          match w.lineEnd? i with
          | some next => endLine w ks mode start s i next
          | none => closeLine w s i
      else if c == '\\' then
        if w.test (i + 1) isAsciiPunctuation then
          if w.holds (i + 1) '\x60' then
            let last := w.skipRun '\x60' (i + 1)
            let s := s.escape i (i + 1)
            go { s with
              textStart := last, tokens := ⟨i + 1, last, .backticks true⟩ :: s.tokens } last
          else if mode == .cell && w.holds (i + 1) '\\' && w.holds (i + 2) '|' then
            go (s.escape i (i + 2)) (i + 3)
          else go (s.escape i (i + 1)) (i + 2)
        else go s (i + 1)
      else if c == '*' || c == '_' || c == '~' then
        let last := w.skipRun c i
        let size := last - i
        let canOpen := canOpenAt w mode c size start i
        let canClose := canCloseAt w mode c size start i
        if (canOpen || canClose) && (c != '~' || size ≤ 2) then
          go (s.push i last (.delimiter c canOpen canClose)) last
        else go s last
      else if c == '\x60' then
        let last := w.skipRun c i
        go (s.push i last (.backticks false)) last
      else if c == '<' && !w.holds (i + 1) '\\' then go (s.push i (i + 1) .lessThan) (i + 1)
      else if c == '!' && w.holds (i + 1) '[' then go (s.push i (i + 2) .imageOpen) (i + 2)
      else if c == '[' then go (s.push i (i + 1) .linkOpen) (i + 1)
      else if c == ']' then go (s.push i (i + 1) (.linkClose true)) (i + 1)
      else if c == '&' then
        match entity? w i with
        | some (last, text) => go (s.push i last (.replaced text)) last
        | none => go s (i + 1)
      else if c == '|' then
        if i != 0 && w.holds (i - 1) '\\' then go s (i + 1)
        else if mode == .cell then closeLine w s i
        else go { s with pipes := s.pipes + 1, lastPipe := i } (i + 1)
      else go s (i + 1)

def lexLine (w : Window) (ks : List Container) (mode : PipeMode) (start : Nat) : LexedLine :=
  lexFrom w ks mode start (w.stop - start + 1) ⟨start, [], 0, start⟩ start

end DocSchema.Markdown
