/-
  DocSchema/Yaml/Scalar.lean
  ==========================
  **The text of YAML scalars: plain, quoted and block ones.**

  Where a scalar goes on over a line break, a single break becomes a space and further breaks
  stay (`foldBreaks`).
-/
import DocSchema.Yaml.Cursor

namespace DocSchema.Yaml

open DocSchema.Text

/-- Joins lines: `lead` is the first line break, `more` those after it. -/
def foldBreaks (lead more : List Char) : List Char :=
  if lead.head? == some '\n' then (if more.isEmpty then [' '] else more)
  else lead ++ more

/-- Whitespace between words of a scalar: the spaces if it holds no line break, else the first
break and those after it. -/
structure Gap where
  spaces : List Char := []
  broken : Bool := false
  lead : List Char := []
  more : List Char := []

def Gap.chars (g : Gap) : List Char :=
  if g.broken then foldBreaks g.lead g.more else g.spaces

/-- Reads whitespace and line breaks; a tab left of column `indent` on a later line is
refused. -/
def readGap? (indent : Nat) : Nat → Gap → Cursor → Option (Gap × Cursor)
  | 0, g, c => some (g, c)
  | fuel + 1, g, c =>
    match c.peek? with
    | none => some (g, c)
    | some ch =>
      if isWhite ch then
        if g.broken then
          if ch == '\t' && c.column < indent then none else readGap? indent fuel g c.next
        else readGap? indent fuel { g with spaces := g.spaces ++ [ch] } c.next
      else if isBreak ch then
        if g.broken then
          readGap? indent fuel { g with more := g.more ++ c.breakChars } c.nextLine
        else readGap? indent fuel { g with broken := true, lead := c.breakChars } c.nextLine
      else some (g, c)

/-! ### Plain scalars -/

/-- Whether the current character ends a plain scalar; `none` if it may not stand here. -/
def endsPlain? (inFlow : Bool) (c : Cursor) : Option Bool :=
  let flowMark := fun ch => ch == ',' || ch == '[' || ch == ']' || ch == '\x7b' || ch == '\x7d'
  if inFlow && c.holds 0 ':' && c.test 1 (fun ch => flowMark ch || ch == '?') then none
  else some ((c.holds 0 ':' && c.blankOrEnd 1) || (inFlow && c.test 0 flowMark))

/-- Reads a plain scalar; `acc` holds its characters so far, last first, and `gap` the
whitespace after them.  Answers the characters and whether whitespace over a line break
followed. -/
def readPlain? (inFlow : Bool) (indent : Nat) :
    Nat → List Char → Gap → Cursor → Option (List Char × Bool × Cursor)
  | 0, acc, gap, c => some (acc.reverse, gap.broken, c)
  | fuel + 1, acc, gap, c =>
    match c.peek? with
    | none => some (acc.reverse, gap.broken, c)
    | some ch =>
      if isWhite ch || isBreak ch then
        match readGap? indent (c.chars.size - c.pos) {} c with
        | none => none
        | some (gap, c) =>
          if (!inFlow && c.column < indent) || c.atDocumentMark || c.holds 0 '#' then
            some (acc.reverse, gap.broken, c)
          else readPlain? inFlow indent fuel acc gap c
      else
        match endsPlain? inFlow c with
        | none => none
        | some true => some (acc.reverse, gap.broken, c)
        | some false =>
          readPlain? inFlow indent fuel (ch :: (gap.chars.reverse ++ acc)) {} c.next

/-! ### Quoted scalars -/

/-- The character of an escape, or the number of hexadecimal digits that name it. -/
def escapeOf? (ch : Char) : Option (Char ⊕ Nat) :=
  match ch with
  | '0' => some (.inl '\x00')
  | 'a' => some (.inl '\x07')
  | 'b' => some (.inl '\x08')
  | 't' => some (.inl '\t')
  | '\t' => some (.inl '\t')
  | 'n' => some (.inl '\n')
  | 'v' => some (.inl '\x0b')
  | 'f' => some (.inl '\x0c')
  | 'r' => some (.inl '\r')
  | 'e' => some (.inl '\x1b')
  | ' ' => some (.inl ' ')
  | '"' => some (.inl '"')
  | '/' => some (.inl '/')
  | '\\' => some (.inl '\\')
  | 'N' => some (.inl '\u0085')
  | '_' => some (.inl '\u00a0')
  | 'L' => some (.inl '\u2028')
  | 'P' => some (.inl '\u2029')
  | 'x' => some (.inr 2)
  | 'u' => some (.inr 4)
  | 'U' => some (.inr 8)
  | _ => none

/-- Reads hexadecimal digits. -/
def readHex? : Nat → Nat → Cursor → Option (Nat × Cursor)
  | 0, value, c => some (value, c)
  | n + 1, value, c =>
    match c.peek?.bind hexValue? with
    | some d => readHex? n (value * 16 + d) c.next
    | none => none

def readEscape? (c : Cursor) : Option (Char × Cursor) :=
  match (c.ahead? 1).bind escapeOf? with
  | none => none
  | some (.inl ch) => some (ch, c.next.next)
  | some (.inr digits) =>
    match readHex? digits 0 c.next.next with
    | none => none
    | some (value, c) =>
      if (0xD800 ≤ value && value ≤ 0xDFFF) || 0x10FFFF < value then none
      else some (Char.ofNat value, c)

/-- Reads a quoted scalar whose opening quote has been passed; `acc` holds its characters so
far, last first. -/
def readQuoted? (single : Bool) : Nat → List Char → Cursor → Option (List Char × Cursor)
  | 0, _, _ => none
  | fuel + 1, acc, c =>
    match c.peek? with
    | none => none
    | some ch =>
      if c.atDocumentMark then none
      else if isWhite ch || isBreak ch then
        match readGap? 0 (c.chars.size - c.pos) {} c with
        | none => none
        | some (gap, c) => readQuoted? single fuel (gap.chars.reverse ++ acc) c
      else if single && ch == '\'' && c.holds 1 '\'' then
        readQuoted? single fuel ('\'' :: acc) c.next.next
      else if ch == (if single then '\'' else '"') then some (acc.reverse, c.next)
      else if !single && ch == '\\' then
        if c.test 1 isBreak then
          -- an escaped line break joins the lines, but for further breaks
          match readGap? 0 (c.chars.size - c.pos) { broken := true } c.next.nextLine with
          | none => none
          | some (gap, c) => readQuoted? single fuel (gap.chars.reverse ++ acc) c
        else
          match readEscape? c with
          | none => none
          | some (e, c) => readQuoted? single fuel (e :: acc) c
      else readQuoted? single fuel (ch :: acc) c.next

/-! ### Block scalars -/

/-- Passes indentation spaces up to column `indent`, if that is known. -/
def skipIndent (indent : Nat) : Nat → Cursor → Cursor
  | 0, c => c
  | fuel + 1, c =>
    if (indent == 0 || c.column < indent) && c.holds 0 ' ' then skipIndent indent fuel c.next
    else c

/-- Reads empty lines; answers their breaks, the deepest column seen, and the place where text
starts.  A tab in the indentation is refused. -/
def readBreaks? (indent : Nat) : Nat → List Char → Nat → Cursor →
    Option (List Char × Nat × Cursor)
  | 0, breaks, deepest, c => some (breaks, deepest, c)
  | fuel + 1, breaks, deepest, c =>
    let c := skipIndent indent (c.chars.size - c.pos) c
    let deepest := max deepest c.column
    if (indent == 0 || c.column < indent) && c.holds 0 '\t' then none
    else if c.test 0 isBreak then
      readBreaks? indent fuel (breaks ++ c.breakChars) deepest c.nextLine
    else some (breaks, deepest, c)

/-- How the end of a block scalar is kept. -/
inductive Chomp where
  | strip
  | clip
  | keep
  deriving DecidableEq

/-- What has been read of a block scalar: its characters, last first, the break that ended its
last line, the empty lines after it, and whether that line began with whitespace. -/
structure BlockText where
  chars : List Char := []
  lead : List Char := []
  more : List Char := []
  startsWhite : Bool := false

/-- Reads the lines of a block scalar at column `indent`. -/
def readBlockLines? (literal : Bool) (indent : Nat) :
    Nat → BlockText → Cursor → Option (BlockText × Cursor)
  | 0, t, c => some (t, c)
  | fuel + 1, t, c =>
    if c.column == indent && c.peek?.isSome then
      let white := c.test 0 isWhite
      let joined :=
        if !literal && t.lead.head? == some '\n' && !t.startsWhite && !white then
          (if t.more.isEmpty then [' '] else []) ++ t.more
        else t.lead ++ t.more
      let (line, atBreak) := c.takeWhile (!isBreak ·)
      match readBreaks? indent (c.chars.size - c.pos + 1) [] 0 atBreak.nextLine with
      | none => none
      | some (more, _, after) =>
        let chars := line.reverse ++ (joined.reverse ++ t.chars)
        readBlockLines? literal indent fuel ⟨chars, atBreak.breakChars, more, white⟩ after
    else some (t, c)

/-- Reads the marks after `|` or `>`: how the end is kept, and the indentation if given. -/
def readBlockMarks? (c : Cursor) : Option (Chomp × Nat × Cursor) :=
  let chompOf (ch : Char) : Option Chomp :=
    if ch == '+' then some .keep else if ch == '-' then some .strip else none
  match c.peek?.bind chompOf with
  | some chomp =>
    let c := c.next
    match c.peek? with
    | some d =>
      if d == '0' then none
      else if isDigit d then some (chomp, digitValue d, c.next)
      else some (chomp, 0, c)
    | none => some (chomp, 0, c)
  | none =>
    match c.peek? with
    | some d =>
      if d == '0' then none
      else if isDigit d then
        let c := c.next
        match c.peek?.bind chompOf with
        | some chomp => some (chomp, digitValue d, c.next)
        | none => some (.clip, digitValue d, c)
      else some (.clip, 0, c)
    | none => some (.clip, 0, c)

/-- Reads a block scalar whose `|` or `>` has been passed, inside a block at `parent`. -/
def readBlockScalar? (literal : Bool) (parent : Int) (c : Cursor) :
    Option (List Char × Cursor) := do
  let (chomp, increment, c) ← readBlockMarks? c
  let c ← c.skipRestOfLine?
  let given := if increment == 0 then 0 else (max parent 0).toNat + increment
  let fuel := c.chars.size - c.pos + 1
  let (more, deepest, c) ← readBreaks? given fuel [] 0 c
  let indent := if given == 0 then max deepest (max (parent + 1).toNat 1) else given
  let (t, c) ← readBlockLines? literal indent fuel { more } c
  let tail := match chomp with
    | .strip => []
    | .clip => t.lead
    | .keep => t.lead ++ t.more
  some (t.chars.reverse ++ tail, c)

end DocSchema.Yaml
