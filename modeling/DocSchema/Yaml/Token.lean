/-
  DocSchema/Yaml/Token.lean
  =========================
  **The tokens of a YAML text.**

  Indentation becomes tokens of its own: a block starts where a deeper column is entered and
  ends where it is left.  That a scalar is a key is known only at the colon after it; so every
  token that may turn out to be a key is remembered as a candidate, one on each flow level, and
  the tokens that open the key are put in front of it when the colon comes.  A candidate lives
  on one line and for at most 1024 characters.
-/
import DocSchema.Yaml.Tag

namespace DocSchema.Yaml

open DocSchema.Text

/-- A directive in front of a document. -/
inductive Directive where
  | version (major minor : Nat)
  | handle (name : String) (target : Tag)
  deriving DecidableEq, Repr

/-- A token. -/
inductive Token where
  | directive (d : Directive)
  | documentStart
  | documentEnd
  | sequenceStart
  | mappingStart
  | blockEnd
  | flowSequenceStart
  | flowSequenceEnd
  | flowMappingStart
  | flowMappingEnd
  | blockEntry
  | flowEntry
  | key
  | value
  | alias (name : String)
  | anchor (name : String)
  | tag (t : WrittenTag)
  | scalar (text : String) (plain : Bool)
  deriving DecidableEq, Repr

/-! ### Anchors and directives -/

/-- Reads the name of an anchor or alias whose mark has been passed. -/
def readAnchor? (c : Cursor) : Option (String × Cursor) :=
  let (name, c) := c.takeWhile isNameChar
  let ends := c.blankOrEnd 0 || c.test 0 fun ch =>
    ch == '?' || ch == ':' || ch == ',' || ch == ']' || ch == '\x7d' || ch == '%' || ch == '@' ||
      ch == '\x60'
  if name.isEmpty || !ends then none else some (String.ofList name, c)

/-- Reads a part of a version: one to nine digits. -/
def readVersionPart? (c : Cursor) : Option (Nat × Cursor) :=
  let (digits, c) := c.takeWhile isDigit
  if digits.isEmpty || 9 < digits.length then none
  else some (digits.foldl (fun n d => n * 10 + digitValue d) 0, c)

def readDirectiveValue? (name : List Char) (c : Cursor) : Option (Directive × Cursor) := do
  if name == "YAML".toList then
    let (major, c) ← readVersionPart? c.skipWhite
    if !c.holds 0 '.' then none
    let (minor, c) ← readVersionPart? c.next
    some (.version major minor, c)
  else if name == "TAG".toList then
    let c := c.skipWhite
    if !c.holds 0 '!' then none
    let (handle, c) := readHandle c
    if (handle != ['!'] && handle.getLast? != some '!') || !c.test 0 isWhite then none
    let (target, c) ← readTagBytes? true c.chars.size [] c.skipWhite
    if target.bytes.isEmpty || !c.blankOrEnd 0 then none
    some (.handle (String.ofList handle) target, c)
  else none

/-- Reads a directive whose mark has been passed, with the rest of its line. -/
def readDirective? (c : Cursor) : Option (Directive × Cursor) := do
  let (name, c) := c.takeWhile isNameChar
  if name.isEmpty || !c.blankOrEnd 0 then none
  let (d, c) ← readDirectiveValue? name c
  let c ← c.skipRestOfLine?
  some (d, c)

/-! ### The state of a scan -/

/-- A token that may turn out to be a key: its index, where it starts, and whether it has to be
one because nothing else may stand there. -/
structure Candidate where
  index : Nat
  pos : Nat
  line : Nat
  column : Nat
  required : Bool
  deriving Repr

/-- The state of a scan. -/
structure Scan where
  cursor : Cursor
  tokens : Array Token := #[]
  /-- The column of the innermost block, −1 outside of all. -/
  indent : Int := -1
  /-- The columns of the blocks around it. -/
  indents : List Int := []
  /-- Whether a key may start here. -/
  keyAllowed : Bool := true
  /-- The candidate of the current flow level. -/
  candidate : Option Candidate := none
  /-- The candidates of the flow levels around it. -/
  outer : List (Option Candidate) := []

namespace Scan

/-- Whether the place is inside a flow collection. -/
def inFlow (s : Scan) : Bool :=
  !s.outer.isEmpty

def push (s : Scan) (t : Token) : Scan :=
  { s with tokens := s.tokens.push t }

/-- Appends a token of one character. -/
def pushMark (s : Scan) (t : Token) : Scan :=
  { s with tokens := s.tokens.push t, cursor := s.cursor.next }

/-- Drops the candidate of this level; fails if it has to be a key. -/
def dropCandidate? (s : Scan) : Option Scan :=
  match s.candidate with
  | some k => if k.required then none else some { s with candidate := none }
  | none => some s

/-- Remembers the next token as a candidate, if a key may start here. -/
def saveCandidate? (s : Scan) : Option Scan :=
  if s.keyAllowed then
    let c := s.cursor
    let required := !s.inFlow && s.indent == c.column
    s.dropCandidate?.map fun s =>
      { s with candidate := some ⟨s.tokens.size, c.pos, c.line, c.column, required⟩ }
  else some s

/-- A candidate if it can still be a key at the cursor; fails if it had to be one. -/
def refresh? (c : Cursor) : Option Candidate → Option (Option Candidate)
  | none => some none
  | some k =>
    if k.line < c.line || k.pos + 1024 < c.pos then (if k.required then none else some none)
    else some (some k)

/-- Drops the candidates that can no longer be keys. -/
def refreshCandidates? (s : Scan) : Option Scan := do
  let candidate ← refresh? s.cursor s.candidate
  let outer ← s.outer.mapM (refresh? s.cursor)
  some { s with candidate, outer }

/-- Enters a block at a deeper column; its token goes to the given index, or to the end. -/
def enterBlock (s : Scan) (column : Nat) (at? : Option Nat) (t : Token) : Scan :=
  if !s.inFlow && s.indent < column then
    let tokens := match at? with
      | some i => s.tokens.insertIdxIfInBounds i t
      | none => s.tokens.push t
    { s with tokens, indent := column, indents := s.indent :: s.indents }
  else s

/-- Leaves the blocks that lie right of a column. -/
def leaveBlocks (column : Int) : Int → List Int → Array Token → Int × List Int × Array Token
  | indent, [], tokens =>
    if column < indent then (-1, [], tokens.push .blockEnd) else (indent, [], tokens)
  | indent, around :: rest, tokens =>
    if column < indent then leaveBlocks column around rest (tokens.push .blockEnd)
    else (indent, around :: rest, tokens)

/-- Leaves the blocks that lie right of a column, outside of flow collections. -/
def leaveTo (s : Scan) (column : Int) : Scan :=
  if s.inFlow then s
  else
    let (indent, indents, tokens) := leaveBlocks column s.indent s.indents s.tokens
    { s with indent, indents, tokens }

/-- Passes blanks, comments and line ends.  A tab counts as a blank inside flow collections and
where no key may start, a byte order mark at the start of a line. -/
def skipToToken : Nat → Scan → Scan
  | 0, s => s
  | fuel + 1, s =>
    let c := s.cursor
    if c.column == 0 && c.holds 0 '\ufeff' then skipToToken fuel { s with cursor := c.next }
    else if c.holds 0 ' ' || ((s.inFlow || !s.keyAllowed) && c.holds 0 '\t') then
      skipToToken fuel { s with cursor := c.next }
    else
      let c := if c.holds 0 '#' then c.skipToBreak else c
      if c.test 0 isBreak then
        skipToToken fuel { s with cursor := c.nextLine, keyAllowed := s.keyAllowed || !s.inFlow }
      else { s with cursor := c }

/-! ### Reading one token -/

/-- A mark that starts or ends a document. -/
def readDocumentMark? (s : Scan) (t : Token) : Option Scan :=
  (s.leaveTo (-1)).dropCandidate?.map fun s =>
    { s with keyAllowed := false, cursor := s.cursor.next.next.next }.push t

def readFlowStart? (s : Scan) (t : Token) : Option Scan :=
  s.saveCandidate?.map fun s =>
    { s with outer := s.candidate :: s.outer, candidate := none, keyAllowed := true }.pushMark t

def readFlowEnd? (s : Scan) (t : Token) : Option Scan :=
  s.dropCandidate?.map fun s =>
    let s := match s.outer with
      | k :: rest => { s with candidate := k, outer := rest }
      | [] => s
    { s with keyAllowed := false }.pushMark t

/-- A comma between the entries of a flow collection. -/
def readFlowEntry? (s : Scan) : Option Scan :=
  s.dropCandidate?.map fun s => { s with keyAllowed := true }.pushMark .flowEntry

/-- The dash in front of an item. -/
def readBlockEntry? (s : Scan) : Option Scan :=
  if !s.inFlow && !s.keyAllowed then none
  else
    (s.enterBlock s.cursor.column none .sequenceStart).dropCandidate?.map fun s =>
      { s with keyAllowed := true }.pushMark .blockEntry

/-- The mark of an explicit key. -/
def readKey? (s : Scan) : Option Scan :=
  if !s.inFlow && !s.keyAllowed then none
  else
    (s.enterBlock s.cursor.column none .mappingStart).dropCandidate?.map fun s =>
      { s with keyAllowed := !s.inFlow }.pushMark .key

/-- The colon in front of a value: it makes the candidate a key, or ends an explicit one. -/
def readValue? (s : Scan) : Option Scan :=
  match s.candidate with
  | some k =>
    let s := { s with tokens := s.tokens.insertIdxIfInBounds k.index .key, candidate := none }
    let s := s.enterBlock k.column (some k.index) .mappingStart
    some ({ s with keyAllowed := false }.pushMark .value)
  | none =>
    if !s.inFlow && !s.keyAllowed then none
    else
      let s := s.enterBlock s.cursor.column none .mappingStart
      some ({ s with keyAllowed := !s.inFlow }.pushMark .value)

def readAnchored? (s : Scan) (make : String → Token) : Option Scan := do
  let s ← s.saveCandidate?
  let (name, cursor) ← readAnchor? s.cursor.next
  some ({ s with cursor, keyAllowed := false }.push (make name))

def readBlockText? (s : Scan) (literal : Bool) : Option Scan := do
  let s ← s.dropCandidate?
  let (text, cursor) ← readBlockScalar? literal s.indent s.cursor.next
  some ({ s with cursor, keyAllowed := true }.push (.scalar (String.ofList text) false))

def readQuotedText? (s : Scan) (single : Bool) : Option Scan := do
  let s ← s.saveCandidate?
  let (text, cursor) ← readQuoted? single (s.cursor.chars.size + 1) [] s.cursor.next
  some ({ s with cursor, keyAllowed := false }.push (.scalar (String.ofList text) false))

/-- A plain scalar; where it ends with a line, a key may follow. -/
def readPlainText? (s : Scan) : Option Scan := do
  let s ← s.saveCandidate?
  let (text, broken, cursor) ←
    readPlain? s.inFlow (s.indent + 1).toNat (s.cursor.chars.size + 1) [] {} s.cursor
  some ({ s with cursor, keyAllowed := broken }.push (.scalar (String.ofList text) true))

/-- Whether a plain scalar may start here. -/
def startsPlain (s : Scan) : Bool :=
  let c := s.cursor
  let reserved := "-?:,[]\x7b\x7d#&*!|>'\"%@\x60".toList
  (!c.blankOrEnd 0 && !c.test 0 reserved.contains) || (c.holds 0 '-' && !c.test 1 isWhite) ||
    (!s.inFlow && (c.holds 0 '?' || c.holds 0 ':') && !c.blankOrEnd 1)

/-- Reads the token that starts at the cursor. -/
def readToken? (s : Scan) (ch : Char) : Option Scan :=
  let c := s.cursor
  if c.column == 0 && ch == '%' then do
    let s ← (s.leaveTo (-1)).dropCandidate?
    let (d, cursor) ← readDirective? c.next
    some ({ s with cursor, keyAllowed := false }.push (.directive d))
  else if c.atDocumentMark then
    s.readDocumentMark? (if ch == '-' then .documentStart else .documentEnd)
  else if ch == '[' then s.readFlowStart? .flowSequenceStart
  else if ch == '\x7b' then s.readFlowStart? .flowMappingStart
  else if ch == ']' then s.readFlowEnd? .flowSequenceEnd
  else if ch == '\x7d' then s.readFlowEnd? .flowMappingEnd
  else if ch == ',' then s.readFlowEntry?
  else if ch == '-' && c.blankOrEnd 1 then s.readBlockEntry?
  else if ch == '?' && (s.inFlow || c.blankOrEnd 1) then s.readKey?
  else if ch == ':' && (s.inFlow || c.blankOrEnd 1) then s.readValue?
  else if ch == '*' then s.readAnchored? .alias
  else if ch == '&' then s.readAnchored? .anchor
  else if ch == '!' then do
    let s ← s.saveCandidate?
    let (t, cursor) ← readTag? s.inFlow s.cursor
    some ({ s with cursor, keyAllowed := false }.push (.tag t))
  else if ch == '|' && !s.inFlow then s.readBlockText? true
  else if ch == '>' && !s.inFlow then s.readBlockText? false
  else if ch == '\'' then s.readQuotedText? true
  else if ch == '"' then s.readQuotedText? false
  else if s.startsPlain then s.readPlainText?
  else none

/-- Reads all tokens; every round takes at least one character. -/
def readAll? : Nat → Scan → Option Scan
  | 0, _ => none
  | fuel + 1, s => do
    let s ← (skipToToken (s.cursor.chars.size + 1) s).refreshCandidates?
    let s := s.leaveTo s.cursor.column
    match s.cursor.peek? with
    | none => (s.leaveTo (-1)).dropCandidate?
    | some ch => readAll? fuel (← s.readToken? ch)

end Scan

/-- The tokens of a text; `none` if it holds a character that may not stand in YAML, or one
that may not stand where it does. -/
def tokens? (text : List Char) : Option (List Token) :=
  if text.all isAllowed then
    let chars := text.toArray
    (Scan.readAll? (chars.size + 1) { cursor := ⟨chars, 0, 0, 0⟩ }).map (·.tokens.toList)
  else none

end DocSchema.Yaml
