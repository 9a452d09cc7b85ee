/-
  DocSchema/Markdown/Event.lean
  =============================
  **A Markdown text as a sequence of events.**

  A construct that holds others is a `start` event, the events of its content, and an `end_`
  event; text, code, breaks and the like are single events.  Each event carries the byte range
  of the text that it stands for; both events of a construct carry all of its range.

  `events` answers the events of a whole text.  `header?` recognises a block of metadata that a
  text opens with: three hyphens, lines of which the first is not blank, and three hyphens or
  points.
-/
import DocSchema.Markdown.Inline

namespace DocSchema.Markdown

open DocSchema.Text

/-! ### Events -/

/-- A construct that holds others. -/
inductive Tag where
  | paragraph
  | heading (level : Nat)
  | blockQuote
  /-- Code; a fenced block has an info string. -/
  | codeBlock (info : Option String)
  | htmlBlock
  /-- A list; an ordered one has the number of its first item. -/
  | list (start : Option Nat)
  | item
  | footnoteDefinition (label : String)
  | table (alignments : List Alignment)
  | tableHead
  | tableRow
  | tableCell
  | emphasis
  | strong
  | strikethrough
  | link (destination title : String)
  | image (destination title : String)
  | metadataBlock
  /-- A construct of an extension that is off, such as a list of definitions. -/
  | foreign
  deriving DecidableEq, Repr

/-- One step through a text. -/
inductive Event where
  | start (tag : Tag)
  | end_ (tag : Tag)
  | text (text : String)
  | code (text : String)
  | html (text : String)
  | inlineHtml (text : String)
  | footnoteReference (label : String)
  | softBreak
  | hardBreak
  | rule
  | taskListMarker (checked : Bool)
  /-- An event of an extension that is off, such as a formula. -/
  | foreign
  deriving DecidableEq, Repr

/-- An event and the range of the text that it stands for. -/
structure Located where
  event : Event
  first : Nat
  last : Nat
  deriving DecidableEq, Repr

/-- Moves a range towards the end of the text. -/
def Located.shift (n : Nat) (e : Located) : Located :=
  { e with first := e.first + n, last := e.last + n }

/-! ### Writing events -/

/-- The events so far, and how many bytes the targets of link references may still take up. -/
structure Output where
  events : Array Located
  allowance : Nat

def Output.push (out : Output) (event : Event) (first last : Nat) : Output :=
  { out with events := out.events.push ⟨event, first, last⟩ }

/-- Adds the events of a construct around those of its content. -/
def Output.wrap (out : Output) (tag : Tag) (first last : Nat) (content : Output → Output) :
    Output :=
  (content (out.push (.start tag) first last)).push (.end_ tag) first last

/-! ### Inline content -/

/-- The tag of a kind of emphasis. -/
def Stress.tag : Stress → Tag
  | .emphasis => .emphasis
  | .strong => .strong
  | .strikethrough => .strikethrough

/-- Writes a block from a position on. -/
abbrev BlockWriter := Nat → Output → Output

mutual

/-- Writes an inline construct; `blocks` write the blocks that stand among text. -/
def writeInline (w : Window) (blocks : List BlockWriter) : Inline → Output → Output
  | .text a b, out => out.push (.text (w.text a b)) a b
  | .replaced a b chars, out => out.push (.text (String.ofList chars)) a b
  | .softBreak a b, out => out.push .softBreak a b
  | .hardBreak a b _, out => out.push .hardBreak a b
  | .code a b chars, out => out.push (.code (String.ofList chars)) a b
  | .html a b chars, out => out.push (.inlineHtml (String.ofList chars)) a b
  | .delimiter a b _ _ _, out => out.push (.text (w.text a b)) a b
  | .stress kind a b xs, out =>
    (writeInlines w blocks xs (out.push (.start kind.tag) a b)).push (.end_ kind.tag) a b
  | .link image a b destination title xs, out =>
    let tag :=
      if image then Tag.image (String.ofList destination) (String.ofList title)
      else .link (String.ofList destination) (String.ofList title)
    (writeInlines w blocks xs (out.push (.start tag) a b)).push (.end_ tag) a b
  | .footnote a b label, out => out.push (.footnoteReference (String.ofList label)) a b
  | .taskMarker a b checked, out => out.push (.taskListMarker checked) a b
  | .block a _ index, out =>
    match blocks[index]? with
    | some write => write a out
    | none => out

/-- Writes inline constructs one after another. -/
def writeInlines (w : Window) (blocks : List BlockWriter) : List Inline → Output → Output
  | [], out => out
  | x :: xs, out => writeInlines w blocks xs (writeInline w blocks x out)

end

/-- A token whose meaning is plain, as inline content. -/
def Token.asInline (t : Token) : Inline :=
  match t.kind with
  | .replaced chars => .replaced t.first t.last chars
  | .softBreak => .softBreak t.first t.last
  | .hardBreak backslash => .hardBreak t.first t.last backslash
  | .taskMarker checked => .taskMarker t.first t.last checked
  | .block index => .block t.first t.last index
  | _ => .text t.first t.last

/-! ### Blocks -/

/-- What the events of a block depend on: the text, what it refers to, the containers around
the block, outermost first, and whether it is an item of a tight list. -/
structure Surroundings where
  window : Window
  references : References
  containers : List Container
  tight : Bool

/-- Writes the tokens of a block that ends at `last`.  Those before the first that may mean
something are plain; they are written before the others are read. -/
def writeContent (s : Surroundings) (inTable : Bool) (last : Nat) (blocks : List BlockWriter)
    (tokens : List Token) (out : Output) : Output :=
  let (plain, rest) := tokens.span fun t => !t.kind.isOpen
  let out := writeInlines s.window blocks (plain.map Token.asInline) out
  if rest.isEmpty then out
  else
    let place : Place := ⟨s.window.upTo last, s.containers, inTable, s.references⟩
    let (xs, allowance) := inlines place out.allowance rest
    writeInlines s.window blocks xs { out with allowance }

/-- Writes stretches of text, each as the event that `make` makes of it. -/
def writeChunks (w : Window) (make : String → Event) (chunks : List Chunk) (out : Output) :
    Output :=
  chunks.foldl
    (fun out c =>
      match c.replaced with
      | some chars => out.push (.text (String.ofList chars)) c.first c.last
      | none => out.push (make (w.text c.first c.last)) c.first c.last)
    out

/-- Writes a row of a table. -/
def writeRow (s : Surroundings) (tag : Tag) (row : Row) (out : Output) : Output :=
  out.wrap tag row.first row.last fun out =>
    row.cells.foldl
      (fun out c => out.wrap .tableCell c.first c.last (writeContent s true c.last [] c.content))
      out

/-- Writes a block without blocks inside. -/
def writeLeaf (s : Surroundings) (first last : Nat) (leaf : Leaf) (out : Output) : Output :=
  match leaf with
  | .paragraph content => out.wrap .paragraph first last (writeContent s false last [] content)
  | .heading level content =>
    out.wrap (.heading level) first last (writeContent s false last [] content)
  | .code info lines =>
    out.wrap (.codeBlock (info.map String.ofList)) first last
      (writeChunks s.window .text lines)
  | .html lines => out.wrap .htmlBlock first last (writeChunks s.window .html lines)
  | .rule => out.push .rule first last
  | .table alignments head rows =>
    out.wrap (.table alignments) first last fun out =>
      rows.foldl (fun out row => writeRow s .tableRow row out) (writeRow s .tableHead head out)
  | .taskMarker checked => out.push (.taskListMarker checked) first last

def Frame.tag : Frame → Tag
  | .quote => .blockQuote
  | .list _ mark start => .list (if mark == '.' || mark == ')' then some start else none)
  | .item _ => .item
  | .footnote label => .footnoteDefinition (String.ofList label)

/-- The surroundings inside a container. -/
def Surroundings.enter (s : Surroundings) (frame : Frame) : Surroundings :=
  { s with
    containers := s.containers ++ [frame.container],
    tight := match frame with
      | .list tight _ _ => tight
      | .item _ => s.tight
      | _ => false }

/-- The blocks of an item of a tight list as tokens, the next one being at the place `index`:
paragraphs are the text they hold. -/
def itemTokens : Nat → List Block → List Token
  | _, [] => []
  | index, .leaf first last leaf :: rest =>
    let tokens := match leaf with
      | .paragraph [] => [⟨first, last, .block index⟩]
      | .paragraph content => content
      | _ => [⟨first, last, .block index⟩]
    tokens ++ itemTokens (index + 1) rest
  | index, .container first last _ _ :: rest =>
    ⟨first, last, .block index⟩ :: itemTokens (index + 1) rest

/-- The content of an item of a tight list.  An item that starts with a paragraph without any
text holds nothing. -/
def itemContent : List Block → List Token
  | .leaf _ _ (.paragraph []) :: _ => []
  | blocks => itemTokens 0 blocks

/-- Whether a container is an item of a list. -/
def Frame.isItem : Frame → Bool
  | .item _ => true
  | _ => false

/-- The position where a block starts. -/
def Block.first : Block → Nat
  | .leaf first _ _ => first
  | .container first _ _ _ => first

mutual

/-- Writes a block from a position on.  The text of an item of a tight list is read as a whole,
so that a construct may reach over the blocks among it. -/
def writeBlock (s : Surroundings) : Block → BlockWriter
  | .leaf _ last leaf, first, out => writeLeaf s first last leaf out
  | .container _ last frame children, first, out =>
    let inner := s.enter frame
    out.wrap frame.tag first last fun out =>
      if frame.isItem && inner.tight then
        writeContent inner false last (blockWriters inner children) (itemContent children) out
      else writeBlocks inner children out

/-- Writes blocks one after another. -/
def writeBlocks (s : Surroundings) : List Block → Output → Output
  | [], out => out
  | b :: bs, out => writeBlocks s bs (writeBlock s b b.first out)

/-- What writes each of some blocks. -/
def blockWriters (s : Surroundings) : List Block → List BlockWriter
  | [] => []
  | b :: bs => writeBlock s b :: blockWriters s bs

end

/-! ### Texts -/

/-- The byte offset of every position of a text, the end included. -/
def byteOffsets (chars : Array Char) : Array Nat :=
  chars.foldl (fun acc c => acc.push (acc.back?.getD 0 + c.utf8Size)) #[0]

/-- Turns the positions of an event into byte offsets. -/
def Located.toBytes (offsets : Array Nat) (e : Located) : Located :=
  { e with first := offsets.getD e.first 0, last := offsets.getD e.last 0 }

/-- How many bytes the targets of link references may take up in any text; in a longer text they
may take up as many as it has. -/
def leastAllowance : Nat := 100000

def events (chars : List Char) : List Located :=
  let chars := chars.toArray
  let w := Window.whole chars
  let o := Outline.read w
  let references : References := ⟨o.links.reverse, o.notes⟩
  let offsets := byteOffsets chars
  let allowance := max (offsets.back?.getD 0) leastAllowance
  let out := writeBlocks ⟨w, references, [], false⟩ o.blocks.reverse ⟨#[], allowance⟩
  out.events.toList.map (Located.toBytes offsets)

/-! ### Headers -/

/-- A closing line of a header at `i`: the position after its mark and spaces. -/
def headerClose? (w : Window) (i : Nat) : Option Nat :=
  let hyphens := w.skipRun '-' i
  let points := w.skipRun '.' i
  if hyphens - i == 3 || points - i == 3 then
    let stop := w.skipRun ' ' (i + 3)
    (w.lineEnd? stop).map fun _ => stop
  else none

/-- The lines of a header from `i` on, and the position after its closing mark; `none` if it is
never closed. -/
def headerLines? (w : Window) : Nat → List Chunk → Nat → Option (List Chunk × Nat)
  | 0, _, _ => none
  | fuel + 1, acc, i =>
    match headerClose? w i with
    | some stop => some (acc, stop)
    | none =>
      if i < w.stop then
        let next := w.nextLine i
        headerLines? w fuel (acc ++ lineChunks w 0 i next) next
      else none

/-- The events of the header that a text opens with, and the number of characters it takes. -/
def header? (chars : List Char) : Option (List Located × Nat) :=
  let chars := chars.toArray
  let w := Window.whole chars
  let after := w.skipRun '-' 0
  let first := w.nextLine after
  if after == 3 && (w.slice after first).all (fun c => isAsciiSpace c && c != '\x0b') &&
      (headerClose? w first).isNone && (w.blankLine? first).isNone then
    (headerLines? w (w.stop + 1) [] first).map fun (lines, stop) =>
      let offsets := byteOffsets chars
      let out := (Output.mk #[] 0).wrap .metadataBlock 0 stop (writeChunks w .text lines)
      (out.events.toList.map (Located.toBytes offsets), stop)
  else none

end DocSchema.Markdown
