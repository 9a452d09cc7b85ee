/-
  DocSchema/Document/Builder.lean
  ===============================
  **From Markdown events to the tree of a document.**

  The builder keeps the constructs that are open as a stack of frames, innermost first.  A
  `start` event opens a frame, an `end_` event closes the innermost one and attaches its node to
  the next.  Text that follows text is added to it.  Code, HTML, headers and images are
  literal: their frame collects the text that falls to it in a field.

  The stack holds no more than `maxDepth` frames beside the root.  A construct that would go
  deeper is not opened, and its content falls to the deepest frame there is.
-/
import DocSchema.Document.Node
import DocSchema.Markdown.Event
import DocSchema.Metadata

namespace DocSchema

open DocSchema.Json DocSchema.Markdown DocSchema.Text

/-- The deepest nesting that is kept in a tree. -/
def maxDepth : Nat := 128

/-- A construct that is open. -/
structure OpenNode where
  kind : String
  fields : Object
  /-- The children so far, last first. -/
  children : List Node
  span : Span
  /-- The field of a literal construct, and the text collected for it. -/
  literal : Option (String × String)

namespace OpenNode

/-- Adds a child. -/
def attach (f : OpenNode) (n : Node) : OpenNode :=
  { f with children := n :: f.children }

/-- Adds text to the field of a literal construct. -/
def collect? (f : OpenNode) (text : String) : Option OpenNode :=
  f.literal.map fun (key, collected) => { f with literal := some (key, collected ++ text) }

/-- Goes on with a text node: its value and its end grow. -/
def extendText (n : Node) (text : String) (span : Span) : Node :=
  let fields := match n.fields.get? "value" with
    | some (.string value) => n.fields.insert "value" (.string (value ++ text))
    | _ => n.fields
  let grown :=
    if n.span.stopOffset < span.stopOffset then
      { n.span with stop := span.stop, stopOffset := span.stopOffset }
    else n.span
  { n with fields, span := grown }

/-- Adds text: to the literal field, to the text before it, or as a new node. -/
def addText (f : OpenNode) (text : String) (span : Span) : OpenNode :=
  match f.collect? text with
  | some f => f
  | none =>
    match f.children with
    | last :: before =>
      if last.kind = "text" then
        { f with children := extendText last text span :: before }
      else f.attach ((Node.leaf "text" span).withField "value" (.string text))
    | [] => f.attach ((Node.leaf "text" span).withField "value" (.string text))

/-- The text without a line feed at its end. -/
def dropLineFeed (text : String) : String :=
  match text.toList.reverse with
  | '\n' :: rest => String.ofList rest.reverse
  | _ => text

/-- The node of a construct that ends. -/
def finish (f : OpenNode) : Node :=
  let fields := match f.literal with
    | none => f.fields
    | some (key, collected) =>
      let raw := dropLineFeed collected
      let fields :=
        if f.kind = metadataKind then
          match parseMetadata raw with
          | .ok data => f.fields.insert "data" (.object data)
          | .error _ => f.fields
        else f.fields
      fields.insert key (.string raw)
  ⟨f.kind, fields, f.children.reverse, f.span⟩

end OpenNode

/-! ### Constructs -/

def firstWord? (info : String) : Option String :=
  match (info.toList.dropWhile isUnicodeSpace).takeWhile (!isUnicodeSpace ·) with
  | [] => none
  | word => some (String.ofList word)

def textOrNull (s : String) : Value :=
  if s.isEmpty then .null else .string s

def alignmentName : Markdown.Alignment → Value
  | .none => .null
  | .left => .string "left"
  | .center => .string "center"
  | .right => .string "right"

/-- The kind of a construct, its fields, and the name of its literal field. -/
def tagNode : Tag → String × Object × Option String
  | .paragraph => ("paragraph", [], none)
  | .heading level => ("heading", [("depth", .ofNat level)], none)
  | .blockQuote => ("blockquote", [], none)
  | .codeBlock info =>
    ("code", [("lang", ((info.bind firstWord?).map .string).getD .null)], some "value")
  | .htmlBlock => ("html", [], some "value")
  | .list none => ("list", [("ordered", .bool false)], none)
  | .list (some n) => ("list", [("ordered", .bool true), ("start", .ofNat n)], none)
  | .item => ("listItem", [], none)
  | .footnoteDefinition label => ("footnoteDefinition", [("label", .string label)], none)
  | .table alignments => ("table", [("align", .array (alignments.map alignmentName))], none)
  | .tableHead => ("tableRow", [], none)
  | .tableRow => ("tableRow", [], none)
  | .tableCell => ("tableCell", [], none)
  | .emphasis => ("emphasis", [], none)
  | .strong => ("strong", [], none)
  | .strikethrough => ("delete", [], none)
  | .link url title => ("link", [("url", .string url), ("title", textOrNull title)], none)
  | .image url title =>
    ("image", [("url", .string url), ("title", textOrNull title)], some "alt")
  | .metadataBlock => (metadataKind, [], some "value")
  | .foreign => ("unknown", [], none)

/-! ### The builder -/

/-- The constructs that are open. -/
structure TreeBuilder where
  index : LineIndex
  /-- The root, or what of it is open at the bottom of the stack. -/
  root : OpenNode
  /-- The open constructs inside the root, innermost first. -/
  stack : List OpenNode
  /-- Constructs that are open and have no frame. -/
  flattened : Nat

namespace TreeBuilder

/-- A builder for a text, with nothing but the root open. -/
def start (text : List Char) : TreeBuilder :=
  let index := LineIndex.ofChars text
  ⟨index, ⟨"root", [], [], index.whole, none⟩, [], 0⟩

/-- Changes the innermost frame. -/
def modify (b : TreeBuilder) (f : OpenNode → OpenNode) : TreeBuilder :=
  match b.stack with
  | top :: rest => { b with stack := f top :: rest }
  | [] => { b with root := f b.root }

/-- The innermost frame. -/
def top (b : TreeBuilder) : OpenNode :=
  b.stack.headD b.root

/-- Adds a node to the innermost frame. -/
def attach (b : TreeBuilder) (n : Node) : TreeBuilder :=
  b.modify (·.attach n)

/-- Adds text to the innermost frame if that is literal, else a node. -/
def collectOr (b : TreeBuilder) (text : String) (n : Node) : TreeBuilder :=
  b.modify fun f => (f.collect? text).getD (f.attach n)

/-- Opens a construct, unless it is too deep. -/
def openTag (b : TreeBuilder) (tag : Tag) (span : Span) : TreeBuilder :=
  if 0 < b.flattened ∨ maxDepth ≤ b.stack.length then { b with flattened := b.flattened + 1 }
  else
    let (kind, fields, literal) := tagNode tag
    { b with stack := ⟨kind, fields, [], span, literal.map (·, "")⟩ :: b.stack }

/-- Closes the construct opened last. -/
def close (b : TreeBuilder) : TreeBuilder :=
  if 0 < b.flattened then { b with flattened := b.flattened - 1 }
  else
    match b.stack with
    | [] => b
    | top :: rest => { b with stack := rest }.attach top.finish

/-- Marks the innermost item among frames. -/
def checkItem (checked : Bool) : List OpenNode → List OpenNode
  | [] => []
  | f :: rest =>
    if f.kind = "listItem" then
      { f with fields := f.fields.insert "checked" (.bool checked) } :: rest
    else f :: checkItem checked rest

/-- Takes one event. -/
def step (b : TreeBuilder) (e : Located) : TreeBuilder :=
  let span := b.index.span e.first e.last
  match e.event with
  | .start tag => b.openTag tag span
  | .end_ _ => b.close
  | .text text => b.modify (·.addText text span)
  | .softBreak => b.modify (·.addText "\n" span)
  | .code text => b.collectOr text ((Node.leaf "inlineCode" span).withField "value" (.string text))
  | .html text => b.collectOr text ((Node.leaf "html" span).withField "value" (.string text))
  | .inlineHtml text =>
    b.collectOr text ((Node.leaf "html" span).withField "value" (.string text))
  | .footnoteReference label =>
    b.attach ((Node.leaf "footnoteReference" span).withField "label" (.string label))
  | .hardBreak => b.attach (Node.leaf "break" span)
  | .rule => b.attach (Node.leaf "thematicBreak" span)
  | .taskListMarker checked => { b with stack := checkItem checked b.stack }
  | .foreign => b

/-- Closes the frames of a stack, innermost first, into the root. -/
def closeAll (root : OpenNode) : List OpenNode → OpenNode
  | [] => root
  | [f] => root.attach f.finish
  | f :: g :: rest => closeAll root (g.attach f.finish :: rest)
termination_by stack => stack.length

/-- Closes everything and answers the root. -/
def finish (b : TreeBuilder) : Node :=
  (closeAll b.root b.stack).finish

/-- The tree of a text by a sequence of events. -/
def build (text : List Char) (events : List Located) : Node :=
  (events.foldl step (start text)).finish

end TreeBuilder

end DocSchema
