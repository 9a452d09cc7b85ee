/-
  DocSchema/Document.lean
  =======================
  **Reading a document.**

  A document may open with a header; the rest is its body.  Both are read as Markdown events,
  and the tree is built from them.  Reading never fails: a header that holds no mapping leaves
  the document without metadata.
-/
import DocSchema.Document.Builder
import DocSchema.Json.Reader

namespace DocSchema

open DocSchema.Json DocSchema.Markdown

/-- A document: its tree and the data of its header. -/
structure Document where
  root : Node
  metadata : Option Object

namespace Document

/-- The events of a document: those of its header, then those of its body. -/
def events (text : List Char) : List Located :=
  match header? text with
  | some (events, size) =>
    let offset := byteCount (text.take size)
    events ++ (Markdown.events (text.drop size)).map (·.shift offset)
  | none => Markdown.events text

/-- Reads the characters of a document. -/
def ofChars (text : List Char) : Document :=
  let root := TreeBuilder.build text (events text)
  ⟨root, root.children.head?.bind Node.metadata?⟩

def parse (text : String) : Document :=
  ofChars text.toList

/-- What the header names as the schema of the document. -/
def schemaRef? (d : Document) : Option String :=
  d.metadata.bind fun m => (m.get? schemaKey).bind Value.asString?

end Document

end DocSchema
