/-
  DocSchema/Skeleton.lean
  =======================
  **A schema made from an example document.**

  The skeleton of a tree pins every scalar to its value and every list of children to its
  length.  The node of the header is described by the data of the header alone, not by its
  text.  A skeleton is a start to be loosened by hand.
-/
import DocSchema.Document.Node

namespace DocSchema.Skeleton

open DocSchema.Json

/-- The draft that skeletons are written in; it lists the schemas of items one by one. -/
def draft : String := "http://json-schema.org/draft-07/schema#"

def ofConst (v : Value) : Value :=
  .object [("const", v), ("type", .string v.typeName)]

/-- The schema of an object with these properties. -/
def ofProperties (title : String) (properties : Object) : Value :=
  .object [("type", .string "object"), ("title", .string title),
    ("properties", .object properties)]

/-- The schema of a header, without the draft. -/
def ofHeader (metadata : Object) : Value :=
  ofProperties "frontmatter schema" (metadata.map fun (k, v) => (k, ofConst v))

def ofFields (n : Node) : Object :=
  if n.kind = metadataKind then
    match n.metadata? with
    | some m => [("data", ofHeader m)]
    | none => []
  else n.fields.map fun (k, v) => (k, ofConst v)

mutual

/-- The schema of a tree, without the draft. -/
def ofTree : Node → Value
  | ⟨kind, fields, children, span⟩ =>
    let own : Object := Object.insertAll [(kindKey, ofConst (.string kind))]
      (ofFields ⟨kind, fields, children, span⟩)
    let all :=
      if children.isEmpty then own
      else own.insert childrenKey (.object [("type", .string "array"),
        ("maxItems", .ofNat children.length), ("items", .array (ofTrees children))])
    ofProperties s!"{kind} node" all

def ofTrees : List Node → List Value
  | [] => []
  | n :: ns => ofTree n :: ofTrees ns

end

/-- Puts the draft in front of a schema. -/
def withDraft (schema : Value) : Value :=
  .object (Object.insertAll [("$schema", .string draft)] (schema.asObject?.getD []))

end DocSchema.Skeleton

namespace DocSchema

def synthesize (n : Node) : Json.Value :=
  Skeleton.withDraft (Skeleton.ofTree n)

def synthesizeMetadata (metadata : Json.Object) : Json.Value :=
  Skeleton.withDraft (Skeleton.ofHeader metadata)

end DocSchema
