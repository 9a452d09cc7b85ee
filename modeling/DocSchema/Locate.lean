/-
  DocSchema/Locate.lean
  =====================
  **Where in the source a value of the instance comes from.**

  A path through the instance of a tree is followed through the tree itself; every step has the
  span of a node.  A step to a field has the span of the node that owns the field, since fields
  have none of their own; so have the steps inside the field's value.  A step to a child has
  the span of the child.  A path that leads nowhere is followed as far as it goes.
-/
import DocSchema.Document.Node
import DocSchema.Pointer

namespace DocSchema

open DocSchema.Json

/-- A step of a path, with the span it leads to. -/
structure PathPart where
  segment : String
  span : Span
  deriving DecidableEq, Repr

namespace Locate

/-- Where a path has led to. -/
inductive Place where
  | node (n : Node)
  | children (nodes : List Node)
  /-- A value inside the field of a node. -/
  | value (v : Value) (owner : Node)
  | kind

def part? (v : Value) (segment : String) : Option Value :=
  match v with
  | .object members => Object.get? members segment
  | .array items => (Pointer.index? segment).bind fun i => items[i]?
  | _ => none

def step? (place : Place) (segment : String) : Option (Span × Place) :=
  match place with
  | .node n =>
    (n.field? segment).map fun field =>
      match field with
      | .kind _ => (n.span, .kind)
      | .children nodes => (n.span, .children nodes)
      | .value v => (n.span, .value v n)
  | .children nodes =>
    ((Pointer.index? segment).bind fun i => nodes[i]?).map fun child => (child.span, .node child)
  | .value v owner => (part? v segment).map fun v => (owner.span, .value v owner)
  | .kind => none

def follow (place : Place) : List String → List PathPart
  | [] => []
  | segment :: rest =>
    match step? place segment with
    | some (span, next) => ⟨segment, span⟩ :: follow next rest
    | none => []

end Locate

/-- Follows a path through the instance of a tree. -/
def locate (tree : Node) (path : List String) : List PathPart :=
  Locate.follow (.node tree) path

end DocSchema
