/-
  DocSchema/Document/Node.lean
  ============================
  **The positioned tree of a document.**

  A node has a kind, fields, children and a span.  It has two forms in JSON.  The serialized
  form tells everything, the span as `position`.  The instance form is what schemas describe:
  `type` is the kind, each field a member, and `children` is there if the node has any; spans
  are no part of it.

  The nodes of a tree are visited by a walk (`Walk`), which keeps those still to be visited on a
  stack.
-/
import DocSchema.Document.Span

namespace DocSchema

open DocSchema.Json

/-- The member that holds the kind of a node. -/
def kindKey : String := "type"

/-- The member that holds the children of a node. -/
def childrenKey : String := "children"

/-- The kind of the node that holds the header of a document. -/
def metadataKind : String := "yaml"

/-- The key of the header that names the schema. -/
def schemaKey : String := "$schema"

/-- A node of the tree. -/
structure Node where
  kind : String
  fields : Object
  children : List Node
  span : Span

/-- A property of a node by its name in the instance form. -/
inductive Field where
  | kind (kind : String)
  | children (children : List Node)
  | value (value : Value)

namespace Node

/-- A node without fields and children. -/
def leaf (kind : String) (span : Span) : Node :=
  ⟨kind, [], [], span⟩

def withField (n : Node) (key : String) (value : Value) : Node :=
  { n with fields := n.fields.insert key value }

/-- The property of a name; a node without children has no property `children`. -/
def field? (n : Node) (name : String) : Option Field :=
  if name = kindKey then some (.kind n.kind)
  else if name = childrenKey then
    if n.children.isEmpty then none else some (.children n.children)
  else (n.fields.get? name).map .value

/-- The data of the header, if this is the node of a header that could be read. -/
def metadata? (n : Node) : Option Object :=
  if n.kind = metadataKind then (n.fields.get? "data").bind Value.asObject? else none

mutual

def toInstance : Node → Value
  | ⟨kind, fields, children, _⟩ =>
    let own := Object.insertAll [(kindKey, .string kind)] fields
    .object (if children.isEmpty then own
      else own.insert childrenKey (.array (childInstances children)))

/-- The instance forms of nodes. -/
def childInstances : List Node → List Value
  | [] => []
  | n :: ns => toInstance n :: childInstances ns

end

mutual

/-- The serialized form of a node: kind, fields, children and span, each as a member of its
own. -/
def toJson : Node → Value
  | ⟨kind, fields, children, span⟩ =>
    .object ((kindKey, .string kind) :: fields ++
      (if children.isEmpty then [] else [(childrenKey, .array (childrenToJson children))]) ++
      [("position", span.toJson)])

/-- The serialized forms of nodes. -/
def childrenToJson : List Node → List Value
  | [] => []
  | n :: ns => toJson n :: childrenToJson ns

end

/-! ### Walking the tree -/

mutual

/-- The nodes of a tree, each before its children and these from left to right. -/
def preorder : Node → List Node
  | ⟨kind, fields, children, span⟩ =>
    ⟨kind, fields, children, span⟩ :: preorderAll children

/-- The nodes of several trees, one tree after the other. -/
def preorderAll : List Node → List Node
  | [] => []
  | n :: ns => preorder n ++ preorderAll ns

end

mutual

/-- The number of nodes of a tree. -/
def count : Node → Nat
  | ⟨_, _, children, _⟩ => countAll children + 1

/-- The number of nodes of several trees. -/
def countAll : List Node → Nat
  | [] => 0
  | n :: ns => count n + countAll ns

end

theorem countAll_append (xs ys : List Node) :
    countAll (xs ++ ys) = countAll xs + countAll ys := by
  induction xs with
  | nil => simp [countAll]
  | cons x xs ih => simp [countAll, ih, Nat.add_assoc]

theorem countAll_reverse (ns : List Node) : countAll ns.reverse = countAll ns := by
  induction ns with
  | nil => rfl
  | cons n ns ih => simp [countAll_append, countAll, ih, Nat.add_comm]

end Node

/-- A walk that is under way: the nodes that are still to be visited, the next one last. -/
structure Walk where
  stack : Array Node

namespace Walk

/-- The number of nodes that the walk has not come to. -/
def remaining (w : Walk) : Nat :=
  Node.countAll w.stack.toList

/-- Visits the next node; its children go on the stack, the first of them last. -/
def next? (w : Walk) : Option (Node × Walk) :=
  w.stack.back?.map fun n => (n, ⟨w.stack.pop ++ n.children.reverse⟩)

/-- Every visit leaves one node less. -/
theorem remaining_of_next? {w w' : Walk} {n : Node} (h : w.next? = some (n, w')) :
    w'.remaining + 1 = w.remaining := by
  obtain ⟨stack⟩ := w
  obtain ⟨_, hback, heq⟩ := Option.map_eq_some_iff.1 h
  obtain ⟨below, rfl⟩ := Array.back?_eq_some_iff.1 hback
  cases heq
  obtain ⟨kind, fields, children, span⟩ := n
  simp [remaining, Node.countAll_append, Node.countAll_reverse, Node.countAll, Node.count,
    Nat.add_assoc]

/-- The nodes that the walk has not come to, in the order of its visits. -/
def toList (w : Walk) : List Node :=
  match h : w.next? with
  | none => []
  | some (n, rest) =>
    have : rest.remaining + 1 = w.remaining := remaining_of_next? h
    n :: rest.toList
termination_by w.remaining

end Walk

namespace Node

/-- Walks a tree from its root. -/
def walk (n : Node) : List Node :=
  Walk.toList ⟨#[n]⟩

end Node

end DocSchema
