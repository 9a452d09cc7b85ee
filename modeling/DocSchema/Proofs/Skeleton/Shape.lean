/-
  DocSchema/Proofs/Skeleton/Shape.lean
  ====================================
  **The schemas that occur in skeletons.**

  A skeleton has schemas of three shapes only: for a value, for an object and for a list
  (`Shape`).  The skeleton of a proper tree is that of the shape of the tree
  (`ofTree_eq_toValue`).
-/
import DocSchema.Proofs.Document.Node
import DocSchema.Schema.Basic
import DocSchema.Skeleton

namespace DocSchema.Skeleton

open DocSchema.Json DocSchema.Schema

/-! ### Shapes -/

/-- A schema as it occurs in a skeleton. -/
inductive Shape where
  | const (v : Value)
  | members (title : String) (members : List (String × Shape))
  /-- The items one by one; there is at least one. -/
  | items (first : Shape) (rest : List Shape)

namespace Shape

/-- The type of a value, by the name that skeletons give it. -/
def typeOf : Value → TypeName
  | .null => .null
  | .bool _ => .boolean
  | .number _ => .number
  | .string _ => .string
  | .array _ => .array
  | .object _ => .object

mutual

/-- The schema of a shape, in JSON. -/
def toValue : Shape → Value
  | .const v => ofConst v
  | .members title ms => ofProperties title (memberValues ms)
  | .items first rest => .object [("type", .string "array"),
      ("maxItems", .ofNat (rest.length + 1)), ("items", .array (toValue first :: itemValues rest))]

def itemValues : List Shape → List Value
  | [] => []
  | s :: ss => toValue s :: itemValues ss

def memberValues : List (String × Shape) → Object
  | [] => []
  | (k, s) :: ms => (k, toValue s) :: memberValues ms

end

mutual

/-- What a shape is read as. -/
def schema : Shape → Schema
  | .const v => .all [.const v, .type [typeOf v] true]
  | .members _ ms => .all [.type [.object] true, .properties (memberSchemas ms)]
  | .items first rest => .all [.type [.array] true, .size .maxItems (rest.length + 1),
      .itemList "items" (schema first :: itemSchemas rest)]

def itemSchemas : List Shape → List Schema
  | [] => []
  | s :: ss => schema s :: itemSchemas ss

def memberSchemas : List (String × Shape) → List (String × Schema)
  | [] => []
  | (k, s) :: ms => (k, schema s) :: memberSchemas ms

end

theorem itemValues_eq_map (ss : List Shape) : itemValues ss = ss.map toValue := by
  induction ss with
  | nil => rfl
  | cons s ss ih => rw [itemValues, ih, List.map_cons]

theorem memberValues_eq_map (ms : List (String × Shape)) :
    memberValues ms = ms.map fun m => (m.1, m.2.toValue) := by
  induction ms with
  | nil => rfl
  | cons m ms ih =>
    obtain ⟨k, s⟩ := m
    rw [memberValues, ih, List.map_cons]

theorem itemSchemas_eq_map (ss : List Shape) : itemSchemas ss = ss.map schema := by
  induction ss with
  | nil => rfl
  | cons s ss ih => rw [itemSchemas, ih, List.map_cons]

theorem memberSchemas_eq_map (ms : List (String × Shape)) :
    memberSchemas ms = ms.map fun m => (m.1, m.2.schema) := by
  induction ms with
  | nil => rfl
  | cons m ms ih =>
    obtain ⟨k, s⟩ := m
    rw [memberSchemas, ih, List.map_cons]

/-- Shapes are built from those inside them. -/
theorem by_parts {P : Shape → Prop} (const : ∀ v, P (.const v))
    (members : ∀ title ms, (∀ m ∈ ms, P m.2) → P (.members title ms))
    (items : ∀ first rest, (∀ s ∈ first :: rest, P s) → P (.items first rest)) :
    ∀ s, P s
  | .const v => const v
  | .members title ms => members title ms fun (_, s) _ => by_parts const members items s
  | .items first rest => items first rest fun s _ => by_parts const members items s
termination_by s => sizeOf s
decreasing_by
  · have hlt := List.sizeOf_lt_of_mem ‹_ ∈ ms›
    simp only [Prod.mk.sizeOf_spec, Shape.members.sizeOf_spec] at hlt ⊢
    omega
  · have hlt := List.sizeOf_lt_of_mem ‹s ∈ first :: rest›
    simp only [List.cons.sizeOf_spec, Shape.items.sizeOf_spec] at hlt ⊢
    omega

end Shape

/-! ### The shape of a tree -/

/-- The shapes of the fields of a node; of a header only the data count. -/
def fieldShapes (n : Node) : List (String × Shape) :=
  if n.kind = metadataKind then
    match n.metadata? with
    | some m => [("data", .members "frontmatter schema" (m.map fun (k, v) => (k, .const v)))]
    | none => []
  else n.fields.map fun (k, v) => (k, .const v)

mutual

def shape : Node → Shape
  | ⟨kind, fields, children, span⟩ => .members s!"{kind} node"
      ((kindKey, .const (.string kind)) :: fieldShapes ⟨kind, fields, children, span⟩ ++
        childShapes children)

/-- The member for children, if there are any. -/
def childShapes : List Node → List (String × Shape)
  | [] => []
  | c :: cs => [(childrenKey, .items (shape c) (shapes cs))]

def shapes : List Node → List Shape
  | [] => []
  | n :: ns => shape n :: shapes ns

end

theorem shapes_eq_map (ns : List Node) : shapes ns = ns.map shape := by
  induction ns with
  | nil => rfl
  | cons n ns ih => rw [shapes, ih, List.map_cons]

theorem ofTrees_eq_map (ns : List Node) : ofTrees ns = ns.map ofTree := by
  induction ns with
  | nil => rfl
  | cons n ns ih => rw [ofTrees, ih, List.map_cons]

theorem memberValues_const (ms : Object) :
    Shape.memberValues (ms.map fun (k, v) => (k, .const v)) = ms.map fun (k, v) => (k, ofConst v) := by
  rw [Shape.memberValues_eq_map, List.map_map]
  rfl

theorem ofFields_eq (n : Node) : ofFields n = Shape.memberValues (fieldShapes n) := by
  unfold ofFields fieldShapes
  by_cases hkind : n.kind = metadataKind
  · rw [if_pos hkind, if_pos hkind]
    cases n.metadata? with
    | none => rfl
    | some m =>
      change [("data", ofHeader m)] = [("data", ofProperties _ (Shape.memberValues _))]
      rw [memberValues_const]
      rfl
  · rw [if_neg hkind, if_neg hkind, memberValues_const]

theorem keys_map_ofConst (ms : Object) :
    Object.keys (ms.map fun (k, v) => (k, ofConst v)) = ms.keys := by
  unfold Object.keys
  rw [List.map_map]
  rfl

theorem nodup_keys_ofFields {n : Node} (h : ProperFields n.fields) :
    (kindKey :: childrenKey :: (ofFields n).keys).Nodup := by
  unfold ofFields
  split
  · split <;> simp [Object.keys, kindKey, childrenKey]
  · rw [keys_map_ofConst]
    exact h.keys

/-- The skeleton of a tree is that of its shape. -/
theorem ofTree_eq_toValue {n : Node} (h : n.Proper) : ofTree n = (shape n).toValue := by
  induction h with
  | @mk kind fields children span hfields hchildren ih =>
    have hkeys := nodup_keys_ofFields (n := ⟨kind, fields, children, span⟩) hfields
    obtain ⟨hnew, hown⟩ := List.nodup_cons.1 ((List.Perm.swap _ _ _).nodup_iff.1 hkeys)
    have hinsert : Object.insertAll [(kindKey, ofConst (.string kind))]
        (ofFields ⟨kind, fields, children, span⟩) =
          (kindKey, ofConst (.string kind)) :: ofFields ⟨kind, fields, children, span⟩ :=
      Object.insertAll_of_nodup hown
    have happend (ms ms' : List (String × Shape)) :
        Shape.memberValues (ms ++ ms') = Shape.memberValues ms ++ Shape.memberValues ms' := by
      simp only [Shape.memberValues_eq_map, List.map_append]
    rw [ofTree, shape, Shape.toValue, hinsert, List.cons_append, Shape.memberValues, happend,
      ← ofFields_eq]
    cases children with
    | nil => simp [childShapes, Shape.memberValues, Shape.toValue]
    | cons c cs =>
      have hitems : ofTrees (c :: cs) = (shape c).toValue :: Shape.itemValues (shapes cs) := by
        rw [ofTrees_eq_map, shapes_eq_map, Shape.itemValues_eq_map, List.map_map,
          List.map_congr_left ih]
        rfl
      have hlength : (shapes cs).length + 1 = (c :: cs).length := by
        rw [shapes_eq_map, List.length_map]
        rfl
      have hchild : Shape.memberValues (childShapes (c :: cs)) =
          [(childrenKey, .object [("type", .string "array"),
            ("maxItems", .ofNat (c :: cs).length), ("items", .array (ofTrees (c :: cs)))])] := by
        rw [childShapes, Shape.memberValues, Shape.memberValues, Shape.toValue, hlength, hitems]
      rw [hchild, if_neg (by simp)]
      exact congrArg _ (Object.insert_of_not_mem hnew)

end DocSchema.Skeleton
