/-
  DocSchema/Proofs/Locate.lean
  ============================
  **Following a path of the instance through the tree.**

  A path that leads to a value of a proper tree's instance form is followed to its end: every
  segment is found, and the last span is that of the deepest node with the value in it
  (`deepest_of_at`).
-/
import DocSchema.Locate
import DocSchema.Proofs.Document.Node
import DocSchema.Proofs.Pointer

namespace DocSchema

open DocSchema.Json

namespace Node

/-! ### Nodes on a path -/

/-- The path through the instance form that indexes of children stand for. -/
def childPath : List Nat → List String
  | [] => []
  | i :: is => childrenKey :: toString i :: childPath is

/-- The node `m`, which `is` leads to, has the value `y` at the path in its instance form. -/
def Holds (n : Node) (path : List String) (y : Value) (is : List Nat) (m : Node) : Prop :=
  n.at? is = some m ∧ ∃ rest, path = childPath is ++ rest ∧ m.toInstance.At rest y

/-- The node `m` has the value `y` at the path in its instance form, and no node further down has
it. -/
def Deepest (n : Node) (path : List String) (y : Value) (m : Node) : Prop :=
  ∃ is, n.Holds path y is m ∧ ∀ js m', n.Holds path y js m' → js.length ≤ is.length

variable {n m c : Node} {path rest : List String} {y : Value}

/-- What lies below the children of a node lies in one of them. -/
theorem holds_cons {i : Nat} {is : List Nat} :
    n.Holds (childrenKey :: toString i :: rest) y (i :: is) m ↔
      ∃ c, n.children[i]? = some c ∧ c.Holds rest y is m := by
  simp only [Holds, at?, childPath, List.cons_append, List.cons.injEq, true_and,
    Option.bind_eq_some_iff]
  constructor
  · rintro ⟨⟨c, hc, hm⟩, hrest⟩
    exact ⟨c, hc, hm, hrest⟩
  · rintro ⟨c, hc, hm, hrest⟩
    exact ⟨⟨c, hc, hm⟩, hrest⟩

theorem toString_inj {i j : Nat} (h : toString i = toString j) : i = j := by
  have hi := Pointer.index?_toString i
  rw [h, Pointer.index?_toString] at hi
  exact (Option.some.inj hi).symm

/-- A path that does not go on to a child is in no node further down. -/
theorem deepest_self (hpath : n.toInstance.At path y)
    (hstop : ∀ (i : Nat) rest, path ≠ childrenKey :: toString i :: rest) : n.Deepest path y n := by
  refine ⟨[], ⟨rfl, path, rfl, hpath⟩, fun js m' hjs => ?_⟩
  cases js with
  | nil => exact Nat.le_refl _
  | cons j js =>
    obtain ⟨-, rest, heq, -⟩ := hjs
    exact absurd heq (hstop j _)

/-- A path that goes on to a child has its deepest node below that child. -/
theorem Deepest.child {i : Nat} (hc : n.children[i]? = some c) (h : c.Deepest rest y m) :
    n.Deepest (childrenKey :: toString i :: rest) y m := by
  obtain ⟨is, his, hmax⟩ := h
  refine ⟨i :: is, holds_cons.2 ⟨c, hc, his⟩, fun js m' hjs => ?_⟩
  cases js with
  | nil => exact Nat.zero_le _
  | cons j js =>
    have hj : j = i := by
      obtain ⟨-, rest', heq, -⟩ := hjs
      simp only [childPath, List.cons_append, List.cons.injEq, true_and] at heq
      exact (toString_inj heq.1).symm
    subst hj
    obtain ⟨c', hc', hm'⟩ := holds_cons.1 hjs
    rw [hc] at hc'
    cases hc'
    exact Nat.succ_le_succ (hmax js m' hm')

end Node

/-! ### Following -/

namespace Locate

/-- The span of the last step, or of where the walk has begun. -/
def endSpan (parts : List PathPart) (start : Span) : Span :=
  (parts.getLast?.map (·.span)).getD start

@[simp] theorem endSpan_nil (start : Span) : endSpan [] start = start :=
  rfl

@[simp] theorem endSpan_cons (part : PathPart) (parts : List PathPart) (start : Span) :
    endSpan (part :: parts) start = endSpan parts part.span := by
  cases parts with
  | nil => rfl
  | cons next rest =>
    have hlast := List.getLast?_eq_some_getLast (List.cons_ne_nil next rest)
    unfold endSpan
    rw [List.getLast?_cons_cons, hlast]
    rfl

variable {n owner : Node} {v y : Value} {path : List String}

/-- Inside a field, every step has the span of the node that owns it. -/
theorem follow_value (h : v.At path y) :
    (follow (.value v owner) path).map (·.segment) = path ∧
      endSpan (follow (.value v owner) path) owner.span = owner.span := by
  induction h with
  | here v => exact ⟨rfl, rfl⟩
  | @member o key x y path hget _ ih =>
    have hstep : step? (.value (.object o) owner) key = some (owner.span, .value x owner) := by
      simp [step?, part?, hget]
    simp only [follow, hstep, List.map_cons, endSpan_cons]
    exact ⟨by rw [ih.1], ih.2⟩
  | @item xs i x y path hx _ ih =>
    have hstep : step? (.value (.array xs) owner) (toString i) =
        some (owner.span, .value x owner) := by
      simp only [step?, part?, Pointer.index?_toString, Option.bind_some, hx, Option.map_some]
    simp only [follow, hstep, List.map_cons, endSpan_cons]
    exact ⟨by rw [ih.1], ih.2⟩

/-- A step that stays at the node: to its kind, to a field, or to the list of its children. -/
theorem deepest_of_stay {key : String} {place : Place} (h : n.toInstance.At (key :: path) y)
    (hstop : ∀ (i : Nat) rest, key :: path ≠ childrenKey :: toString i :: rest)
    (hstep : step? (.node n) key = some (n.span, place))
    (hplace : (follow place path).map (·.segment) = path ∧
      endSpan (follow place path) n.span = n.span) :
    (follow (.node n) (key :: path)).map (·.segment) = key :: path ∧
      ∃ m, n.Deepest (key :: path) y m ∧
        endSpan (follow (.node n) (key :: path)) n.span = m.span := by
  simp only [follow, hstep, List.map_cons, endSpan_cons]
  exact ⟨by rw [hplace.1], n, Node.deepest_self h hstop, hplace.2⟩

/-- A step to a child, whose own part of the path has been followed. -/
theorem deepest_of_child {c : Node} {i : Nat} {rest : List String}
    (hfield : n.field? childrenKey = some (.children n.children)) (hc : n.children[i]? = some c)
    (h : (follow (.node c) rest).map (·.segment) = rest ∧
      ∃ m, c.Deepest rest y m ∧ endSpan (follow (.node c) rest) c.span = m.span) :
    (follow (.node n) (childrenKey :: toString i :: rest)).map (·.segment) =
        childrenKey :: toString i :: rest ∧
      ∃ m, n.Deepest (childrenKey :: toString i :: rest) y m ∧
        endSpan (follow (.node n) (childrenKey :: toString i :: rest)) n.span = m.span := by
  obtain ⟨hsegments, m, hdeepest, hspan⟩ := h
  have hstep : step? (.node n) childrenKey = some (n.span, .children n.children) := by
    simp only [step?, hfield, Option.map_some]
  have hchild : step? (.children n.children) (toString i) = some (c.span, .node c) := by
    simp only [step?, Pointer.index?_toString, Option.bind_some, hc, Option.map_some]
  simp only [follow, hstep, hchild, List.map_cons, endSpan_cons]
  exact ⟨by rw [hsegments], m, hdeepest.child hc, hspan⟩

/-- A path to a value of the instance form is followed to its end, and ends with the span of the
deepest node that has the value in it. -/
theorem deepest_of_at (hn : n.Proper) (h : n.toInstance.At path y) :
    (follow (.node n) path).map (·.segment) = path ∧
      ∃ m, n.Deepest path y m ∧ endSpan (follow (.node n) path) n.span = m.span := by
  induction hn generalizing path with
  | @mk kind fields children span hfields hchildren ih =>
    have hproper : Node.Proper ⟨kind, fields, children, span⟩ := .mk hfields hchildren
    have hinstance := h
    rw [Node.toInstance_eq_layout hproper] at h
    cases h with
    | here =>
      refine ⟨rfl, _, Node.deepest_self hinstance fun i rest heq => ?_, rfl⟩
      cases heq
    | @member _ key x _ path hget hx =>
      rw [Node.get?_layout hproper] at hget
      obtain ⟨field, hfield, rfl⟩ := Option.map_eq_some_iff.1 hget
      -- which property it is decides where the path goes on
      cases field with
      | kind k =>
        have hkey := Node.ne_childrenKey_of_field? hfield fun nodes => Field.noConfusion
        have hstop : ∀ (i : Nat) rest, key :: path ≠ childrenKey :: toString i :: rest :=
          fun i rest heq => hkey (List.cons.inj heq).1
        have hstep : step? (.node ⟨kind, fields, children, span⟩) key = some (span, .kind) := by
          simp [step?, hfield]
        cases hx
        exact deepest_of_stay hinstance hstop hstep ⟨rfl, rfl⟩
      | value v =>
        have hkey := Node.ne_childrenKey_of_field? hfield fun nodes => Field.noConfusion
        have hstop : ∀ (i : Nat) rest, key :: path ≠ childrenKey :: toString i :: rest :=
          fun i rest heq => hkey (List.cons.inj heq).1
        have hstep : step? (.node ⟨kind, fields, children, span⟩) key =
            some (span, .value v ⟨kind, fields, children, span⟩) := by
          simp [step?, hfield]
        exact deepest_of_stay hinstance hstop hstep (follow_value hx)
      | children nodes =>
        obtain ⟨rfl, rfl⟩ := Node.eq_of_field?_children hfield
        cases hx with
        | here =>
          have hstop : ∀ (i : Nat) rest, [childrenKey] ≠ childrenKey :: toString i :: rest := by
            intro i rest heq
            cases (List.cons.inj heq).2
          have hstep : step? (.node ⟨kind, fields, nodes, span⟩) childrenKey =
              some (span, .children nodes) := by
            simp [step?, hfield]
          exact deepest_of_stay hinstance hstop hstep ⟨rfl, rfl⟩
        | @item _ i x _ rest hitem hrest =>
          rw [List.getElem?_map] at hitem
          obtain ⟨c, hc, rfl⟩ := Option.map_eq_some_iff.1 hitem
          exact deepest_of_child hfield hc (ih c (List.mem_of_getElem? hc) hrest)

end Locate

end DocSchema
