/-
  DocSchema/Proofs/Locate/Lookup.lean
  ===================================
  **To follow a path through the tree is to look it up in the instance form.**

  A look-up in a value goes by keys in objects and by indexes in arrays (`Json.Value.Addresses`).  A
  place in a proper tree shows a part of its instance form (`Locate.Shows`), and a step leads to a
  place that shows what the segment stands for there, or the segment stands for nothing
  (`step_cases`).  So a path is followed exactly as far as it can be looked up
  (`follow_looks_up`).

  The spans belong to the tree alone: each is that of the node that the path has come down to by
  then (`spans_follow`).
-/
import DocSchema.Locate
import DocSchema.Proofs.Document.Node
import DocSchema.Proofs.Pointer

namespace DocSchema

open DocSchema.Json DocSchema.Pointer

/-! ### Looking up -/

namespace Json.Value

/-- `Child v segment x`: the segment stands for `x` in `v`, as a key or as an index. -/
inductive Child : Value → String → Value → Prop
  | member {o : Object} {key : String} {x : Value} (h : o.get? key = some x) :
      Child (.object o) key x
  | item {xs : List Value} {segment : String} {i : Nat} {x : Value} (hindex : IsIndex segment i)
      (h : xs[i]? = some x) : Child (.array xs) segment x

/-- `Addresses v path x`: the path leads from `v` to `x`. -/
inductive Addresses : Value → List String → Value → Prop
  | here (v : Value) : Addresses v [] v
  | step {v x y : Value} {segment : String} {path : List String} (h : Child v segment x)
      (hx : Addresses x path y) : Addresses v (segment :: path) y

theorem Child.unique {v x y : Value} {segment : String} (hx : Child v segment x)
    (hy : Child v segment y) : x = y := by
  cases hx with
  | member hx =>
    cases hy with
    | member hy => exact Option.some.inj (hx.symm.trans hy)
  | item hi hx =>
    cases hy with
    | item hj hy =>
      rw [hi.unique hj] at hx
      exact Option.some.inj (hx.symm.trans hy)

end Json.Value

/-! ### Nodes on the way -/

namespace Node

/-- `Descends n way m`: the way leads from `n` down to `m`, by the indexes of children. -/
inductive Descends : Node → List String → Node → Prop
  | here (n : Node) : Descends n [] n
  | child {n c m : Node} {segment : String} {i : Nat} {way : List String}
      (hindex : IsIndex segment i) (hc : n.children[i]? = some c) (h : Descends c way m) :
      Descends n (childrenKey :: segment :: way) m

/-- The node `m` is where the path from `n` has come down to: no more of the path leads further
down. -/
def Innermost (n : Node) (path : List String) (m : Node) : Prop :=
  ∃ way, way <+: path ∧ n.Descends way m ∧
    ∀ way' m', way' <+: path → n.Descends way' m' → way'.length ≤ way.length

variable {n c m : Node} {path : List String}

/-- A path stays at a node unless it goes on to a child. -/
theorem innermost_self (h : ∀ segment rest, path ≠ childrenKey :: segment :: rest) :
    n.Innermost path n := by
  refine ⟨[], List.nil_prefix, .here n, fun way m hpath hway => ?_⟩
  cases hway with
  | here => exact Nat.le_refl _
  | child _ _ _ =>
    obtain ⟨rest, heq⟩ := hpath
    exact absurd heq.symm (h _ _)

theorem Innermost.child {segment : String} {i : Nat} (hindex : IsIndex segment i)
    (hc : n.children[i]? = some c) (h : c.Innermost path m) :
    n.Innermost (childrenKey :: segment :: path) m := by
  obtain ⟨way, hpath, hway, hmax⟩ := h
  refine ⟨childrenKey :: segment :: way, ?_, .child hindex hc hway, ?_⟩
  · simpa using hpath
  · intro way' m' hpath' hway'
    cases hway' with
    | here => exact Nat.zero_le _
    | @child _ c' _ segment' i' way' hindex' hc' h' =>
      obtain ⟨-, hrest⟩ := List.cons_prefix_cons.1 hpath'
      obtain ⟨rfl, htail⟩ := List.cons_prefix_cons.1 hrest
      rw [hindex'.unique hindex, hc] at hc'
      cases hc'
      have hlength := hmax way' m' htail h'
      simpa using hlength

end Node

namespace Locate

/-! ### Places and values -/

/-- `Shows place v`: at the place there is what the instance form has as `v`. -/
inductive Shows : Place → Value → Prop
  | node {n : Node} (h : n.Proper) : Shows (.node n) n.toInstance
  | children {nodes : List Node} (h : ∀ c ∈ nodes, c.Proper) :
      Shows (.children nodes) (.array (nodes.map Node.toInstance))
  | value (v : Value) (owner : Node) : Shows (.value v owner) v
  | kind (kind : String) : Shows .kind (.string kind)

variable {place next : Place} {v x : Value} {segment : String} {span : Span} {path : List String}

theorem part?_eq_some_iff : part? v segment = some x ↔ v.Child segment x := by
  constructor
  · intro h
    cases v with
    | object o => exact .member h
    | array xs =>
      obtain ⟨i, hi, hx⟩ := Option.bind_eq_some_iff.1 h
      exact .item (index?_eq_some_iff.1 hi) hx
    | null | bool _ | number _ | string _ => cases h
  · intro h
    cases h with
    | member h => exact h
    | item hi hx => simp [part?, index?_eq_some_iff.2 hi, hx]

/-- The properties of a proper node are the members of its instance form. -/
theorem child_toInstance {n : Node} (h : n.Proper) :
    n.toInstance.Child segment x ↔ (n.field? segment).map Node.fieldValue = some x := by
  rw [Node.toInstance_eq_layout h, ← part?_eq_some_iff, ← Node.get?_layout h]
  rfl

/-- A step leads to a place that shows what the segment stands for, or it stands for nothing. -/
theorem step_cases (h : Shows place v) (segment : String) :
    (∃ span next x, step? place segment = some (span, next) ∧ v.Child segment x ∧ Shows next x) ∨
      step? place segment = none ∧ ∀ x, ¬ v.Child segment x := by
  cases h with
  | @node n hn =>
    cases hfield : n.field? segment with
    | none =>
      refine .inr ⟨by simp [step?, hfield], fun x hx => ?_⟩
      rw [child_toInstance hn, hfield] at hx
      cases hx
    | some field =>
      have hchild : n.toInstance.Child segment (Node.fieldValue field) := by
        rw [child_toInstance hn, hfield, Option.map_some]
      cases field with
      | kind k => exact .inl ⟨n.span, .kind, _, by simp [step?, hfield], hchild, .kind k⟩
      | value v => exact .inl ⟨n.span, .value v n, _, by simp [step?, hfield], hchild, .value v n⟩
      | children nodes =>
        obtain ⟨-, rfl⟩ := Node.eq_of_field?_children hfield
        have hshows : Shows (.children n.children) (.array (n.children.map Node.toInstance)) :=
          .children fun c hc => hn.child hc
        exact .inl ⟨n.span, .children n.children, _, by simp [step?, hfield], hchild, hshows⟩
  | @children nodes hnodes =>
    cases hchild : (Pointer.index? segment).bind fun i => nodes[i]? with
    | none =>
      refine .inr ⟨by simp [step?, hchild], fun x hx => ?_⟩
      cases hx with
      | item hi hx =>
        rw [List.getElem?_map] at hx
        obtain ⟨c, hc, -⟩ := Option.map_eq_some_iff.1 hx
        rw [index?_eq_some_iff.2 hi, Option.bind_some, hc] at hchild
        cases hchild
    | some c =>
      obtain ⟨i, hi, hc⟩ := Option.bind_eq_some_iff.1 hchild
      refine .inl ⟨c.span, .node c, c.toInstance, by simp [step?, hchild], ?_, ?_⟩
      · exact .item (index?_eq_some_iff.1 hi) (by rw [List.getElem?_map, hc, Option.map_some])
      · exact .node (hnodes c (List.mem_of_getElem? hc))
  | value v owner =>
    cases hpart : part? v segment with
    | none =>
      refine .inr ⟨by simp [step?, hpart], fun x hx => ?_⟩
      rw [part?_eq_some_iff.2 hx] at hpart
      cases hpart
    | some x =>
      exact .inl ⟨owner.span, .value x owner, x, by simp [step?, hpart],
        part?_eq_some_iff.1 hpart, .value x owner⟩
  | kind k => exact .inr ⟨rfl, fun x hx => nomatch hx⟩

/-- A path is followed as far as it can be looked up. -/
theorem follow_looks_up (h : Shows place v) (path : List String) :
    (follow place path).map (·.segment) <+: path ∧
      (∃ y, v.Addresses ((follow place path).map (·.segment)) y) ∧
      ∀ more y, more <+: path → v.Addresses more y → more.length ≤ (follow place path).length := by
  induction path generalizing place v with
  | nil =>
    refine ⟨List.nil_prefix, ⟨v, .here v⟩, fun more y hmore _ => ?_⟩
    rw [List.prefix_nil.1 hmore]
    exact Nat.le_refl _
  | cons segment rest ih =>
    obtain ⟨span, next, x, hstep, hx, hnext⟩ | ⟨hstep, hnone⟩ := step_cases h segment
    · obtain ⟨hpath, ⟨y, hy⟩, hmax⟩ := ih hnext
      simp only [follow, hstep, List.map_cons, List.length_cons]
      refine ⟨List.cons_prefix_cons.2 ⟨rfl, hpath⟩, ⟨y, .step hx hy⟩, fun more z hmore hz => ?_⟩
      cases hz with
      | here => exact Nat.zero_le _
      | step hx' hz =>
        obtain ⟨rfl, htail⟩ := List.cons_prefix_cons.1 hmore
        rw [hx'.unique hx] at hz
        exact Nat.succ_le_succ (hmax _ z htail hz)
    · simp only [follow, hstep, List.map_nil, List.length_nil]
      refine ⟨List.nil_prefix, ⟨v, .here v⟩, fun more z hmore hz => ?_⟩
      cases hz with
      | here => exact Nat.le_refl _
      | step hx' _ =>
        obtain ⟨rfl, -⟩ := List.cons_prefix_cons.1 hmore
        exact absurd hx' (hnone _)

/-! ### Spans -/

/-- Part by part, the spans are those of the nodes that the path has come down to. -/
def Spans (n : Node) (path : List String) (parts : List PathPart) : Prop :=
  ∀ k part, parts[k]? = some part → ∃ m, n.Innermost (path.take (k + 1)) m ∧ part.span = m.span

variable {n c : Node} {parts : List PathPart}

theorem spans_nil : Spans n path [] :=
  fun _ _ hk => by cases hk

theorem spans_single (key : String) : Spans n (key :: path) [⟨key, n.span⟩] := by
  intro k part hk
  cases k with
  | zero =>
    cases hk
    exact ⟨n, Node.innermost_self fun segment rest heq => by simp at heq, rfl⟩
  | succ k => cases hk

theorem Spans.child {i : Nat} (hindex : IsIndex segment i) (hc : n.children[i]? = some c)
    (h : Spans c path parts) : Spans n (childrenKey :: segment :: path)
      (⟨childrenKey, n.span⟩ :: ⟨segment, c.span⟩ :: parts) := by
  intro k part hk
  match k with
  | 0 => exact spans_single childrenKey 0 part hk
  | 1 =>
    cases hk
    have hself : c.Innermost [] c := Node.innermost_self fun segment rest heq => by cases heq
    exact ⟨c, hself.child hindex hc, rfl⟩
  | k + 2 =>
    obtain ⟨m, hm, hspan⟩ := h k part hk
    exact ⟨m, hm.child hindex hc, hspan⟩

/-- Inside a field, every part has the span of the node that owns it. -/
theorem span_of_mem_follow_value {owner : Node} {part : PathPart}
    (h : part ∈ follow (.value v owner) path) : part.span = owner.span := by
  induction path generalizing v with
  | nil => cases h
  | cons segment rest ih =>
    cases hpart : part? v segment with
    | none => simp [follow, step?, hpart] at h
    | some x =>
      simp only [follow, step?, hpart, Option.map_some] at h
      rcases List.mem_cons.1 h with rfl | h
      · rfl
      · exact ih h

theorem spans_value {key : String} (hkey : key ≠ childrenKey) :
    Spans n (key :: path) (⟨key, n.span⟩ :: follow (.value v n) path) := by
  intro k part hk
  refine ⟨n, Node.innermost_self fun segment rest heq => hkey (List.cons.inj heq).1, ?_⟩
  rcases List.mem_cons.1 (List.mem_of_getElem? hk) with rfl | hmem
  · rfl
  · exact span_of_mem_follow_value hmem

theorem spans_follow : ∀ (n : Node) (path : List String), Spans n path (follow (.node n) path)
  | n, [] => spans_nil
  | n, key :: path => by
    cases hfield : n.field? key with
    | none =>
      have hnone : follow (.node n) (key :: path) = [] := by simp [follow, step?, hfield]
      rw [hnone]
      exact spans_nil
    | some field =>
      cases field with
      | kind k =>
        have hsingle : follow (.node n) (key :: path) = [⟨key, n.span⟩] := by
          cases path <;> simp [follow, step?, hfield]
        rw [hsingle]
        exact spans_single key
      | value v =>
        have hkey := Node.ne_childrenKey_of_field? hfield fun nodes => Field.noConfusion
        simp only [follow, step?, hfield, Option.map_some]
        exact spans_value hkey
      | children nodes =>
        obtain ⟨rfl, rfl⟩ := Node.eq_of_field?_children hfield
        match path with
        | [] =>
          simp only [follow, step?, hfield, Option.map_some]
          exact spans_single childrenKey
        | segment :: rest =>
          cases hchild : (Pointer.index? segment).bind fun i => n.children[i]? with
          | none =>
            simp only [follow, step?, hfield, hchild, Option.map_some, Option.map_none]
            exact spans_single childrenKey
          | some c =>
            obtain ⟨i, hi, hc⟩ := Option.bind_eq_some_iff.1 hchild
            simp only [follow, step?, hfield, hchild, Option.map_some]
            exact (spans_follow c rest).child (index?_eq_some_iff.1 hi) hc

/-! ### Trails -/

/-- The parts are what can be looked up of the path in the instance form of the tree, each with the
span of the node that the path has come down to by then. -/
structure Trail (n : Node) (path : List String) (parts : List PathPart) : Prop where
  segments : parts.map (·.segment) <+: path
  reached : ∃ y, n.toInstance.Addresses (parts.map (·.segment)) y
  longest : ∀ more y, more <+: path → n.toInstance.Addresses more y → more.length ≤ parts.length
  spans : Spans n path parts

/-- **To locate a path in a tree is to look it up in the instance form.**  In a proper tree, the
parts are the segments of the longest part of the path, from its start, that leads to a value of
the instance form; and each has the span of the node that the path has come down to by then, by
indexes of children from the root. -/
theorem trail_of_locate {tree : Node} (h : tree.Proper) (path : List String) :
    Trail tree path (locate tree path) := by
  obtain ⟨hsegments, hreached, hlongest⟩ := follow_looks_up (.node h) path
  exact ⟨hsegments, hreached, hlongest, spans_follow tree path⟩

/-- In the header the name of the children is a name like others, and an index may start with
noughts. -/
theorem trail_into_header :
    let header : Node := ⟨metadataKind, [("data", .object [("children", .array [.null, .null])])],
      [], ⟨⟨1, 1⟩, ⟨3, 4⟩, 0, 15⟩⟩
    let tree : Node := ⟨"root", [], [header], ⟨⟨1, 1⟩, ⟨4, 1⟩, 0, 16⟩⟩
    Trail tree ["children", "00", "data", "children", "0001", "0"]
      [⟨"children", tree.span⟩, ⟨"00", header.span⟩, ⟨"data", header.span⟩,
        ⟨"children", header.span⟩, ⟨"0001", header.span⟩] := by
  intro header tree
  have hdata : Value.Proper (.object [("children", .array [.null, .null])]) := by
    refine .object (by decide) fun k x hx => ?_
    cases List.mem_singleton.1 hx
    refine .array fun x hx => ?_
    obtain rfl : x = .null := by simpa using hx
    exact .null
  have hfields : ProperFields header.fields :=
    ⟨by decide, fun k x hx => by cases List.mem_singleton.1 hx; exact hdata⟩
  have hheader : header.Proper := .mk hfields fun n hn => absurd hn List.not_mem_nil
  have htree : tree.Proper :=
    .mk properFields_nil fun n hn => List.mem_singleton.1 hn ▸ hheader
  have hlocate : locate tree ["children", "00", "data", "children", "0001", "0"] =
      [⟨"children", tree.span⟩, ⟨"00", header.span⟩, ⟨"data", header.span⟩,
        ⟨"children", header.span⟩, ⟨"0001", header.span⟩] := by
    decide +kernel
  rw [← hlocate]
  exact trail_of_locate htree _

end Locate

end DocSchema
