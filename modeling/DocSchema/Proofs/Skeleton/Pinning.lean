/-
  DocSchema/Proofs/Skeleton/Pinning.lean
  ======================================
  **What a skeleton accepts.**

  The skeleton of `a` accepts a tree exactly when `a` pins it (`Pins`): node by node the kind is
  the same, the fields that both nodes have are the same, and there are no more children than `a`
  has, where `a` has any.  Of a node without children the skeleton says nothing about children,
  so that such a node stands for nodes with any children (`longer_document_accepted`).

  The schemas of the three shapes are opened once (`accepts_const`, `accepts_members`,
  `accepts_items`); everything else follows the two trees.
-/
import DocSchema.Proofs.Document.Proper
import DocSchema.Proofs.Json.Compare
import DocSchema.Proofs.Schema.Clean
import DocSchema.Proofs.Skeleton.Compile
import DocSchema.Validation

namespace DocSchema.Skeleton

open DocSchema.Json DocSchema.Schema

/-! ### The relation -/

/-- The members that both objects have are as expected. -/
def Agrees (expected given : Object) : Prop :=
  ∀ key v w, expected.get? key = some v → given.get? key = some w → v.isExpected w = true

/-- The fields of `b` that `a` has too are as in `a`.  Of a header only the data count, by their
keys, and they cannot be anything but a mapping. -/
def PinsFields (a b : Node) : Prop :=
  if a.kind = metadataKind then
    ∀ m w, a.metadata? = some m → b.fields.get? "data" = some w →
      ∃ m', w = .object m' ∧ Agrees m m'
  else Agrees a.fields b.fields

/-- `b` is as `a` is, as far as the skeleton of `a` can tell. -/
inductive Pins : Node → Node → Prop
  | mk {a b : Node} (kind : b.kind = a.kind) (fields : PinsFields a b)
      (length : a.children ≠ [] → b.children.length ≤ a.children.length)
      (children : ∀ (i : Nat) (c d : Node),
        a.children[i]? = some c → b.children[i]? = some d → Pins c d) : Pins a b

theorem Agrees.self (o : Object) : Agrees o o := by
  intro key v w hv hw
  cases hv.symm.trans hw
  exact v.isExpected_self

/-- A tree is as it is itself. -/
theorem Pins.self {n : Node} (h : n.Proper) : Pins n n := by
  induction h with
  | @mk kind fields children span hfields hchildren ih =>
    refine .mk rfl ?_ (fun _ => Nat.le_refl _) fun i c d hc hd => ?_
    · unfold PinsFields
      split
      · intro m w hm hw
        cases (Node.get?_data_of_metadata? hm).symm.trans hw
        exact ⟨m, rfl, .self m⟩
      · exact .self fields
    · cases hc.symm.trans hd
      exact ih c (List.mem_of_getElem? hc)

/-! ### Shapes -/

/-- The schema of a shape has nothing against a value. -/
def Shape.Accepts (definition : Nat → Check) (s : Shape) (x : Value) : Prop :=
  (s.schema.check definition x).violations = []

section Shapes

variable {definition : Nat → Check} {title : String} {x : Value}

theorem typeOf_accepts {v : Value} (h : v.isExpected x = true) :
    (Shape.typeOf v).accepts true x = true := by
  cases v <;> cases x <;> first | rfl | cases h

theorem accepts_const {v : Value} :
    (Shape.const v).Accepts definition x ↔ v.isExpected x = true := by
  constructor
  · intro h
    exact Outcome.violations_require_eq_nil.1
      (violations_of_all definition h (.const v) List.mem_cons_self)
  · intro h
    refine (clean_all definition (List.forall_mem_cons.2
      ⟨?_, List.forall_mem_singleton.2 ?_⟩)).violations
    · exact Outcome.clean_require h _ _
    · exact Check.clean_type List.mem_cons_self (typeOf_accepts h)

/-- The type keyword with one type asks for a value of that type. -/
theorem accepts_of_type {t : TypeName}
    (h : ((Schema.type [t] true).check definition x).violations = []) :
    t.accepts true x = true := by
  have hany := Outcome.violations_require_eq_nil.1 h
  rw [List.any_cons, List.any_nil, Bool.or_false] at hany
  exact hany

theorem accepts_members {ms : List (String × Shape)} :
    (Shape.members title ms).Accepts definition x ↔ ∃ members : Object, x = .object members ∧
      ∀ m ∈ ms, ∀ y, members.get? m.1 = some y → m.2.Accepts definition y := by
  have hproperties (members : Object) :
      ((Schema.properties (Shape.memberSchemas ms)).check definition
        (.object members)).violations = [] ↔
          ∀ m ∈ ms, ∀ y, members.get? m.1 = some y → m.2.Accepts definition y := by
    rw [Schema.check, checkNamed_eq_map, Shape.memberSchemas_eq_map, List.map_map,
      Check.violations_properties_eq_nil, List.forall_mem_map]
    exact Iff.rfl
  constructor
  · intro h
    obtain ⟨htype, hrest⟩ := List.forall_mem_cons.1 (violations_of_all definition h)
    cases x with
    | object members =>
      exact ⟨members, rfl, (hproperties members).1 (hrest _ List.mem_cons_self)⟩
    | _ => cases accepts_of_type htype
  · rintro ⟨members, rfl, h⟩
    refine (clean_all definition (List.forall_mem_cons.2
      ⟨?_, List.forall_mem_singleton.2 ?_⟩)).violations
    · exact Check.clean_type List.mem_cons_self rfl
    · exact ⟨(hproperties members).2 h, rfl⟩

theorem accepts_items {first : Shape} {rest : List Shape} :
    (Shape.items first rest).Accepts definition x ↔ ∃ xs : List Value, x = .array xs ∧
      xs.length ≤ rest.length + 1 ∧
        ∀ e ∈ List.zip (first :: rest) xs, e.1.Accepts definition e.2 := by
  have hitems (xs : List Value) :
      ((Schema.itemList "items" (first.schema :: Shape.itemSchemas rest)).check definition
        (.array xs)).violations = [] ↔
          ∀ e ∈ List.zip (first :: rest) xs, e.1.Accepts definition e.2 := by
    rw [Schema.check, checkAll_eq_map, Shape.itemSchemas_eq_map, ← List.map_cons, List.map_map,
      Check.violations_itemList_eq_nil, List.zip_map_left, List.forall_mem_map]
    exact Iff.rfl
  constructor
  · intro h
    obtain ⟨htype, hrest⟩ := List.forall_mem_cons.1 (violations_of_all definition h)
    obtain ⟨hsize, hlist⟩ := List.forall_mem_cons.1 hrest
    cases x with
    | array xs =>
      exact ⟨xs, rfl, of_decide_eq_true (Outcome.violations_require_eq_nil.1 hsize),
        (hitems xs).1 (hlist _ List.mem_cons_self)⟩
    | _ => cases accepts_of_type htype
  · rintro ⟨xs, rfl, hlength, h⟩
    refine (clean_all definition (List.forall_mem_cons.2 ⟨?_, List.forall_mem_cons.2
      ⟨?_, List.forall_mem_singleton.2 ?_⟩⟩)).violations
    · exact Check.clean_type List.mem_cons_self rfl
    · exact Outcome.clean_require (decide_eq_true hlength) _ _
    · exact ⟨(hitems xs).2 h, rfl⟩

/-- Constants by key ask for agreement. -/
theorem accepts_constants {expected given : Object} (h : expected.keys.Nodup) :
    (∀ m ∈ expected.map fun (k, v) => (k, Shape.const v), ∀ y, given.get? m.1 = some y →
      m.2.Accepts definition y) ↔ Agrees expected given := by
  rw [List.forall_mem_map]
  constructor
  · intro hall key v w hv hw
    exact accepts_const.1 (hall (key, v) (Object.mem_of_get? hv) w hw)
  · rintro hagrees ⟨key, v⟩ hmem w hw
    exact accepts_const.2 (hagrees key v w (Object.get?_of_mem h hmem) hw)

end Shapes

/-! ### Trees -/

section Trees

variable {definition : Nat → Check} {a b : Node}

theorem get?_layout_field (hb : b.Proper) {key : String} (hkind : key ≠ kindKey)
    (hchildren : key ≠ childrenKey) : b.layout.get? key = b.fields.get? key := by
  rw [Node.get?_layout hb, Node.field?, if_neg hkind, if_neg hchildren, Option.map_map]
  exact Option.map_id'

theorem get?_layout_children (hb : b.Proper) (hne : b.children ≠ []) :
    b.layout.get? childrenKey = some (.array (b.children.map Node.toInstance)) := by
  rw [Node.get?_layout hb, Node.field?, if_neg (by decide), if_pos rfl,
    if_neg (fun h => hne (List.isEmpty_iff.1 h))]
  rfl

theorem accepts_fieldShapes (ha : a.Proper) (hb : b.Proper) :
    (∀ m ∈ fieldShapes a, ∀ y, b.layout.get? m.1 = some y → m.2.Accepts definition y) ↔
      PinsFields a b := by
  obtain ⟨hkind, hkeys⟩ := List.nodup_cons.1 ha.fields.keys
  obtain ⟨hchildren, hnodup⟩ := List.nodup_cons.1 hkeys
  unfold fieldShapes PinsFields
  split
  · rw [← get?_layout_field hb (by decide) (by decide)]
    cases hdata : a.metadata? with
    | none => exact iff_of_true (fun m hm => absurd hm List.not_mem_nil) fun m w hm => nomatch hm
    | some m =>
      have hm : m.keys.Nodup := by
        have hget := Node.get?_data_of_metadata? hdata
        cases ha.fields.values _ _ (Object.mem_of_get? hget) with
        | object hkeys _ => exact hkeys
      dsimp only
      rw [List.forall_mem_singleton]
      constructor
      · intro h m' w hm' hw
        cases hm'
        obtain ⟨members, rfl, hmembers⟩ := accepts_members.1 (h w hw)
        exact ⟨members, rfl, (accepts_constants hm).1 hmembers⟩
      · intro h w hw
        obtain ⟨members, rfl, hagrees⟩ := h m w rfl hw
        exact accepts_members.2 ⟨members, rfl, (accepts_constants hm).2 hagrees⟩
  · rw [← @accepts_constants definition _ _ hnodup, List.forall_mem_map, List.forall_mem_map]
    refine forall_congr' fun ⟨k, v⟩ => forall_congr' fun hmem => ?_
    have hkey : k ∈ a.fields.keys := List.mem_map_of_mem (f := (·.1)) hmem
    rw [get?_layout_field hb]
    · rintro rfl
      exact hkind (List.mem_cons_of_mem _ hkey)
    · rintro rfl
      exact hchildren hkey

/-- The items of the children, one by one. -/
theorem forall_mem_zip_iff {α β : Type} {as : List α} {bs : List β} {P : α → β → Prop} :
    (∀ e ∈ List.zip as bs, P e.1 e.2) ↔
      ∀ (i : Nat) (c : α) (d : β), as[i]? = some c → bs[i]? = some d → P c d := by
  constructor
  · intro h i c d hc hd
    exact h (c, d) (List.mem_of_getElem? (List.getElem?_zip_eq_some.2 ⟨hc, hd⟩))
  · rintro h ⟨c, d⟩ he
    obtain ⟨i, hi⟩ := List.mem_iff_getElem?.1 he
    obtain ⟨hc, hd⟩ := List.getElem?_zip_eq_some.1 hi
    exact h i c d hc hd

theorem accepts_childShapes (hb : b.Proper) (children : List Node) :
    (∀ m ∈ childShapes children, ∀ y, b.layout.get? m.1 = some y → m.2.Accepts definition y) ↔
      (children ≠ [] → b.children.length ≤ children.length) ∧
        ∀ (i : Nat) (c d : Node), children[i]? = some c → b.children[i]? = some d →
          (shape c).Accepts definition d.toInstance := by
  cases children with
  | nil =>
    refine iff_of_true (fun m hm => absurd hm List.not_mem_nil)
      ⟨fun h => absurd rfl h, fun i c d hc => ?_⟩
    cases hc
  | cons first rest =>
    rw [childShapes, List.forall_mem_singleton]
    dsimp only
    by_cases hnone : b.children = []
    · have hget : b.layout.get? childrenKey = none := by
        rw [Node.get?_layout hb, Node.field?, if_neg (by decide), if_pos rfl, hnone]
        rfl
      rw [hget, hnone]
      refine iff_of_true (fun y hy => ?_) ⟨fun _ => Nat.zero_le _, fun i c d _ hd => ?_⟩
      · cases hy
      · cases hd
    · rw [get?_layout_children hb hnone, ← forall_mem_zip_iff]
      have hlength : (shapes rest).length + 1 = (first :: rest).length := by
        rw [shapes_eq_map, List.length_map, List.length_cons]
      have hzip : (∀ e ∈ List.zip (shape first :: shapes rest) (b.children.map Node.toInstance),
          e.1.Accepts definition e.2) ↔ ∀ e ∈ List.zip (first :: rest) b.children,
            (shape e.1).Accepts definition e.2.toInstance := by
        rw [shapes_eq_map, ← List.map_cons, List.zip_map, List.forall_mem_map]
        exact Iff.rfl
      constructor
      · intro h
        obtain ⟨xs, hxs, hle, hitems⟩ := accepts_items.1 (h _ rfl)
        cases hxs
        rw [List.length_map, hlength] at hle
        exact ⟨fun _ => hle, hzip.1 hitems⟩
      · rintro ⟨hle, hitems⟩ y hy
        cases hy
        refine accepts_items.2 ⟨_, rfl, ?_, hzip.2 hitems⟩
        rw [List.length_map, hlength]
        exact hle (List.cons_ne_nil _ _)

/-- The shape of a tree accepts the trees that it pins. -/
theorem accepts_shape (ha : a.Proper) (hb : b.Proper) :
    (shape a).Accepts definition b.toInstance ↔ Pins a b := by
  -- the induction is on the tree that pins, as the skeleton has a schema for its children alone
  induction ha generalizing b with
  | @mk kind fields children span hfields hchildren ih =>
    have ha : Node.Proper ⟨kind, fields, children, span⟩ := .mk hfields hchildren
    have hkind : (∀ y, b.layout.get? kindKey = some y →
        (Shape.const (.string kind)).Accepts definition y) ↔ b.kind = kind := by
      rw [Node.get?_layout hb]
      refine ⟨fun h => (eq_of_beq (accepts_const.1 (h _ rfl))).symm, fun h y hy => ?_⟩
      cases hy
      exact accepts_const.2 (beq_iff_eq.2 h.symm)
    rw [Node.toInstance_eq_layout hb, shape, accepts_members]
    constructor
    · rintro ⟨members, hlayout, h⟩
      cases hlayout
      obtain ⟨hown, hchild⟩ := List.forall_mem_append.1 h
      obtain ⟨hfirst, hfield⟩ := List.forall_mem_cons.1 hown
      obtain ⟨hlength, hitems⟩ := (accepts_childShapes hb children).1 hchild
      refine .mk (hkind.1 hfirst) ((accepts_fieldShapes ha hb).1 hfield) hlength
        fun i c d hc hd => ?_
      exact (ih c (List.mem_of_getElem? hc) (hb.child (List.mem_of_getElem? hd))).1
        (hitems i c d hc hd)
    · rintro ⟨heq, hfield, hlength, hpins⟩
      refine ⟨b.layout, rfl, List.forall_mem_append.2 ⟨List.forall_mem_cons.2
        ⟨hkind.2 heq, (accepts_fieldShapes ha hb).2 hfield⟩,
        (accepts_childShapes hb children).2 ⟨hlength, fun i c d hc hd => ?_⟩⟩⟩
      exact (ih c (List.mem_of_getElem? hc) (hb.child (List.mem_of_getElem? hd))).2
        (hpins i c d hc hd)

end Trees

end DocSchema.Skeleton

namespace DocSchema

open DocSchema.Json DocSchema.Skeleton

variable {a b : Node}

theorem validate_synthesize_iff [Retrieval] (ha : a.Proper) :
    validate b (synthesize a) = .ok [] ↔
      (shape a).Accepts (Validator.definition #[] (Validator.limit ⟨(shape a).schema, #[]⟩
        b.toInstance)) b.toInstance := by
  rw [validate, validateInstance, compile_synthesize ha]
  exact (iff_of_eq (Except.ok.injEq _ _)).trans List.map_eq_nil_iff

/-- The skeleton of a tree accepts what the tree pins, and nothing else. -/
theorem accepted_iff_pinned [Retrieval] (ha : a.Proper) (hb : b.Proper) :
    validate b (synthesize a) = .ok [] ↔ Pins a b :=
  (validate_synthesize_iff ha).trans (accepts_shape ha hb)

/-- A heading pins its depth, as a quantity; that it has a text is not asked. -/
theorem heading_pins_depth :
    let span : Span := ⟨⟨1, 1⟩, ⟨1, 6⟩, 0, 5⟩
    let text : Node := ⟨"text", [("value", .string "Log")], [], span⟩
    let heading (depth : Number) (children : List Node) : Node :=
      ⟨"heading", [("depth", .number depth)], children, span⟩
    let one : Number := .float 0x3FF0000000000000
    validate (heading one []) (synthesize (heading (.int 1) [text])) = .ok [] ∧
      validate (heading (.int 2) [text]) (synthesize (heading (.int 1) [text])) ≠ .ok [] := by
  intro span text heading one
  have htext : text.Proper :=
    .mk (properFields_one (by decide) (.string _)) fun n hn => absurd hn List.not_mem_nil
  have hheading (depth : Number) {children : List Node} (h : ∀ n ∈ children, n.Proper) :
      (heading depth children).Proper :=
    .mk (properFields_one (by decide) (.number depth)) h
  have hfirst := hheading (.int 1) (List.forall_mem_singleton.2 htext)
  constructor
  · have hfields : PinsFields (heading (.int 1) [text]) (heading one []) := by
      intro key v w hv hw
      obtain ⟨rfl, rfl⟩ := Object.eq_of_get?_singleton hv
      obtain ⟨-, rfl⟩ := Object.eq_of_get?_singleton hw
      decide
    exact (accepted_iff_pinned hfirst (hheading one fun n hn => absurd hn List.not_mem_nil)).2
      (.mk rfl hfields (fun _ => Nat.zero_le _) fun i c d _ hd => nomatch hd)
  · intro h
    obtain ⟨-, hfields, -, -⟩ := (accepted_iff_pinned hfirst
      (hheading (.int 2) (List.forall_mem_singleton.2 htext))).1 h
    have hdepth : Value.isExpected (.number (.int 1)) (.number (.int 2)) = true :=
      hfields "depth" _ _ rfl rfl
    exact absurd hdepth (by decide)

/-- Of a tree without children the skeleton accepts any children. -/
theorem longer_document_accepted :
    let span : Span := ⟨⟨1, 1⟩, ⟨1, 1⟩, 0, 0⟩
    let empty : Node := ⟨"root", [], [], span⟩
    let longer : Node := ⟨"root", [], [⟨"paragraph", [], [], span⟩], span⟩
    empty.Proper ∧ longer.Proper ∧ validate longer (synthesize empty) = .ok [] ∧
      empty.children.length < longer.children.length := by
  intro span empty longer
  have hempty : empty.Proper := .mk properFields_nil fun n hn => absurd hn List.not_mem_nil
  have hlonger : longer.Proper := .mk properFields_nil
    (List.forall_mem_singleton.2 (.mk properFields_nil fun n hn => absurd hn List.not_mem_nil))
  refine ⟨hempty, hlonger, ?_, Nat.zero_lt_one⟩
  have hpins : Pins empty longer :=
    .mk rfl (fun key v w hv => nomatch hv) (fun h => absurd rfl h) fun i c d hc => nomatch hc
  exact (validate_synthesize_iff hempty).2 ((accepts_shape hempty hlonger).2 hpins)

end DocSchema
