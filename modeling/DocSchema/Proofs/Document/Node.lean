/-
  DocSchema/Proofs/Document/Node.lean
  ===================================
  **What the instance form of a tree has as its members.**

  In a proper tree no field takes the name of the kind or of the children, so that the instance
  form has each of them as a member: its layout is what `Node.field?` says (`get?_layout`).
-/
import DocSchema.Document.Node
import DocSchema.Proofs.Json.Value

namespace DocSchema

open DocSchema.Json

/-! ### Proper trees -/

/-- Fields with names of their own and proper values. -/
structure ProperFields (fields : Object) : Prop where
  keys : (kindKey :: childrenKey :: fields.keys).Nodup
  values : ∀ k x, (k, x) ∈ fields → x.Proper

theorem properFields_nil : ProperFields [] where
  keys := by decide
  values _ _ h := by cases h

theorem ProperFields.insert {fields : Object} {key : String} {value : Value}
    (h : ProperFields fields) (hkind : key ≠ kindKey) (hchildren : key ≠ childrenKey)
    (hvalue : value.Proper) : ProperFields (fields.insert key value) where
  keys := by
    have hmem : ∀ k ∈ (fields.insert key value).keys, k ∈ fields.keys ∨ k = key := by
      intro k hk
      obtain ⟨m, hm, rfl⟩ := List.mem_map.1 hk
      rcases Object.mem_insert hm with hold | ⟨heq, -⟩
      · exact .inl (List.mem_map_of_mem (f := (·.1)) hold)
      · exact .inr heq
    have hnew : ∀ name, name ≠ key → name ∉ fields.keys →
        name ∉ (fields.insert key value).keys := by
      intro name hne hnot hin
      rcases hmem name hin with hold | heq
      · exact hnot hold
      · exact hne heq
    obtain ⟨hk, hrest⟩ := List.nodup_cons.1 h.keys
    obtain ⟨hc, hfields⟩ := List.nodup_cons.1 hrest
    refine List.nodup_cons.2 ⟨fun hin => ?_, List.nodup_cons.2 ⟨?_, ?_⟩⟩
    · rcases List.mem_cons.1 hin with heq | hin
      · exact absurd heq (by decide)
      · exact hnew kindKey hkind.symm (fun hold => hk (List.mem_cons_of_mem _ hold)) hin
    · exact hnew childrenKey hchildren.symm hc
    · exact Object.nodup_insert hfields key value
  values k x hx := by
    rcases Object.mem_insert hx with hold | ⟨-, rfl⟩
    · exact h.values k x hold
    · exact hvalue

/-- The kind and the fields of a node, as members of its instance form. -/
def ownMembers (kind : String) (fields : Object) : Object :=
  (kindKey, .string kind) :: fields

namespace Node

/-- A tree whose nodes have proper fields. -/
inductive Proper : Node → Prop
  | mk {kind : String} {fields : Object} {children : List Node} {span : Span}
      (hfields : ProperFields fields) (hchildren : ∀ n ∈ children, Proper n) :
      Proper ⟨kind, fields, children, span⟩

theorem Proper.fields {n : Node} (h : n.Proper) : ProperFields n.fields := by
  cases h with
  | mk hfields _ => exact hfields

theorem Proper.child {n c : Node} (h : n.Proper) (hc : c ∈ n.children) : c.Proper := by
  cases h with
  | mk _ hchildren => exact hchildren c hc

theorem get?_data_of_metadata? {n : Node} {m : Object} (h : n.metadata? = some m) :
    n.fields.get? "data" = some (.object m) := by
  unfold metadata? at h
  split at h
  · obtain ⟨v, hget, hobject⟩ := Option.bind_eq_some_iff.1 h
    cases v with
    | object o =>
      cases hobject
      exact hget
    | _ => cases hobject
  · cases h

/-! ### Layout -/

theorem childInstances_eq_map (ns : List Node) : childInstances ns = ns.map toInstance := by
  induction ns with
  | nil => rfl
  | cons n ns ih => rw [childInstances, ih, List.map_cons]

/-- The members of the instance form: the kind, the fields, and the children if there are any. -/
def layout (n : Node) : Object :=
  ownMembers n.kind n.fields ++
    if n.children.isEmpty then [] else [(childrenKey, .array (n.children.map toInstance))]

/-- The fields have names of their own: none is that of the kind or of the children. -/
def OwnNames (n : Node) : Prop :=
  (kindKey :: childrenKey :: n.fields.keys).Nodup

theorem OwnNames.ownMembers {n : Node} (h : n.OwnNames) :
    childrenKey ∉ (ownMembers n.kind n.fields).keys ∧ (ownMembers n.kind n.fields).keys.Nodup := by
  have hswap : (childrenKey :: kindKey :: n.fields.keys).Nodup :=
    (List.Perm.swap _ _ _).nodup_iff.1 h
  exact List.nodup_cons.1 hswap

theorem toInstance_of_ownNames {n : Node} (h : n.OwnNames) : n.toInstance = .object n.layout := by
  obtain ⟨kind, fields, children, span⟩ := n
  obtain ⟨hnew, hkeys⟩ := h.ownMembers
  have hown : Object.insertAll [(kindKey, .string kind)] fields = DocSchema.ownMembers kind fields :=
    Object.insertAll_of_nodup hkeys
  simp only [toInstance, layout, hown, childInstances_eq_map]
  cases hempty : children.isEmpty with
  | true => simp
  | false =>
    rw [if_neg Bool.false_ne_true, if_neg Bool.false_ne_true, Object.insert_of_not_mem hnew]

theorem Proper.ownNames {n : Node} (h : n.Proper) : n.OwnNames :=
  h.fields.keys

theorem toInstance_eq_layout {n : Node} (h : n.Proper) : n.toInstance = .object n.layout :=
  toInstance_of_ownNames h.ownNames

/-- The instance form of a property. -/
def fieldValue : Field → Value
  | .kind kind => .string kind
  | .children nodes => .array (nodes.map toInstance)
  | .value v => v

theorem eq_of_field?_children {n : Node} {key : String} {nodes : List Node}
    (h : n.field? key = some (.children nodes)) : key = childrenKey ∧ nodes = n.children := by
  unfold field? at h
  split at h
  · cases h
  · split at h
    · rename_i hkey
      split at h
      · cases h
      · cases h
        exact ⟨hkey, rfl⟩
    · obtain ⟨v, -, hv⟩ := Option.map_eq_some_iff.1 h
      cases hv

theorem ne_childrenKey_of_field? {n : Node} {key : String} {field : Field}
    (h : n.field? key = some field) (hfield : ∀ nodes, field ≠ .children nodes) :
    key ≠ childrenKey := by
  rintro rfl
  have hne : childrenKey ≠ kindKey := by decide
  unfold field? at h
  rw [if_neg hne, if_pos rfl] at h
  split at h
  · cases h
  · exact hfield _ (Option.some.inj h).symm

/-- The members of the instance form are the properties of the node. -/
theorem get?_layout {n : Node} (h : n.Proper) (key : String) :
    n.layout.get? key = (n.field? key).map fieldValue := by
  have hsplit := Object.get?_append (ownMembers n.kind n.fields)
    (if n.children.isEmpty then [] else [(childrenKey, .array (n.children.map toInstance))]) key
  unfold layout field?
  rw [hsplit]
  by_cases hkind : key = kindKey
  · subst hkind
    simp [ownMembers, Object.get?, fieldValue]
  · have hown : Object.get? (ownMembers n.kind n.fields) key = Object.get? n.fields key := by
      simp [ownMembers, Object.get?, Ne.symm hkind]
    by_cases hchildren : key = childrenKey
    · subst hchildren
      have hnone := Object.get?_eq_none_of_not_mem h.ownNames.ownMembers.1
      rw [hnone]
      cases hempty : n.children.isEmpty with
      | true => simp [Object.get?, hkind]
      | false => simp [Object.get?, hkind, fieldValue]
    · have hlast : Object.get? (if n.children.isEmpty then [] else
          [(childrenKey, .array (n.children.map toInstance))]) key = none := by
        split
        · rfl
        · simp [Object.get?, Ne.symm hchildren]
      rw [hlast, Option.or_none, hown, if_neg hkind, if_neg hchildren]
      cases Object.get? n.fields key with
      | none => rfl
      | some v => rfl

/-- The instance form of a proper tree is a proper value. -/
theorem Proper.toInstance {n : Node} (h : n.Proper) : n.toInstance.Proper := by
  induction h with
  | @mk kind fields children span hfields hchildren ih =>
    have hproper : Proper ⟨kind, fields, children, span⟩ := .mk hfields hchildren
    obtain ⟨hnew, hkeys⟩ := hproper.ownNames.ownMembers
    rw [toInstance_eq_layout hproper]
    have hown : Value.Proper (.object (ownMembers kind fields)) := by
      refine .object hkeys fun k x hx => ?_
      rcases List.mem_cons.1 hx with heq | hx
      · cases heq
        exact .string kind
      · exact hfields.values k x hx
    unfold layout
    dsimp only
    split
    · rw [List.append_nil]
      exact hown
    · rw [← Object.insert_of_not_mem hnew]
      refine hown.insert (.array fun x hx => ?_)
      obtain ⟨c, hmem, rfl⟩ := List.mem_map.1 hx
      exact ih c hmem

end Node

/-! ### All nodes of a tree -/

namespace Node

/-- The node that indexes of children lead to. -/
def at? : Node → List Nat → Option Node
  | n, [] => some n
  | n, i :: is => n.children[i]?.bind fun c => c.at? is

/-- A tree whose nodes all have a property. -/
inductive Everywhere (P : Node → Prop) : Node → Prop
  | mk {n : Node} (h : P n) (hchildren : ∀ c ∈ n.children, Everywhere P c) : Everywhere P n

variable {P : Node → Prop} {m n : Node} {ns : List Node}

theorem Everywhere.self (h : n.Everywhere P) : P n := by
  cases h with
  | mk hself _ => exact hself

theorem Everywhere.children (h : n.Everywhere P) : ∀ c ∈ n.children, c.Everywhere P := by
  cases h with
  | mk _ hchildren => exact hchildren

theorem Everywhere.imp {Q : Node → Prop} (h : n.Everywhere P) (himp : ∀ n, P n → Q n) :
    n.Everywhere Q := by
  induction h with
  | mk hself _ ih => exact .mk (himp _ hself) ih

theorem Everywhere.and {Q : Node → Prop} (h : n.Everywhere P) (h' : n.Everywhere Q) :
    n.Everywhere fun n => P n ∧ Q n := by
  induction h with
  | mk hself _ ih => exact .mk ⟨hself, h'.self⟩ fun c hc => ih c hc (h'.children c hc)

theorem Proper.everywhere (h : n.Proper) : n.Everywhere fun n => ProperFields n.fields := by
  induction h with
  | mk hfields _ ih => exact .mk hfields ih

theorem mem_preorderAll : m ∈ preorderAll ns ↔ ∃ n ∈ ns, m ∈ n.preorder := by
  induction ns with
  | nil => simp [preorderAll]
  | cons n ns ih => simp [preorderAll, ih]

theorem self_mem_preorder (n : Node) : n ∈ n.preorder := by
  obtain ⟨kind, fields, children, span⟩ := n
  exact List.mem_cons_self

theorem mem_preorder_of_child {c : Node} (hc : c ∈ n.children) (hm : m ∈ c.preorder) :
    m ∈ n.preorder := by
  obtain ⟨kind, fields, children, span⟩ := n
  exact List.mem_cons_of_mem _ (mem_preorderAll.2 ⟨c, hc, hm⟩)

theorem filterMap_preorderAll {α : Type} (f : Node → Option α) (ns : List Node) :
    (preorderAll ns).filterMap f = ns.flatMap fun n => n.preorder.filterMap f := by
  induction ns with
  | nil => rfl
  | cons n ns ih => rw [preorderAll, List.filterMap_append, ih, List.flatMap_cons]

theorem Everywhere.of_mem_preorder (h : n.Everywhere P) (hm : m ∈ n.preorder) : P m := by
  induction h with
  | @mk n hself _ ih =>
    obtain ⟨kind, fields, children, span⟩ := n
    rcases List.mem_cons.1 hm with rfl | hm
    · exact hself
    · obtain ⟨c, hc, hm⟩ := mem_preorderAll.1 hm
      exact ih c hc hm

mutual

theorem everywhere_of_preorder : ∀ n : Node, (∀ m ∈ n.preorder, P m) → n.Everywhere P
  | ⟨_, _, children, _⟩, h => by
    obtain ⟨hself, hchildren⟩ := List.forall_mem_cons.1 h
    exact .mk hself (everywhere_of_preorderAll children hchildren)

theorem everywhere_of_preorderAll : ∀ ns : List Node, (∀ m ∈ preorderAll ns, P m) →
    ∀ n ∈ ns, n.Everywhere P
  | [], _ => fun _ hn => absurd hn List.not_mem_nil
  | n :: ns, h => by
    obtain ⟨hfirst, hrest⟩ := List.forall_mem_append.1 h
    exact List.forall_mem_cons.2
      ⟨everywhere_of_preorder n hfirst, everywhere_of_preorderAll ns hrest⟩

end

end Node

/-! ### Levels -/

namespace Node

mutual

/-- How many nodes lie on the longest way down from a node, with the node itself. -/
def levels : Node → Nat
  | ⟨_, _, children, _⟩ => levelsAll children + 1

def levelsAll : List Node → Nat
  | [] => 0
  | n :: ns => max (levels n) (levelsAll ns)

end

theorem levelsAll_le_iff {ns : List Node} {k : Nat} :
    levelsAll ns ≤ k ↔ ∀ n ∈ ns, n.levels ≤ k := by
  induction ns with
  | nil => simp [levelsAll]
  | cons n ns ih => rw [levelsAll, Nat.max_le, ih, List.forall_mem_cons]

end Node

end DocSchema
