/-
  DocSchema/Proofs/Document/Instance.lean
  =======================================
  **The instance form loses nothing but the spans.**

  Trees that differ in their spans only are alike (`Node.Alike`).  As long as no field takes the name
  of the kind or of the children, a tree has the instance form of another if and only if the two are
  alike (`toInstance_eq_iff`): where the kind, the fields and the children begin and end in the
  members can be told from their names.  So a schema finds the same faults in alike trees.
-/
import DocSchema.Proofs.Document.Proper
import DocSchema.Validation

namespace DocSchema

open DocSchema.Json

namespace Node

/-- Everywhere the same kind, the same fields and the same children, each in the same order. -/
inductive Alike : Node → Node → Prop
  | mk {kind : String} {fields : Object} {children children' : List Node} {span span' : Span}
      (h : List.Forall₂ Alike children children') :
      Alike ⟨kind, fields, children, span⟩ ⟨kind, fields, children', span'⟩

variable {a b : Node}

mutual

theorem toInstance_of_alike : ∀ {a b : Node}, Alike a b → a.toInstance = b.toInstance
  | _, _, @Alike.mk _ _ xs ys _ _ h => by
    have hchildren : childInstances xs = childInstances ys := childInstances_of_alike h
    have hempty : xs.isEmpty = ys.isEmpty := by cases h <;> rfl
    simp only [toInstance, hchildren, hempty]

theorem childInstances_of_alike :
    ∀ {ns ms : List Node}, List.Forall₂ Alike ns ms → childInstances ns = childInstances ms
  | _, _, .nil => rfl
  | _, _, .cons h hs => by
    rw [childInstances, childInstances, toInstance_of_alike h, childInstances_of_alike hs]

end

/-- The kind, the fields and the instance forms of the children can be read off the members. -/
theorem parts_of_layout_eq (ha : a.OwnNames) (hb : b.OwnNames) (h : a.layout = b.layout) :
    a.kind = b.kind ∧ a.fields = b.fields ∧
      a.children.map toInstance = b.children.map toInstance := by
  have hown : ∀ {n m : Node} {v : Value}, n.OwnNames →
      ownMembers n.kind n.fields ≠ ownMembers m.kind m.fields ++ [(childrenKey, v)] := by
    intro n m v hn heq
    refine hn.ownMembers.1 ?_
    rw [heq, Object.keys, List.map_append]
    exact List.mem_append_right _ List.mem_cons_self
  have hmembers : ownMembers a.kind a.fields = ownMembers b.kind b.fields ∧
      a.children.map toInstance = b.children.map toInstance := by
    unfold layout at h
    cases hca : a.children with
    | nil =>
      cases hcb : b.children with
      | nil =>
        rw [hca, hcb] at h
        exact ⟨by simpa using h, rfl⟩
      | cons c cs =>
        rw [hca, hcb] at h
        exact absurd (by simpa using h) (hown ha)
    | cons c cs =>
      cases hcb : b.children with
      | nil =>
        rw [hca, hcb] at h
        exact absurd (by simpa using h.symm) (hown hb)
      | cons d ds =>
        rw [hca, hcb] at h
        obtain ⟨hfront, hback⟩ := List.append_inj' h rfl
        exact ⟨hfront, by simpa using hback⟩
  obtain ⟨hfront, hchildren⟩ := hmembers
  obtain ⟨hkind, hfields⟩ := List.cons.inj hfront
  exact ⟨Value.string.inj (Prod.mk.inj hkind).2, hfields, hchildren⟩

theorem forall₂_of_map_eq {R : Node → Node → Prop} {ns ms : List Node}
    (h : ns.map toInstance = ms.map toInstance)
    (hR : ∀ n ∈ ns, ∀ m ∈ ms, n.toInstance = m.toInstance → R n m) : List.Forall₂ R ns ms := by
  induction ns generalizing ms with
  | nil =>
    rw [List.map_eq_nil_iff.1 h.symm]
    exact .nil
  | cons n ns ih =>
    obtain ⟨m, ms, rfl, hm, hms⟩ := List.map_eq_cons_iff.1 h.symm
    exact .cons (hR n List.mem_cons_self m List.mem_cons_self hm.symm)
      (ih hms.symm fun n hn m hm => hR n (List.mem_cons_of_mem _ hn) m (List.mem_cons_of_mem _ hm))

theorem alike_of_toInstance_eq (ha : a.Everywhere OwnNames) (hb : b.Everywhere OwnNames)
    (h : a.toInstance = b.toInstance) : a.Alike b := by
  induction ha generalizing b with
  | @mk a hself _ ih =>
    rw [toInstance_of_ownNames hself, toInstance_of_ownNames hb.self] at h
    obtain ⟨hkind, hfields, hchildren⟩ := parts_of_layout_eq hself hb.self (Value.object.inj h)
    obtain ⟨kind, fields, children, span⟩ := a
    obtain ⟨kind', fields', children', span'⟩ := b
    cases hkind
    cases hfields
    exact .mk (forall₂_of_map_eq hchildren fun n hn m hm heq => ih n hn (hb.children m hm) heq)

/-- **The instance form loses nothing but the spans.**  Two trees have one instance form if and only
if they are alike, and every schema has the same faults in alike trees. -/
theorem toInstance_eq_iff [Retrieval] (ha : a.Everywhere OwnNames) (hb : b.Everywhere OwnNames) :
    (a.toInstance = b.toInstance ↔ a.Alike b) ∧
      (a.Alike b → ∀ schema, validate a schema = validate b schema) := by
  refine ⟨⟨alike_of_toInstance_eq ha hb, toInstance_of_alike⟩, fun halike schema => ?_⟩
  unfold validate
  rw [toInstance_of_alike halike]

/-- A paragraph is the same further down. -/
theorem toInstance_of_lower_paragraph :
    (Document.parse "x").root.Alike (Document.parse "\n\n x\n").root ∧
      ∀ schema, validate (Document.parse "x").root schema =
        validate (Document.parse "\n\n x\n").root schema := by
  have hown : ∀ text, (Document.parse text).root.Everywhere OwnNames := fun text =>
    (Document.proper_parse text).everywhere.imp fun _ h => h.keys
  obtain ⟨hiff, hsame⟩ := toInstance_eq_iff (hown "x") (hown "\n\n x\n")
  have halike := hiff.1 (by decide +kernel)
  exact ⟨halike, hsame halike⟩

end Node

end DocSchema
