/-
  DocSchema/Proofs/Skeleton/Acceptance.lean
  =========================================
  **A skeleton accepts the document that it was made from.**

  A proper tree pins itself (`Pins.self`), so that the validator of its skeleton has nothing
  against it (`validate_synthesize`); the tree of a text is proper.
-/
import DocSchema.Proofs.Skeleton.Pinning

namespace DocSchema

open DocSchema.Json DocSchema.Skeleton

theorem validate_synthesize [Retrieval] {tree : Node} (h : tree.Proper) :
    validate tree (synthesize tree) = .ok [] :=
  (validate_synthesize_iff h).2 ((accepts_shape h h).2 (.self h))

/-- A skeleton is a schema, and accepts the document that it was made from: the tree of any text,
and any other tree that is proper. -/
theorem skeleton_accepts_own_document [Retrieval] :
    (∀ tree : Node, tree.Proper → validate tree (synthesize tree) = .ok []) ∧
      ∀ text : String, validate (Document.parse text).root (synthesize (Document.parse text).root) =
        .ok [] :=
  ⟨fun _ h => validate_synthesize h, fun text => validate_synthesize (Document.proper_parse text)⟩

/-- The key of a reference in a header is no reference. -/
theorem header_with_reference_accepted :
    let span : Span := ⟨⟨1, 1⟩, ⟨3, 4⟩, 0, 15⟩
    let header : Node :=
      ⟨"yaml", [("value", .string "$ref: 1"), ("data", .object [("$ref", .ofNat 1)])], [], span⟩
    let tree : Node := ⟨"root", [], [header], span⟩
    tree.Proper ∧ validate tree (synthesize tree) = .ok [] := by
  intro span header tree
  have hdata : Value.Proper (.object [("$ref", .ofNat 1)]) := by
    refine .object (by decide) fun k x hx => ?_
    cases List.mem_singleton.1 hx
    exact .number _
  have hheader : header.Proper :=
    .mk (properFields_two (by decide) (by decide) (by decide) (.string _) hdata)
      fun n hn => absurd hn List.not_mem_nil
  have htree : tree.Proper :=
    .mk properFields_nil fun n hn => List.mem_singleton.1 hn ▸ hheader
  exact ⟨htree, skeleton_accepts_own_document.1 tree htree⟩

end DocSchema
