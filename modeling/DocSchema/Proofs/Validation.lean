/-
  DocSchema/Proofs/Validation.lean
  ================================
  **Every error of a document is found in its source.**

  A report that names a value of the instance leads to a place in the tree: its trail goes on to
  the end of the path, and the last span is that of the deepest node with the value in it
  (`located_ofError`).  This is so whatever evaluator has made the report.  The reports of the
  evaluator at hand have the paths of its violations and tell of the values there
  (`reports_ofViolation`), so a run has no errors but such (`errors_located`).
-/
import DocSchema.Proofs.Document.Proper
import DocSchema.Proofs.Execution
import DocSchema.Proofs.Locate
import DocSchema.Proofs.Schema.ViolationPath
import DocSchema.Workspace

namespace DocSchema

open DocSchema.Json DocSchema.Schema

variable {tree : Node} {schema : Value} {document : Path}

/-! ### Reports -/

namespace InstanceError

/-- The report names a value of `v`: its pointer is that of a path to the value, and its path is
read off the pointer. -/
structure LeadsInto (e : InstanceError) (v : Value) : Prop where
  path : e.instancePath = Pointer.segments e.pointer
  exists_at : ∃ path y, e.pointer = Pointer.encode path ∧ v.At path y

variable {e : InstanceError} {v : Value}

/-- Reading the pointer gives back the path that was written. -/
theorem LeadsInto.at_instancePath (h : e.LeadsInto v) :
    e.pointer = Pointer.encode e.instancePath ∧ ∃ y, v.At e.instancePath y := by
  obtain ⟨path, y, hpointer, hat⟩ := h.exists_at
  have hpath : e.instancePath = path := by
    rw [h.path, hpointer, Pointer.segments_encode]
  rw [hpath]
  exact ⟨hpointer, y, hat⟩

theorem instancePath_ofViolation (w : Violation) :
    (ofViolation w).instancePath = w.instancePath :=
  Pointer.segments_encode w.instancePath

theorem keyword_ofViolation (w : Violation) :
    (ofViolation w).keyword = w.schemaPath.getLast?.getD "" := by
  change (Pointer.segments (Pointer.encode w.schemaPath)).getLast?.getD "" = _
  rw [Pointer.segments_encode]

/-- The report is about the value at its path, or about the first member of an object there that may
have none. -/
def Tells (e : InstanceError) (v : Value) : Prop :=
  v.At e.instancePath e.value ∨ e.keyword = "additionalProperties" ∧
    ∃ key others, v.At e.instancePath (.object ((key, e.value) :: others))

/-- The report of a violation names the value that the violation is found at, and tells of it. -/
theorem reports_ofViolation {va : Validator} {w : Violation} (hv : v.Proper)
    (hw : w ∈ va.violations v) : (ofViolation w).LeadsInto v ∧ (ofViolation w).Tells v := by
  obtain ⟨y, hat, htells⟩ := Validator.exists_at_of_violation hv hw
  refine ⟨⟨rfl, w.instancePath, y, rfl, hat⟩, ?_⟩
  unfold Tells
  rw [instancePath_ofViolation, keyword_ofViolation]
  obtain rfl | ⟨-, hkeyword, key, others, rfl⟩ := htells
  · exact .inl hat
  · exact .inr ⟨by rw [hkeyword]; rfl, key, others, hat⟩

end InstanceError

/-! ### Places -/

namespace LocatedError

/-- The error is located in the tree. -/
structure Located (tree : Node) (e : LocatedError) : Prop where
  segments : e.trail.map (·.segment) = e.error.instancePath
  resolved : e.isFullyResolved = true
  exists_at : ∃ y, tree.toInstance.At e.error.instancePath y
  target : ∀ span, e.jumpTarget? = some span → ∀ y, tree.toInstance.At e.error.instancePath y →
    ∃ m, tree.Deepest e.error.instancePath y m ∧ m.span = span
  noTarget : e.jumpTarget? = none ↔ e.error.pointer = ""

/-- A report that names a value of the instance is located in the tree. -/
theorem located_ofError {e : InstanceError} (htree : tree.Proper)
    (h : e.LeadsInto tree.toInstance) : (ofError document tree e).Located tree := by
  obtain ⟨hpointer, y, hat⟩ := h.at_instancePath
  obtain ⟨hsegments, -⟩ := Locate.deepest_of_at htree hat
  have htrail : (ofError document tree e).trail = Locate.follow (.node tree) e.instancePath := rfl
  have herror : (ofError document tree e).error = e := rfl
  refine ⟨hsegments, ?_, ⟨y, hat⟩, ?_, ?_⟩
  · have hlength := congrArg List.length hsegments
    rw [List.length_map] at hlength
    unfold isFullyResolved
    rw [htrail, herror, hlength]
    exact beq_self_eq_true _
  · intro span htarget y hat
    rw [herror] at hat ⊢
    obtain ⟨-, m, hdeepest, hspan⟩ := Locate.deepest_of_at htree hat
    refine ⟨m, hdeepest, ?_⟩
    unfold jumpTarget? at htarget
    rw [htrail] at htarget
    rw [← hspan, Locate.endSpan, htarget]
    rfl
  · -- both say that the path has no segments
    have hempty : Locate.follow (.node tree) e.instancePath = [] ↔ e.instancePath = [] := by
      rw [← List.map_eq_nil_iff, hsegments]
    unfold jumpTarget?
    rw [htrail, herror, hpointer, Pointer.encode_eq_empty_iff, Option.map_eq_none_iff,
      List.getLast?_eq_none_iff, hempty]

-- a slash in a name of the header
example :
    let header : Node :=
      ⟨metadataKind, [("data", .object [("a/b", .array [.null])])], [], ⟨⟨1, 1⟩, ⟨3, 4⟩, 0, 15⟩⟩
    let tree : Node := ⟨"root", [], [header], ⟨⟨1, 1⟩, ⟨4, 1⟩, 0, 16⟩⟩
    let trail := locate tree (Pointer.segments "/children/0/data/a~1b/0")
    trail.map (·.segment) = ["children", "0", "data", "a/b", "0"] ∧
      trail.getLast?.map (·.span) = some header.span := by
  decide +kernel

end LocatedError

theorem validateLocated_eq_ok_iff [Retrieval] {errors : List LocatedError} :
    validateLocated document tree schema = .ok errors ↔
      ∃ va, Validator.compile schema = .ok va ∧ (va.violations tree.toInstance).map
        (fun w => .ofError document tree (.ofViolation w)) = errors := by
  unfold validateLocated validate validateInstance
  cases Validator.compile schema with
  | error err => simp [Except.map]
  | ok va => simp [Except.map, Function.comp_def]

/-- The errors of a validation name the document that was validated. -/
theorem document_of_mem_validateLocated [Retrieval] {errors : List LocatedError} {e : LocatedError}
    (h : validateLocated document tree schema = .ok errors) (he : e ∈ errors) :
    e.document = document := by
  obtain ⟨va, -, rfl⟩ := validateLocated_eq_ok_iff.1 h
  obtain ⟨w, -, rfl⟩ := List.mem_map.1 he
  rfl

/-! ### Runs -/

namespace Workspace

/-- Reports on the tree are located in it, whatever evaluator they are from. -/
def LocatesReports (document : Path) (tree : Node) : Prop :=
  ∀ e : InstanceError, e.LeadsInto tree.toInstance →
    (LocatedError.ofError document tree e).Located tree

/-- If the run has come to an outcome, its errors are the violations of a schema in their order, each
with the path of its violation; they tell of the values there, and are located in the tree. -/
def ErrorsLocated [Retrieval] (tree : Node) (result : RunResult) : Prop :=
  ∀ o, result = .ok (some o) →
    (∃ schema va, Validator.compile schema = .ok va ∧
      o.errors.map (fun e => (e.error, e.error.instancePath)) =
        (va.violations tree.toInstance).map fun w => (.ofViolation w, w.instancePath)) ∧
    ∀ e ∈ o.errors, e.error.Tells tree.toInstance ∧ e.Located tree

theorem errorsLocated_of_validateLocated [Retrieval] {errors : List LocatedError}
    {schemaPath : Path} {runId : Nat} (htree : tree.Proper)
    (h : validateLocated document tree schema = .ok errors) :
    ErrorsLocated tree (.ok (some ⟨document, runId, schemaPath, errors⟩)) := by
  obtain ⟨va, hcompile, rfl⟩ := validateLocated_eq_ok_iff.1 h
  rintro o ⟨⟩
  refine ⟨⟨schema, va, hcompile, ?_⟩, fun e he => ?_⟩
  · rw [List.map_map]
    exact List.map_congr_left fun w _ =>
      Prod.ext rfl (InstanceError.instancePath_ofViolation w)
  · obtain ⟨w, hw, rfl⟩ := List.mem_map.1 he
    obtain ⟨hleads, htells⟩ := InstanceError.reports_ofViolation htree.toInstance hw
    exact ⟨htells, LocatedError.located_ofError htree hleads⟩

/-- The errors of a run are located, whatever the store holds meanwhile. -/
theorem ensures_errorsLocated [Retrieval] {d : Document} {runId : Nat} (hd : d.root.Proper) :
    (validateParsed document runId d).Ensures (ErrorsLocated d.root) := by
  have hnone : ErrorsLocated d.root (.ok none) := by
    intro o ho
    cases ho
  unfold validateParsed
  refine .bind fun root => ?_
  cases schemaRef? d.metadata root with
  | none => exact .done hnone
  | some schema =>
    refine .bind fun cached => ?_
    cases cached with
    | none => exact .done hnone
    | some cached =>
      dsimp only
      cases hvalidate : validateLocated document d.root cached.schema with
      | error err =>
        refine .done fun o ho => ?_
        cases ho
      | ok errors => exact .done (errorsLocated_of_validateLocated hd hvalidate)

/-- **Every error is found in the source.**  The errors that a run makes of a text are those that the
evaluator reports, each with the path of its violation and the value there, and located in the tree of
the text.  So would be the reports of any other evaluator. -/
theorem errors_located [Retrieval] (document : Path) (text : String) (runId : Nat) :
    LocatesReports document (Document.parse text).root ∧
      (validateParsed document runId (Document.parse text)).Ensures
        (ErrorsLocated (Document.parse text).root) := by
  have hproper := Document.proper_parse text
  constructor
  · intro e he
    exact LocatedError.located_ofError hproper he
  · exact ensures_errorsLocated hproper

end Workspace

end DocSchema
