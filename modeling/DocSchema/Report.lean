/-
  DocSchema/Report.lean
  =====================
  **Checking all documents at a path.**

  A document passes, fails or is skipped; the report counts these and lists the errors with
  their places.  Its exit code is the highest of its documents: 0 for a pass or a skip, 1 for a
  document that breaks its schema, else that of the failure.
-/
import DocSchema.Workspace

namespace DocSchema

open DocSchema.Json

/-! ### Documents at a path -/

mutual

/-- What counts as a document at a path or below it: everything of that name but directories. -/
def Entry.documents (p : Path) : Entry → List Path
  | .directory entries => documentsOf p entries
  | _ => if p.isDocument then [p] else []

/-- The documents of the entries of a directory. -/
def documentsOf (p : Path) : List (String × Entry) → List Path
  | [] => []
  | (name, e) :: rest => e.documents (p.join ⟨name⟩) ++ documentsOf p rest

end

/-- The documents at a path that is that of a file or a directory, sorted. -/
def Entry.collected (p : Path) : Entry → List Path
  | .other => []
  | e => Path.sort (e.documents p)

/-- The documents at a path, or below it, sorted. -/
def collectDocuments {σ : Type} (p : Path) : Program σ (List Path) := do
  match ← Program.request (.tree p) with
  | none => return []
  | some entry => return entry.collected p

/-! ### Reports -/

/-- An error in a report. -/
structure ErrorReport where
  pointer : String
  keyword : String
  message : String
  location : Option Span
  deriving DecidableEq

def ErrorReport.ofError (e : LocatedError) : ErrorReport :=
  ⟨e.error.pointer, e.error.keyword, e.error.message, e.jumpTarget?⟩

/-- How a document fared. -/
inductive FileStatus where
  | valid
  | invalid
  /-- It names no schema, or one that cannot be had. -/
  | skipped
  | error
  deriving DecidableEq, Repr

def FileStatus.text : FileStatus → String
  | .valid => "valid"
  | .invalid => "invalid"
  | .skipped => "skipped"
  | .error => "error"

/-- The report of a document. -/
structure FileReport where
  file : Path
  status : FileStatus
  schema : Option Path := none
  errors : List ErrorReport := []
  failure : Option String := none
  exitCode : Nat := 0
  deriving DecidableEq

def FileReport.ofResult (file : Path) (result : RunResult) : FileReport :=
  match result with
  | .ok none => { file, status := .skipped }
  | .ok (some o) =>
    let errors := o.errors.map .ofError
    if o.isValid then { file, status := .valid, schema := some o.schema, errors }
    else { file, status := .invalid, schema := some o.schema, errors, exitCode := 1 }
  | .error e => { file, status := .error, failure := some e.message, exitCode := e.exitCode }

/-- The report of all documents at a path. -/
structure CheckReport where
  path : Path
  /-- The number of documents that were found. -/
  checked : Nat
  results : List FileReport

namespace CheckReport

/-- The number of documents of a status. -/
def count (r : CheckReport) (status : FileStatus) : Nat :=
  r.results.countP (·.status == status)

/-- The number of documents that passed. -/
def passed (r : CheckReport) : Nat :=
  r.count .valid

/-- The number of documents that broke their schema or could not be validated. -/
def failed (r : CheckReport) : Nat :=
  r.count .invalid + r.count .error

/-- The number of documents without a schema. -/
def skipped (r : CheckReport) : Nat :=
  r.count .skipped

def errors (r : CheckReport) : Nat :=
  r.results.foldr (fun f n => f.errors.length + n) 0

/-- Whether no document failed. -/
def isOk (r : CheckReport) : Bool :=
  r.failed == 0

/-- The highest exit code of the documents. -/
def exitCode (r : CheckReport) : Nat :=
  r.results.foldl (fun code f => max code f.exitCode) 0

end CheckReport

/-- Checks all documents at a path. -/
def check [Retrieval] (p : Path) : Program Workspace CheckReport := do
  let files ← collectDocuments p
  let results ← Workspace.sweep files
  return ⟨p, files.length, results.map fun (file, result) => .ofResult file result⟩

/-! ### Reports as JSON -/

/-- A member that is left out if there is nothing to tell. -/
def optionalMember {α : Type} (key : String) (f : α → Value) (x : Option α) : Object :=
  match x with
  | some a => [(key, f a)]
  | none => []

def ErrorReport.toJson (e : ErrorReport) : Value :=
  .object ([("path", .string e.pointer), ("keyword", .string e.keyword),
    ("message", .string e.message)] ++ optionalMember "location" Span.toJson e.location)

def FileReport.toJson (r : FileReport) : Value :=
  .object ([("file", .string r.file.text), ("status", .string r.status.text)] ++
    optionalMember "schema" (fun p => .string p.text) r.schema ++
    (if r.errors.isEmpty then [] else [("errors", .array (r.errors.map ErrorReport.toJson))]) ++
    optionalMember "failure" .string r.failure)

/-- The report of all documents as JSON. -/
def CheckReport.toJson (r : CheckReport) : Value :=
  .object [("path", .string r.path.text), ("files_checked", .ofNat r.checked),
    ("passed", .ofNat r.passed), ("failed", .ofNat r.failed), ("skipped", .ofNat r.skipped),
    ("errors", .ofNat r.errors), ("results", .array (r.results.map FileReport.toJson))]

end DocSchema
