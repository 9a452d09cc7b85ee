/-
  DocSchema/Workspace.lean
  ========================
  **Documents, their schemas and their latest results.**

  To validate a document is to read it, to resolve the schema that its header names, to get
  that schema from the store, to validate the tree and to locate every error.  A document that
  names no schema, or one that cannot be had, is not validated; that is no error.

  Every run takes its number before it reads anything, and reports to the board at its end.
-/
import DocSchema.Board
import DocSchema.Document
import DocSchema.SchemaRef
import DocSchema.Settings
import DocSchema.Store

namespace DocSchema

open DocSchema.Json

/-- Why a document could not be validated. -/
inductive ValidateError where
  | invalidSchema (schema : Option Path) (e : SchemaError)
  | documentRead (document : Path) (e : HostError)

namespace ValidateError

/-- The wording of a failure. -/
def message : ValidateError → String
  | .invalidSchema none e => s!"invalid schema : {e.message}"
  | .invalidSchema (some schema) e => s!"invalid schema {schema.text}: {e.message}"
  | .documentRead document e => s!"cannot read document {document.text}: {e.message}"

def exitCode : ValidateError → Nat
  | .invalidSchema _ _ => 2
  | .documentRead _ _ => 3

end ValidateError

/-- What comes of a run: a failure, no validation, or an outcome. -/
abbrev RunResult := Except ValidateError (Option Outcome)

/-- The entry that a result makes on the board. -/
def RunResult.verdict : RunResult → Verdict
  | .ok (some o) => .validated o
  | .ok none => .cleared
  | .error e => .failed e.message

/-- A set of documents that share a schema root. -/
structure Workspace where
  settings : Settings
  store : Store
  board : Board := {}
  /-- The number of runs so far. -/
  runs : Nat := 0

/-- What an event did. -/
structure EventOutcome where
  store : StoreUpdate
  /-- The documents that were validated again. -/
  revalidated : List Path

namespace Workspace

/-- A workspace without any results. -/
def ofSettings (settings : Settings) : Workspace :=
  { settings, store := .ofRoot settings.schemaRoot }

def onStore {α : Type} (p : Program Store α) : Program Workspace α :=
  p.onPart (·.store) fun store w => { w with store }

/-- Takes the number of a new run. -/
def takeRun : Program Workspace Nat :=
  Program.exchange (fun w => { w with runs := w.runs + 1 }) (·.runs + 1)

/-- Reports a result to the board. -/
def report (document : Path) (runId : Nat) (verdict : Verdict) : Program Workspace Unit :=
  Program.change fun w => { w with board := w.board.apply document runId verdict }

def validateParsed [Retrieval] (document : Path) (runId : Nat) (d : Document) :
    Program Workspace RunResult := do
  match schemaRef? d.metadata (← Program.look (·.store.root)) with
  | none => return .ok none
  | some schema =>
    match ← onStore (Store.get schema) with
    | none => return .ok none
    | some cached =>
      match validateLocated document d.root cached.schema with
      | .error e => return .error (.invalidSchema (some schema) e)
      | .ok errors => return .ok (some { document, runId, schema, errors })

/-- Validates a text in the place of a document, without a report to the board. -/
def validateText [Retrieval] (document : Path) (text : String) : Program Workspace RunResult := do
  validateParsed document (← takeRun) (Document.parse text)

/-- Reads and validates a document, and reports to the board. -/
def revalidate [Retrieval] (document : Path) : Program Workspace RunResult := do
  let runId ← takeRun
  let result ←
    match ← Program.request (.readText document) with
    | .error e => pure (.error (.documentRead document e))
    | .ok text => validateParsed document runId (Document.parse text)
  report document runId result.verdict
  return result

/-- Drops the result of a document.  Runs for it that are under way count as older. -/
def forget (document : Path) : Program Workspace Unit := do
  report document (← takeRun) .cleared

/-- Validates documents one after the other. -/
def sweep [Retrieval] (documents : List Path) : Program Workspace (List (Path × RunResult)) :=
  Program.forEach (fun d => do return (d, ← revalidate d)) documents

/-! ### Events -/

def affectedSchemas : FileEvent → List Path
  | .renamed source target => [target, source]
  | e => [e.path]

/-- Validates the documents again that were last validated against a schema. -/
def revalidateDependents [Retrieval] (schema : Path) : Program Workspace (List Path) := do
  let documents ← Program.look (·.board.dependents schema)
  let _ ← sweep documents
  return documents

/-- What an event means for its schemas' documents. -/
def updateDependents [Retrieval] (e : FileEvent) (update : StoreUpdate) :
    Program Workspace (List Path) := do
  let autolint ← Program.look (·.settings.autolint)
  if (update == .reloaded || update == .evicted) && autolint then
    return (← Program.forEach revalidateDependents (affectedSchemas e)).flatten
  else return []

/-- What an event means for the place that a document was moved away from. -/
def forgetSource (e : FileEvent) : Program Workspace Unit :=
  match e with
  | .renamed source _ => if source.isDocument then forget source else return ()
  | _ => return ()

/-- What an event means for the document that it is about. -/
def updateDocument [Retrieval] (e : FileEvent) : Program Workspace (List Path) :=
  if !e.path.isDocument then return []
  else
    match e with
    | .deleted p => do
      forget p
      return []
    | _ => do
      if ← Program.look (·.settings.autolint) then
        let _ ← revalidate e.path
        return [e.path]
      else return []

/-- Routes an event to the store, to the documents of a changed schema and to the document
itself. -/
def handleEvent [Retrieval] (e : FileEvent) : Program Workspace EventOutcome := do
  let store ← onStore (Store.handleEvent e)
  let dependents ← updateDependents e store
  forgetSource e
  let own ← updateDocument e
  return ⟨store, dependents ++ own⟩

end Workspace

end DocSchema
