/-
  DocSchema/Board.lean
  ====================
  **The latest result of every document.**

  Each run of a validation has a number, and later runs have greater numbers.  The board takes
  a result only if it holds none of a later run for the document (`Board.apply`), so that runs
  may end in any order.
-/
import DocSchema.Path.Map
import DocSchema.Validation

namespace DocSchema

/-- The result of validating a document. -/
structure Outcome where
  document : Path
  runId : Nat
  /-- The schema that the document was validated against. -/
  schema : Path
  /-- The errors, in the order of the schema. -/
  errors : List LocatedError

/-- Whether no error was found. -/
def Outcome.isValid (o : Outcome) : Bool :=
  o.errors.isEmpty

/-- What is known of a document. -/
inductive Verdict where
  | cleared
  | validated (o : Outcome)
  | failed (message : String)

/-- What is known of a document, and from which run. -/
structure Slot where
  runId : Nat
  verdict : Verdict

/-- The latest result of every document. -/
structure Board where
  slots : PathMap Slot := []

namespace Board

/-- Records a result unless a later run has reported already. -/
def apply (document : Path) (runId : Nat) (verdict : Verdict) (b : Board) : Board :=
  match b.slots.get? document with
  | some slot =>
    if runId < slot.runId then b else ⟨b.slots.insert document ⟨runId, verdict⟩⟩
  | none => ⟨b.slots.insert document ⟨runId, verdict⟩⟩

def outcomeOf? (slot : Slot) : Option Outcome :=
  match slot.verdict with
  | .validated o => some o
  | _ => none

def outcome? (b : Board) (document : Path) : Option Outcome :=
  (b.slots.get? document).bind outcomeOf?

/-- Why a document could not be validated. -/
def failure? (b : Board) (document : Path) : Option String :=
  (b.slots.get? document).bind fun slot =>
    match slot.verdict with
    | .failed message => some message
    | _ => none

/-- All outcomes, sorted by document. -/
def outcomes (b : Board) : List Outcome :=
  (b.slots.filterMap fun e => outcomeOf? e.2).mergeSort fun a c => a.document.le c.document

/-- The number of errors of all outcomes. -/
def errorCount (b : Board) : Nat :=
  b.slots.foldr (fun e n => ((outcomeOf? e.2).elim 0 (·.errors.length)) + n) 0

/-- Whether a slot was validated against a schema. -/
def dependsOn (schema : Path) (slot : Slot) : Bool :=
  (outcomeOf? slot).any fun o => o.schema.same schema

/-- The documents that were validated against a schema, sorted. -/
def dependents (b : Board) (schema : Path) : List Path :=
  Path.sort ((b.slots.filter fun e => dependsOn schema e.2).map (·.1))

end Board

end DocSchema
