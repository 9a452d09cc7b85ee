/-
  DocSchema/Skeleton/File.lean
  ============================
  **Writing a skeleton to the place that its document names.**

  Directories on the way are made.  A file that is there already is never written over.
-/
import DocSchema.Document
import DocSchema.Json.Printer
import DocSchema.Program
import DocSchema.SchemaRef
import DocSchema.Skeleton

namespace DocSchema

open DocSchema.Json

/-- Why a skeleton was not written. -/
inductive SkeletonError where
  | noSchemaRef
  | alreadyExists (p : Path)
  | unwritable (p : Path) (e : HostError)
  deriving DecidableEq, Repr

namespace SkeletonError

/-- The wording of a refusal. -/
def message : SkeletonError → String
  | .noSchemaRef => "document declares no $schema in its header"
  | .alreadyExists p => s!"refusing to overwrite existing schema {p.text}"
  | .unwritable p e => s!"cannot write {p.text}: {e.message}"

def exitCode : SkeletonError → Nat
  | .unwritable _ _ => 3
  | _ => 2

end SkeletonError

def skeletonPath? (d : Document) (root : Path) : Option Path :=
  schemaRef? d.metadata root

/-- Makes the directory that a file goes into. -/
def createParent {σ : Type} (p : Path) : Program σ (Except HostError Unit) :=
  match p.parent? with
  | some parent =>
    if parent.text.isEmpty then return .ok () else Program.request (.createDirectories parent)
  | none => return .ok ()

/-- Writes the skeleton of a document to the path that its header names. -/
def writeSkeleton {σ : Type} (d : Document) (root : Path) :
    Program σ (Except SkeletonError Path) := do
  match skeletonPath? d root with
  | none => return .error .noSchemaRef
  | some p =>
    match ← createParent p with
    | .error e => return .error (.unwritable p e)
    | .ok () =>
      match ← Program.request (.createFile p (synthesize d.root).pretty) with
      | .created => return .ok p
      | .alreadyExists => return .error (.alreadyExists p)
      | .failed e => return .error (.unwritable p e)

end DocSchema
