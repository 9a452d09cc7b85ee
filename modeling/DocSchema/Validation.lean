/-
  DocSchema/Validation.lean
  =========================
  **Validating documents, and finding the faults in their source.**

  A violation is reported with the path to the value in both forms, as segments and as a JSON
  Pointer.  Located, it also has the trail of spans along that path; the last span is where an
  editor would jump to.
-/
import DocSchema.Locate
import DocSchema.Schema.Metaschema

namespace DocSchema

open DocSchema.Json DocSchema.Schema

/-- A value of an instance that breaks a rule, in words. -/
structure InstanceError where
  /-- The way to the value. -/
  instancePath : List String
  /-- The way to the value, as a pointer. -/
  pointer : String
  /-- The way to the keyword in the schema, as a pointer. -/
  schemaPath : String
  keyword : String
  value : Value
  message : String
  deriving DecidableEq

namespace InstanceError

def ofViolation (w : Violation) : InstanceError :=
  let pointer := Pointer.encode w.instancePath
  let schemaPath := Pointer.encode w.schemaPath
  { instancePath := Pointer.segments pointer
    pointer
    schemaPath
    keyword := (Pointer.segments schemaPath).getLast?.getD ""
    value := w.value
    message := w.message }

end InstanceError

def validateInstance [Retrieval] (v schema : Value) : Except SchemaError (List InstanceError) :=
  (Validator.compile schema).map fun va => (va.violations v).map .ofViolation

def validate [Retrieval] (tree : Node) (schema : Value) : Except SchemaError (List InstanceError) :=
  validateInstance tree.toInstance schema

/-! ### Places in the source -/

/-- An error with the way to its place in the source. -/
structure LocatedError where
  document : Path
  error : InstanceError
  trail : List PathPart
  deriving DecidableEq

namespace LocatedError

def ofError (document : Path) (tree : Node) (e : InstanceError) : LocatedError :=
  ⟨document, e, locate tree e.instancePath⟩

def jumpTarget? (e : LocatedError) : Option Span :=
  e.trail.getLast?.map (·.span)

/-- Whether every segment of the path was found. -/
def isFullyResolved (e : LocatedError) : Bool :=
  e.trail.length == e.error.instancePath.length

end LocatedError

/-- The errors of a document's tree against a schema, each with its place. -/
def validateLocated [Retrieval] (document : Path) (tree : Node) (schema : Value) :
    Except SchemaError (List LocatedError) :=
  (validate tree schema).map fun es => es.map (.ofError document tree)

end DocSchema
