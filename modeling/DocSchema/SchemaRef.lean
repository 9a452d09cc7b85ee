/-
  DocSchema/SchemaRef.lean
  ========================
  **Which schema a document names.**

  The header names a schema by a path below the schema root.  Slashes in front are dropped; a
  path that climbs with `..`, or is empty, names no schema.  So the result never leaves the
  root.
-/
import DocSchema.Document.Node
import DocSchema.Path

namespace DocSchema

open DocSchema.Json

/-- A component that does not lead out of a directory. -/
def Component.staysBelow : Component → Bool
  | .normal _ => true
  | .current => true
  | _ => false

/-- The path below the root that a value of the header names. -/
def relativeRef? (value : String) : Option Path :=
  let relative : Path := ⟨String.ofList (value.toList.dropWhile (· == '/'))⟩
  if relative.text.isEmpty then none
  else if relative.components.all Component.staysBelow then some relative
  else none

/-- The path of the schema that a header names, below the schema root. -/
def schemaRef? (metadata : Option Object) (root : Path) : Option Path :=
  (metadata.bind fun m => (m.get? schemaKey).bind Value.asString?).bind fun value =>
    (relativeRef? value).map root.join

end DocSchema
