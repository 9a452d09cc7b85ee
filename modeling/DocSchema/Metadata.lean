/-
  DocSchema/Metadata.lean
  =======================
  **The data of a document's header.**

  A header is YAML, and has to be a mapping.
-/
import DocSchema.Yaml.Data

namespace DocSchema

open DocSchema.Json

/-- Why a header holds no data. -/
inductive MetadataError where
  | malformed
  | notAMapping (actual : String)
  deriving DecidableEq, Repr

/-- The wording of a refusal.  `source` is what the reader of YAML says of a malformed text, which
is in words of its own. -/
def MetadataError.message (e : MetadataError) (source : String := "") : String :=
  match e with
  | .malformed => s!"invalid YAML header: {source}"
  | .notAMapping actual => s!"header must be a mapping, got {actual}"

/-- Reads the data of a header. -/
def parseMetadata (raw : String) : Except MetadataError Object :=
  match Yaml.data? raw.toList with
  | some (.object members) => .ok members
  | some v => .error (.notAMapping v.typeName)
  | none => .error .malformed

end DocSchema
