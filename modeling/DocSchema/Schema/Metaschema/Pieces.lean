/-
  DocSchema/Schema/Metaschema/Pieces.lean
  =======================================
  **What the schemas of schemas are made of.**

  Every draft describes its own schemas by a schema, its metaschema; a schema is looked into
  only if the metaschema accepts it.  The members stand in the order of the published texts,
  since the first violation is the one that gets told.  Titles and comments are left out.
-/
import DocSchema.Schema.Draft

namespace DocSchema.Metaschema

open DocSchema.Json

def texts (xs : List String) : Value :=
  .array (xs.map .string)

def ofType (name : String) : Value :=
  .object [("type", .string name)]

def text : Value :=
  ofType "string"

def formatted (format : String) : Value :=
  .object [("type", .string "string"), ("format", .string format)]

def matching (pattern : String) : Value :=
  .object [("type", .string "string"), ("pattern", .string pattern)]

def number : Value :=
  ofType "number"

def flag : Value :=
  ofType "boolean"

/-- A truth value that is false where it is not given. -/
def flagOrFalse : Value :=
  .object [("type", .string "boolean"), ("default", .bool false)]

def ref (target : String) : Value :=
  .object [("$ref", .string target)]

def anyOf (schemas : List Value) : Value :=
  .object [("anyOf", .array schemas)]

/-- A schema without any keyword. -/
def anything : Value :=
  .object []

/-- A map of values that follow a schema; `more` are further keywords. -/
def mapOf (s : Value) (more : Object) : Value :=
  .object ([("type", .string "object"), ("additionalProperties", s)] ++ more)

/-- The keyword that says that a map is empty where it is not given. -/
def emptyMap : Object :=
  [("default", .object [])]

/-- A list of values that follow a schema. -/
def listOf (s : Value) : Value :=
  .object [("type", .string "array"), ("items", s)]

def schemaList (s : Value) : Value :=
  .object [("type", .string "array"), ("minItems", .ofNat 1), ("items", s)]

/-- A list of texts without repetition. -/
def textSet : Value :=
  .object [("type", .string "array"), ("items", text), ("uniqueItems", .bool true),
    ("default", .array [])]

def positiveNumber : Value :=
  .object [("type", .string "number"), ("exclusiveMinimum", .ofNat 0)]

/-- A whole number that is not negative. -/
def count : Value :=
  .object [("type", .string "integer"), ("minimum", .ofNat 0)]

def typeNames : Value :=
  .object [("enum",
    texts ["array", "boolean", "integer", "null", "number", "object", "string"])]

/-- The value of the keyword `type`: a name, or several different ones; `simple` is a reference
to the names. -/
def typeValue (simple : Value) : Value :=
  anyOf [simple,
    .object [("type", .string "array"), ("items", simple), ("minItems", .ofNat 1),
      ("uniqueItems", .bool true)]]

/-- A list without repetition, with at least one item. -/
def fullSet : Value :=
  .object [("type", .string "array"), ("minItems", .ofNat 1), ("uniqueItems", .bool true)]

end DocSchema.Metaschema
