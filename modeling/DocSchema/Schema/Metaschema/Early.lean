/-
  DocSchema/Schema/Metaschema/Early.lean
  ======================================
  **The metaschemas of drafts 4, 6 and 7.**

  Each is one document.  Draft 6 lacks some members of draft 7 and is stricter about `enum`.
-/
import DocSchema.Schema.Metaschema.Pieces

namespace DocSchema.Metaschema

open DocSchema.Json

/-- A reference to the whole metaschema. -/
def self : Value :=
  ref "#"

def definition (name : String) : Value :=
  ref ("#/definitions/" ++ name)

/-! ### Draft 4 -/

namespace Draft4

def definitions : Object :=
  [("schemaArray", schemaList self),
    ("positiveInteger", .object [("minimum", .ofNat 0), ("type", .string "integer")]),
    ("positiveIntegerDefault0",
      .object [("allOf",
        .array [definition "positiveInteger", .object [("default", .ofNat 0)]])]),
    ("simpleTypes", typeNames),
    ("stringArray",
      .object [("type", .string "array"), ("items", text), ("minItems", .ofNat 1),
        ("uniqueItems", .bool true)])]

def members : Object :=
  let flagOrSchema : Value := .object [("anyOf", .array [flag, self]), ("default", .object [])]
  let size := definition "positiveInteger"
  let leastSize := definition "positiveIntegerDefault0"
  let schemas := definition "schemaArray"
  let names := definition "stringArray"
  [("id", text),
    ("$schema", text),
    ("title", text),
    ("description", text),
    ("default", anything),
    ("multipleOf",
      .object [("type", .string "number"), ("minimum", .ofNat 0),
        ("exclusiveMinimum", .bool true)]),
    ("maximum", number),
    ("exclusiveMaximum", flag),
    ("minimum", number),
    ("exclusiveMinimum", flag),
    ("maxLength", size),
    ("minLength", leastSize),
    ("pattern", formatted "regex"),
    ("additionalItems", flagOrSchema),
    ("items", .object [("anyOf", .array [self, schemas]), ("default", .object [])]),
    ("maxItems", size),
    ("minItems", leastSize),
    ("uniqueItems", flagOrFalse),
    ("maxProperties", size),
    ("minProperties", leastSize),
    ("required", names),
    ("additionalProperties", flagOrSchema),
    ("definitions", mapOf self emptyMap),
    ("properties", mapOf self emptyMap),
    ("patternProperties", mapOf self emptyMap),
    ("dependencies", mapOf (anyOf [self, names]) []),
    ("enum", fullSet),
    ("type", typeValue (definition "simpleTypes")),
    ("format", text),
    ("allOf", schemas),
    ("anyOf", schemas),
    ("oneOf", schemas),
    ("not", self)]

def document : Value :=
  .object [("id", .string "http://json-schema.org/draft-04/schema#"),
    ("$schema", .string "http://json-schema.org/draft-04/schema#"),
    ("definitions", .object definitions),
    ("type", .string "object"),
    ("properties", .object members),
    ("dependencies",
      .object [("exclusiveMaximum", texts ["maximum"]), ("exclusiveMinimum", texts ["minimum"])]),
    ("default", .object [])]

end Draft4

/-! ### Drafts 6 and 7 -/

namespace Draft7

/-- What only draft 7 has, where `d` is one of the two drafts. -/
def newer {α : Type} (d : Draft) (xs : List α) : List α :=
  if d = .draft7 then xs else []

/-- The value of keywords that take anything. -/
def free (d : Draft) : Value :=
  if d = .draft7 then .bool true else anything

def definitions : Object :=
  [("schemaArray", schemaList self),
    ("nonNegativeInteger", count),
    ("nonNegativeIntegerDefault0",
      .object [("allOf",
        .array [definition "nonNegativeInteger", .object [("default", .ofNat 0)]])]),
    ("simpleTypes", typeNames),
    ("stringArray", textSet)]

def members (d : Draft) : Object :=
  let size := definition "nonNegativeInteger"
  let leastSize := definition "nonNegativeIntegerDefault0"
  let schemas := definition "schemaArray"
  let names := definition "stringArray"
  [("$id", formatted "uri-reference"),
    ("$schema", formatted "uri"),
    ("$ref", formatted "uri-reference")] ++
  newer d [("$comment", text)] ++
  [("title", text),
    ("description", text),
    ("default", free d)] ++
  newer d [("readOnly", flagOrFalse)] ++
  [("examples", listOf (free d)),
    ("multipleOf", positiveNumber),
    ("maximum", number),
    ("exclusiveMaximum", number),
    ("minimum", number),
    ("exclusiveMinimum", number),
    ("maxLength", size),
    ("minLength", leastSize),
    ("pattern", formatted "regex"),
    ("additionalItems", self),
    ("items", .object [("anyOf", .array [self, schemas]), ("default", free d)]),
    ("maxItems", size),
    ("minItems", leastSize),
    ("uniqueItems", flagOrFalse),
    ("contains", self),
    ("maxProperties", size),
    ("minProperties", leastSize),
    ("required", names),
    ("additionalProperties", self),
    ("definitions", mapOf self emptyMap),
    ("properties", mapOf self emptyMap),
    ("patternProperties",
      mapOf self (newer d [("propertyNames", .object [("format", .string "regex")])] ++ emptyMap)),
    ("dependencies", mapOf (anyOf [self, names]) []),
    ("propertyNames", self),
    ("const", free d),
    ("enum", if d = .draft7 then listOf (.bool true) else fullSet),
    ("type", typeValue (definition "simpleTypes")),
    ("format", text)] ++
  newer d [("contentMediaType", text),
    ("contentEncoding", text),
    ("if", self),
    ("then", self),
    ("else", self)] ++
  [("allOf", schemas),
    ("anyOf", schemas),
    ("oneOf", schemas),
    ("not", self)]

def document (d : Draft) : Value :=
  .object [("$schema", .string (d.uri ++ "#")),
    ("$id", .string (d.uri ++ "#")),
    ("definitions", .object definitions),
    ("type", texts ["object", "boolean"]),
    ("properties", .object (members d)),
    ("default", free d)]

end Draft7

end DocSchema.Metaschema
