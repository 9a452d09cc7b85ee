/-
  DocSchema/Schema/Metaschema/Late.lean
  =====================================
  **The metaschemas of the drafts of 2019 and 2020.**

  A metaschema is the conjunction of its vocabularies, each a document of its own, and of a few
  members that earlier drafts had.  A schema inside a schema follows the metaschema that the
  outermost document belongs to.
-/
import DocSchema.Schema.Metaschema.Pieces

namespace DocSchema.Metaschema.Late

open DocSchema.Json

def isOlder (d : Draft) : Bool :=
  d = .draft2019

/-- What one draft has and the other has not. -/
def only {α : Type} (condition : Bool) (xs : List α) : List α :=
  if condition then xs else []

def place (d : Draft) : String :=
  if isOlder d then "https://json-schema.org/draft/2019-09/"
  else "https://json-schema.org/draft/2020-12/"

/-- A reference to the whole metaschema. -/
def self (d : Draft) : Value :=
  .object (if isOlder d then [("$recursiveRef", .string "#")]
    else [("$dynamicRef", .string "#meta")])

def definition (name : String) : Value :=
  ref ("#/$defs/" ++ name)

def schemaType : String × Value :=
  ("type", texts ["object", "boolean"])

/-- The beginning of a document; `name` is that of its place. -/
def opening (d : Draft) (name : String) (vocabularies : List String) : Object :=
  [("$schema", .string d.uri), ("$id", .string (place d ++ name)),
    ("$vocabulary",
      .object (vocabularies.map fun v => (place d ++ "vocab/" ++ v, .bool true))),
    if isOlder d then ("$recursiveAnchor", .bool true) else ("$dynamicAnchor", .string "meta")]

/-- A vocabulary: members, and the definitions that these refer to. -/
def vocabulary (d : Draft) (name : String) (members definitions : Object) : Value :=
  .object (opening d ("meta/" ++ name) [name] ++ [schemaType, ("properties", .object members)] ++
    only (!definitions.isEmpty) [("$defs", .object definitions)])

/-! ### Vocabularies -/

/-- Identity and reference in the draft of 2019. -/
def core2019 : Value :=
  let d := Draft.draft2019
  let reference := formatted "uri-reference"
  vocabulary d "core"
    [("$id",
        .object [("type", .string "string"), ("format", .string "uri-reference"),
          ("pattern", .string "^[^#]*#?$")]),
      ("$schema", formatted "uri"),
      ("$anchor", matching "^[A-Za-z][-A-Za-z0-9.:_]*$"),
      ("$ref", reference),
      ("$recursiveRef", reference),
      ("$recursiveAnchor", flagOrFalse),
      ("$vocabulary",
        .object [("type", .string "object"), ("propertyNames", formatted "uri"),
          ("additionalProperties", flag)]),
      ("$comment", text),
      ("$defs", mapOf (self d) emptyMap)]
    []

/-- Identity and reference in the draft of 2020. -/
def core2020 : Value :=
  let d := Draft.draft2020
  let anchor := definition "anchorString"
  let uri := definition "uriString"
  let reference := definition "uriReferenceString"
  vocabulary d "core"
    [("$id",
        .object [("$ref", .string "#/$defs/uriReferenceString"),
          ("pattern", .string "^[^#]*#?$")]),
      ("$schema", uri),
      ("$ref", reference),
      ("$anchor", anchor),
      ("$dynamicRef", reference),
      ("$dynamicAnchor", anchor),
      ("$vocabulary",
        .object [("type", .string "object"), ("propertyNames", uri),
          ("additionalProperties", flag)]),
      ("$comment", text),
      ("$defs", mapOf (self d) [])]
    [("anchorString", matching "^[A-Za-z_][-A-Za-z0-9._]*$"),
      ("uriString", formatted "uri"),
      ("uriReferenceString", formatted "uri-reference")]

/-- Keywords that apply schemas. -/
def applicator (d : Draft) : Value :=
  let self := self d
  let schemas := definition "schemaArray"
  let regex : Object := [("propertyNames", .object [("format", .string "regex")])]
  vocabulary d "applicator" (
    only (isOlder d) [("additionalItems", self), ("unevaluatedItems", self),
      ("items", anyOf [self, schemas])] ++
    only (!isOlder d) [("prefixItems", schemas), ("items", self)] ++
    [("contains", self), ("additionalProperties", self)] ++
    only (isOlder d) [("unevaluatedProperties", self)] ++
    [("properties", mapOf self emptyMap),
      ("patternProperties", mapOf self (regex ++ emptyMap)),
      ("dependentSchemas", mapOf self (only (!isOlder d) emptyMap)),
      ("propertyNames", self),
      ("if", self),
      ("then", self),
      ("else", self),
      ("allOf", schemas),
      ("anyOf", schemas),
      ("oneOf", schemas),
      ("not", self)])
    [("schemaArray", schemaList self)]

/-- Keywords about what is left over. -/
def unevaluated (d : Draft) : Value :=
  vocabulary d "unevaluated"
    [("unevaluatedItems", self d), ("unevaluatedProperties", self d)] []

/-- Keywords that ask something of a value. -/
def validation (d : Draft) : Value :=
  let size := definition "nonNegativeInteger"
  let leastSize := definition "nonNegativeIntegerDefault0"
  let names := definition "stringArray"
  let type := ("type", typeValue (definition "simpleTypes"))
  let values : Object := [("const", .bool true), ("enum", listOf (.bool true))]
  vocabulary d "validation" (
    only (!isOlder d) (type :: values) ++
    [("multipleOf", positiveNumber),
      ("maximum", number),
      ("exclusiveMaximum", number),
      ("minimum", number),
      ("exclusiveMinimum", number),
      ("maxLength", size),
      ("minLength", leastSize),
      ("pattern", formatted "regex"),
      ("maxItems", size),
      ("minItems", leastSize),
      ("uniqueItems", flagOrFalse),
      ("maxContains", size),
      ("minContains",
        .object [("$ref", .string "#/$defs/nonNegativeInteger"), ("default", .ofNat 1)]),
      ("maxProperties", size),
      ("minProperties", leastSize),
      ("required", names),
      ("dependentRequired", mapOf names [])] ++
    only (isOlder d) (values ++ [type]))
    [("nonNegativeInteger", count),
      ("nonNegativeIntegerDefault0",
        .object [("$ref", .string "#/$defs/nonNegativeInteger"), ("default", .ofNat 0)]),
      ("simpleTypes", typeNames),
      ("stringArray", textSet)]

/-- Keywords that tell about a schema. -/
def metaData (d : Draft) : Value :=
  vocabulary d "meta-data"
    [("title", text), ("description", text), ("default", .bool true), ("deprecated", flagOrFalse),
      ("readOnly", flagOrFalse), ("writeOnly", flagOrFalse), ("examples", listOf (.bool true))]
    []

def formatName (d : Draft) : String :=
  if isOlder d then "format" else "format-annotation"

def format (d : Draft) : Value :=
  vocabulary d (formatName d) [("format", text)] []

/-- Keywords about what a text holds. -/
def content (d : Draft) : Value :=
  vocabulary d "content" (
    only (isOlder d) [("contentMediaType", text), ("contentEncoding", text)] ++
    only (!isOlder d) [("contentEncoding", text), ("contentMediaType", text)] ++
    [("contentSchema", self d)]) []

/-! ### The metaschema -/

def vocabularies (d : Draft) : List (String × Value) :=
  [("core", if isOlder d then core2019 else core2020), ("applicator", applicator d)] ++
  only (!isOlder d) [("unevaluated", unevaluated d)] ++
  [("validation", validation d), ("meta-data", metaData d), (formatName d, format d),
    ("content", content d)]

/-- The members that earlier drafts had. -/
def retained (d : Draft) : Object :=
  let names := ref "meta/validation#/$defs/stringArray"
  let gone : Object := only (!isOlder d) [("deprecated", .bool true)]
  let moved (target : String) : Value := .object (("$ref", .string target) :: gone)
  [("definitions", mapOf (self d) (gone ++ emptyMap)),
    ("dependencies",
      mapOf (anyOf [self d, names]) (gone ++ only (!isOlder d) emptyMap))] ++
  only (!isOlder d) [("$recursiveAnchor", moved "meta/core#/$defs/anchorString"),
    ("$recursiveRef", moved "meta/core#/$defs/uriReferenceString")]

def document (d : Draft) : Value :=
  let names := (vocabularies d).map (·.1)
  .object (opening d "schema" names ++
    [("allOf", .array (names.map fun name => ref ("meta/" ++ name))), schemaType,
      ("properties", .object (retained d))])

def documents (d : Draft) : List Value :=
  document d :: (vocabularies d).map (·.2)

end DocSchema.Metaschema.Late
