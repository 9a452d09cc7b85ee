/-
  DocSchema/Schema/Fault.lean
  ===========================
  **What can be wrong with a value, and how it is told.**

  A violation names the place of the offending value in the instance, the place of the keyword
  in the schema, the value itself and the fault.  The wording of a fault is a matter of
  `Fault.message` alone.
-/
import DocSchema.Json.Printer

namespace DocSchema.Schema

open DocSchema.Json

/-! ### Vocabulary -/

/-- A type of values, as schemas name it. -/
inductive TypeName where
  | array
  | boolean
  | integer
  | null
  | number
  | object
  | string
  deriving DecidableEq, Repr

namespace TypeName

def text : TypeName → String
  | .array => "array"
  | .boolean => "boolean"
  | .integer => "integer"
  | .null => "null"
  | .number => "number"
  | .object => "object"
  | .string => "string"

def all : List TypeName :=
  [.array, .boolean, .integer, .null, .number, .object, .string]

def ofText? (name : String) : Option TypeName :=
  all.find? fun t => t.text == name

end TypeName

/-- A limit on numbers. -/
inductive Bound where
  | minimum
  | maximum
  | exclusiveMinimum
  | exclusiveMaximum
  deriving DecidableEq, Repr

/-- The keyword of a limit on numbers. -/
def Bound.keyword : Bound → String
  | .minimum => "minimum"
  | .maximum => "maximum"
  | .exclusiveMinimum => "exclusiveMinimum"
  | .exclusiveMaximum => "exclusiveMaximum"

/-- A limit on the size of a value. -/
inductive SizeBound where
  | minLength
  | maxLength
  | minItems
  | maxItems
  | minProperties
  | maxProperties
  deriving DecidableEq, Repr

/-- The keyword of a limit on sizes. -/
def SizeBound.keyword : SizeBound → String
  | .minLength => "minLength"
  | .maxLength => "maxLength"
  | .minItems => "minItems"
  | .maxItems => "maxItems"
  | .minProperties => "minProperties"
  | .maxProperties => "maxProperties"

/-! ### Faults -/

/-- What is wrong with a value. -/
inductive Fault where
  | additionalItems (limit : Nat)
  | additionalProperties (names : List String)
  | noneOfAny
  | noneOfOne
  | severalOfOne
  | noneContained
  | notExpected (expected : Value)
  | notListed (options : List Value)
  | outOfBound (bound : Bound) (limit : Number)
  | wrongSize (bound : SizeBound) (limit : Nat)
  | notMultiple (divisor : Number)
  | notUnique
  | refused
  | wrongFormat (format : String)
  | wrongEncoding (encoding : String)
  | wrongMediaType (mediaType : String)
  | excluded (schema : Value)
  | noMatch (pattern : String)
  /-- The search for a pattern gave up. -/
  | unsettledMatch
  /-- The name of a member has a fault of its own. -/
  | badName (name : Value) (fault : Fault)
  | missing (name : String)
  | wrongType (names : List TypeName)
  /-- A name of a type that there is not. -/
  | unexpectedType
  | unevaluatedItems (items : List Value)
  | unevaluatedProperties (names : List String)

namespace Fault

/-- Joins texts by a comma and a space. -/
def commaList (texts : List String) : String :=
  ", ".intercalate texts

/-- A text between two others. -/
def enclosed (mark : String) (text : String) : String :=
  mark ++ text ++ mark

/-- Things that were not expected, in parentheses. -/
def unexpected (things : List String) : String :=
  let verb := if things.length == 1 then "was" else "were"
  s!"({commaList things} {verb} unexpected)"

/-- A number of things, with the word for one and for several. -/
def counted (n : Nat) (one several : String) : String :=
  if n == 1 then s!"{n} {one}" else s!"{n} {several}"

/-- The wording of a broken limit on sizes. -/
def sizeText (bound : SizeBound) (limit : Nat) : String :=
  match bound with
  | .minLength => "is shorter than " ++ counted limit "character" "characters"
  | .maxLength => "is longer than " ++ counted limit "character" "characters"
  | .minItems => "has less than " ++ counted limit "item" "items"
  | .maxItems => "has more than " ++ counted limit "item" "items"
  | .minProperties => "has less than " ++ counted limit "property" "properties"
  | .maxProperties => "has more than " ++ counted limit "property" "properties"

/-- The wording of a broken limit on numbers. -/
def boundText (bound : Bound) : String :=
  match bound with
  | .minimum => "less than the minimum of"
  | .maximum => "greater than the maximum of"
  | .exclusiveMinimum => "less than or equal to the minimum of"
  | .exclusiveMaximum => "greater than or equal to the maximum of"

/-- The text of a divisor: positional, and whole without a fraction. -/
def divisorText (n : Number) : String :=
  String.ofList
    (match n with
     | .int i => intText i
     | .float bits => (Binary64.ofBits? bits).elim [] (·.text plainLayout))

def message : Fault → Value → String
  | .additionalItems limit, v =>
    let extra := (v.asArray?.getD []).drop limit
    s!"Additional items are not allowed {unexpected (extra.map Value.compact)}"
  | .additionalProperties names, _ =>
    "Additional properties are not allowed " ++ unexpected (names.map (enclosed "'"))
  | .noneOfAny, v =>
    s!"{v.compact} is not valid under any of the schemas listed in the 'anyOf' keyword"
  | .noneOfOne, v =>
    s!"{v.compact} is not valid under any of the schemas listed in the 'oneOf' keyword"
  | .severalOfOne, v =>
    s!"{v.compact} is valid under more than one of the schemas listed in the 'oneOf' keyword"
  | .noneContained, v => s!"None of {v.compact} are valid under the given schema"
  | .notExpected expected, _ => s!"{expected.compact} was expected"
  | .notListed options, v => s!"{v.compact} is not one of {(Value.array options).compact}"
  | .outOfBound bound limit, v =>
    s!"{v.compact} is {boundText bound} {(Value.number limit).compact}"
  | .wrongSize bound limit, v => s!"{v.compact} {sizeText bound limit}"
  | .notMultiple divisor, v => s!"{v.compact} is not a multiple of {divisorText divisor}"
  | .notUnique, v => s!"{v.compact} has non-unique elements"
  | .refused, v => s!"False schema does not allow {v.compact}"
  | .wrongFormat format, v => s!"{v.compact} is not a \"{format}\""
  | .wrongEncoding encoding, v =>
    s!"{v.compact} is not compliant with \"{encoding}\" content encoding"
  | .wrongMediaType mediaType, v =>
    s!"{v.compact} is not compliant with \"{mediaType}\" media type"
  | .excluded schema, v => s!"{schema.compact} is not allowed for {v.compact}"
  | .noMatch pattern, v => s!"{v.compact} does not match \"{pattern}\""
  | .unsettledMatch, _ => "Error executing regex: Max limit for backtracking count exceeded"
  | .badName name fault, _ => fault.message name
  | .missing name, _ => s!"{(Value.string name).compact} is a required property"
  | .unexpectedType, _ => "Unexpected type"
  | .wrongType [name], v => s!"{v.compact} is not of type \"{name.text}\""
  | .wrongType names, v =>
    let texts := names.map fun t => enclosed "\"" t.text
    s!"{v.compact} is not of types {commaList texts}"
  | .unevaluatedItems items, _ =>
    let texts := items.map fun x => enclosed "'" x.compact
    s!"Unevaluated items are not allowed {unexpected texts}"
  | .unevaluatedProperties names, _ =>
    "Unevaluated properties are not allowed " ++ unexpected (names.map (enclosed "'"))

end Fault

/-! ### Violations -/

/-- A value that breaks a rule. -/
structure Violation where
  /-- The way from the instance to the value. -/
  instancePath : List String
  /-- The way from the schema to the keyword. -/
  schemaPath : List String
  value : Value
  fault : Fault

namespace Violation

def message (w : Violation) : String :=
  w.fault.message w.value

/-- The same violation, seen from further out. -/
def within (instancePath schemaPath : List String) (w : Violation) : Violation :=
  { w with
    instancePath := instancePath ++ w.instancePath
    schemaPath := schemaPath ++ w.schemaPath }

end Violation

end DocSchema.Schema
