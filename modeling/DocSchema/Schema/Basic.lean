/-
  DocSchema/Schema/Basic.lean
  ===========================
  **Schemas.**

  A schema is the conjunction of its keywords (`Schema.all`), each of them a schema of its own
  that asks one thing of a value.  Keywords that only make sense together, such as the three
  about the members of an object, are one schema here.

  A schema contains what it refers to (`Schema.ref`), unless it would contain itself, or too
  much: then it has the place of that in a table (`Schema.link`), which is looked up when a value
  is checked.
-/
import DocSchema.Format.Basic
import DocSchema.Schema.Fault

namespace DocSchema

open DocSchema.Json DocSchema.Schema

/-- A schema, or one of its keywords. -/
inductive Schema where
  | always
  | never
  | all (parts : List Schema)
  /-- Types, by name.  `wholeFloats` says that a floating-point number without a fraction is an
  integer. -/
  | type (names : List TypeName) (wholeFloats : Bool)
  | const (expected : Value)
  | enum (options : List Value)
  | bound (bound : Bound) (limit : Number)
  | multipleOf (divisor : Number)
  | size (bound : SizeBound) (limit : Nat)
  | uniqueItems
  | pattern (text : String) (p : Pattern)
  | format (f : Format)
  | contentEncoding (name : String)
  | contentMediaType (name : String) (encoding : Option String)
  | required (names : List String)
  | properties (named : List (String × Schema))
  | patternProperties (matched : List (String × Pattern × Schema))
  /-- Members by name, by pattern, and all others. -/
  | additionalProperties (named : List (String × Schema))
      (matched : List (String × Pattern × Schema)) (rest : Schema)
  /-- Members by name and by pattern, and no others. -/
  | closedProperties (named : List (String × Schema))
      (matched : List (String × Pattern × Schema))
  /-- No members at all. -/
  | noProperties
  | propertyNames (s : Schema)
  | noPropertyNames
  /-- Members whose presence asks for others. -/
  | dependentRequired (keyword : String) (name : String) (names : List String)
  /-- Members whose presence asks for a schema of the whole object. -/
  | dependentSchema (keyword : String) (name : String) (s : Schema)
  /-- The items one by one. -/
  | itemList (keyword : String) (schemas : List Schema)
  /-- All items from an index on. -/
  | items (keyword : String) (skipped : Nat) (s : Schema)
  | noItemsFrom (limit : Nat)
  /-- Nothing at all. -/
  | refusal (keyword : String)
  /-- Items that fit a schema: at least one, or between two counts. -/
  | contains (s : Schema) (least most : Option Nat)
  | allOf (schemas : List Schema)
  | anyOf (schemas : List Schema)
  | oneOf (schemas : List Schema)
  | not (text : Value) (s : Schema)
  | conditional (condition consequence alternative : Schema)
  | ref (keyword : String) (target : Schema)
  | link (keyword : String) (place : Nat)
  | unevaluatedProperties (s : Schema)
  | unevaluatedItems (s : Schema)

/-- Whether a schema is a truth value. -/
def Schema.isBoolean : Schema → Bool
  | .always => true
  | .never => true
  | _ => false

end DocSchema
