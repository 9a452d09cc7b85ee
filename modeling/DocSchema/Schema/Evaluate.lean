/-
  DocSchema/Schema/Evaluate.lean
  ==============================
  **Checking values against schemas.**

  `Schema.check` is defined by recursion on the schema, given what the links in it mean.  What
  they mean may have links again; `Validator.definition` follows links up to a limit.  A check
  that ends at all follows no more links than there are definitions before it descends into the
  instance, so that the limit of `Validator.limit` is never met by it
  (`Validator.outcome_eq_of_limit_le`).
-/
import DocSchema.Schema.Check

namespace DocSchema

open DocSchema.Json

namespace Schema

mutual

/-- What a schema asks of a value, where `definition` tells what a link means. -/
def check (definition : Nat → Check) : Schema → Check
  | .always => fun _ => .ok
  | .never => fun v => .fail [] v .refused
  | .all parts =>
    let checks := checkAll definition parts
    fun v => .conjunction v (checks.map (· v))
  | .type names wholeFloats => .type names wholeFloats
  | .const expected => .const expected
  | .enum options => .enum options
  | .bound b limit => .bound b limit
  | .multipleOf divisor => .multipleOf divisor
  | .size b limit => .size b limit
  | .uniqueItems => .uniqueItems
  | .pattern text p => .pattern text p
  | .format f => .format f
  | .contentEncoding name => .contentEncoding name
  | .contentMediaType name encoding => .contentMediaType name encoding
  | .required names => .required names
  | .properties named => .properties (checkNamed definition named)
  | .patternProperties matched => .patternProperties (checkMatched definition matched)
  | .additionalProperties named matched rest =>
    .additionalProperties (checkNamed definition named) (checkMatched definition matched)
      (check definition rest)
  | .closedProperties named matched =>
    .closedProperties (checkNamed definition named) (checkMatched definition matched)
  | .noProperties => .noProperties
  | .propertyNames s => .propertyNames (check definition s)
  | .noPropertyNames => .noPropertyNames
  | .dependentRequired keyword name names => .dependentRequired keyword name names
  | .dependentSchema keyword name s => .dependentSchema keyword name (check definition s)
  | .itemList keyword schemas => .itemList keyword (checkAll definition schemas)
  | .items keyword skipped s => .items keyword skipped (check definition s)
  | .noItemsFrom limit => .noItemsFrom limit
  | .refusal keyword => .refusal keyword
  | .contains s least most => .contains (check definition s) least most
  | .allOf schemas => .allOf (checkBranches definition schemas)
  | .anyOf schemas => .anyOf (checkBranches definition schemas)
  | .oneOf schemas => .oneOf (checkBranches definition schemas)
  | .not text s => .not text (check definition s)
  | .conditional condition consequence alternative =>
    .conditional ⟨condition.isBoolean, check definition condition⟩
      (check definition consequence) (check definition alternative)
  | .ref keyword target => .ref keyword (check definition target)
  | .link keyword place => .ref keyword (definition place)
  | .unevaluatedProperties s => .unevaluatedProperties (check definition s)
  | .unevaluatedItems s => .unevaluatedItems (check definition s)

def checkAll (definition : Nat → Check) : List Schema → List Check
  | [] => []
  | s :: rest => check definition s :: checkAll definition rest

/-- What the schemas of a list ask, and which of them are truth values. -/
def checkBranches (definition : Nat → Check) : List Schema → List Check.Branch
  | [] => []
  | s :: rest => ⟨s.isBoolean, check definition s⟩ :: checkBranches definition rest

def checkNamed (definition : Nat → Check) : List (String × Schema) → Check.Named
  | [] => []
  | (k, s) :: rest => (k, check definition s) :: checkNamed definition rest

/-- What schemas with patterns ask. -/
def checkMatched (definition : Nat → Check) :
    List (String × Pattern × Schema) → Check.Matched
  | [] => []
  | (text, p, s) :: rest => (text, p, check definition s) :: checkMatched definition rest

end

end Schema

/-- A schema with what its links mean, by their place. -/
structure Validator where
  root : Schema
  definitions : Array Schema

namespace Validator

open DocSchema.Schema

/-- What a link asks of a value when at most so many links may be followed. -/
def definition (table : Array Schema) : Nat → Nat → Check
  | 0, _ => fun _ => .ok
  | n + 1, place => fun v =>
    match table[place]? with
    | some s => s.check (definition table n) v
    | none => .ok

mutual

/-- The number of containers that a value has inside each other. -/
def depth : Value → Nat
  | .array xs => depthOfItems xs + 1
  | .object members => depthOfMembers members + 1
  | _ => 0

def depthOfItems : List Value → Nat
  | [] => 0
  | x :: xs => max (depth x) (depthOfItems xs)

def depthOfMembers : List (String × Value) → Nat
  | [] => 0
  | (_, x) :: ms => max (depth x) (depthOfMembers ms)

end

/-- How many links a check of a value may follow inside each other. -/
def limit (va : Validator) (v : Value) : Nat :=
  (va.definitions.size + 1) * (depth v + 2)

def outcome (va : Validator) (v : Value) : Outcome :=
  va.root.check (definition va.definitions (va.limit v)) v

/-- The violations of a value, in the order in which the schema lists its keywords. -/
def violations (va : Validator) (v : Value) : List Violation :=
  (va.outcome v).violations

end Validator

end DocSchema
