/-
  DocSchema/Schema/Subschema.lean
  ===============================
  **Where a schema holds schemas.**

  Each draft has keywords whose value is a schema, a list of schemas or a map of schemas.  Only
  in these places can a schema have a URI of its own, or a name by which others refer to it.
-/
import DocSchema.Schema.Draft

namespace DocSchema.Draft

open DocSchema.Json

/-! ### Keywords -/

/-- How a keyword holds schemas. -/
inductive Holding where
  | one
  | list
  | map
  /-- One schema or a list of them. -/
  | oneOrList
  /-- A map of schemas and of lists of names. -/
  | mixedMap
  /-- One schema, unless it is a truth value. -/
  | oneObject
  deriving DecidableEq, Repr

/-- The keywords of each draft that hold one schema. -/
def holdsOne (d : Draft) : List String :=
  match d with
  | .draft4 => ["not"]
  | .draft6 => ["additionalItems", "additionalProperties", "contains", "not", "propertyNames"]
  | .draft7 => ["additionalItems", "additionalProperties", "contains", "else", "if", "not",
      "propertyNames", "then"]
  | .draft2019 => ["additionalItems", "additionalProperties", "contains", "contentSchema", "else",
      "if", "not", "propertyNames", "then", "unevaluatedItems", "unevaluatedProperties"]
  | .draft2020 => ["additionalProperties", "contains", "contentSchema", "else", "if", "items",
      "not", "propertyNames", "then", "unevaluatedItems", "unevaluatedProperties"]

/-- The keywords of each draft that hold a list of schemas. -/
def holdsList (d : Draft) : List String :=
  if d = .draft2020 then ["allOf", "anyOf", "oneOf", "prefixItems"] else ["allOf", "anyOf", "oneOf"]

/-- The keywords of each draft that hold a map of schemas. -/
def holdsMap (d : Draft) : List String :=
  if d.le .draft7 then ["definitions", "patternProperties", "properties"]
  else ["$defs", "definitions", "dependentSchemas", "patternProperties", "properties"]

def holding? (d : Draft) (key : String) : Option Holding :=
  if d.holdsOne.contains key then some .one
  else if d.holdsList.contains key then some .list
  else if d.holdsMap.contains key then some .map
  else if key == "items" then some .oneOrList
  else if key == "dependencies" && d.le .draft7 then some .mixedMap
  else if d = .draft4 && ["additionalItems", "additionalProperties"].contains key then
    some .oneObject
  else none

/-! ### Schemas inside -/

def memberValues (v : Value) : List Value :=
  (v.asObject?.getD []).map (·.2)

def Holding.schemas (h : Holding) (v : Value) : List Value :=
  match h with
  | .one => [v]
  | .list => v.asArray?.getD []
  | .map => memberValues v
  | .oneOrList => v.asArray?.getD [v]
  | .mixedMap => (memberValues v).filter (·.asObject?.isSome)
  | .oneObject => if v.asObject?.isSome then [v] else []

/-- The schemas right inside a schema, in its order. -/
def subschemas (d : Draft) (v : Value) : List Value :=
  (v.asObject?.getD []).flatMap fun (k, x) => ((d.holding? k).map (·.schemas x)).getD []

/-- A step from a value to a part of it. -/
inductive Step where
  | member (key : String)
  | item (index : Nat)
  deriving DecidableEq, Repr

def leadsToSchema (d : Draft) : List Step → Bool
  | [] => true
  | .item _ :: rest => leadsToSchema d rest
  | .member key :: rest =>
    match d.holding? key, rest with
    | some .one, rest => leadsToSchema d rest
    | some .oneObject, rest => leadsToSchema d rest
    | some .list, _ :: rest => leadsToSchema d rest
    | some .map, _ :: rest => leadsToSchema d rest
    | some .oneOrList, _ => true
    | some .mixedMap, _ => true
    | _, _ => false

/-! ### Own URIs -/

/-- The URI that a schema gives to itself, without number signs at its end.  In drafts where a
reference hides the keywords beside it, it hides the URI too, and a fragment is a name rather
than a URI. -/
def ownUri? (d : Draft) (v : Value) : Option String := do
  let members ← v.asObject?
  let uri ← (Object.get? members d.idKey).bind Value.asString?
  if d.refHidesSiblings && (Object.contains members "$ref" || uri.toList.head? == some '#') then
    none
  else some (trimFragment uri)

/-- A name by which a schema can be referred to. -/
structure Name where
  text : String
  /-- Whether a schema of that name further out takes precedence. -/
  isDynamic : Bool
  deriving DecidableEq, Repr

/-- The names that a schema gives to itself. -/
def ownNames (d : Draft) (v : Value) : List Name :=
  let text? (key : String) : Option String := (v.get? key).bind Value.asString?
  let plain (key : String) : List Name := (text? key).toList.map fun name => ⟨name, false⟩
  match d with
  | .draft2020 =>
    plain "$anchor" ++ (text? "$dynamicAnchor").toList.map fun name => ⟨name, true⟩
  | .draft2019 => plain "$anchor"
  | d =>
    match (text? d.idKey).map String.toList with
    | some ('#' :: name) => [⟨String.ofList name, false⟩]
    | _ => []

end DocSchema.Draft
