/-
  DocSchema/Schema/Reader.lean
  ============================
  **Reading a schema from its JSON form.**

  The keywords of an object are read in its order, and the first obstacle ends the reading.
  What a draft does not know asks for nothing.

  A reference is read by reading what it means.  Where that was read before, or is the document
  around, there is only a link; what links mean is read later, each meaning once.  So reading
  ends although schemas may refer to themselves.  A reference to a schema that consists of the
  same reference, among other things, asks for nothing.
-/
import DocSchema.Json.Compare
import DocSchema.Schema.Basic
import DocSchema.Schema.Registry

namespace DocSchema

open DocSchema.Json DocSchema.Schema

/-- Why a document is no schema. -/
inductive SchemaError where
  | lookup (e : LookupError)
  | refused (value : Value) (fault : Fault)

/-- The wording of a refusal. -/
def SchemaError.message : SchemaError → String
  | .lookup e => e.message
  | .refused v fault => fault.message v

namespace Schema

/-- A schema that is to be read later; the reference and the scope determine the value. -/
structure Link where
  reference : String
  scope : Scope
  value : Value

/-- How far reading has come: the references that were followed, and the links met. -/
structure Progress where
  followed : List Uri := []
  links : Array Link := #[]

/-- A reading, which may meet an obstacle. -/
abbrev Reading := StateT Progress (Except SchemaError)

namespace Reading

/-- The answer of a look-up. -/
def ofLookup {α : Type} (x : Except LookupError α) : Reading α :=
  match x with
  | .ok a => pure a
  | .error e => throw (.lookup e)

def refuse {α : Type} (v : Value) (types : List TypeName) : Reading α :=
  throw (.refused v (.wrongType types))

def itemsOf (v : Value) : Reading (List Value) :=
  match v with
  | .array xs => pure xs
  | v => refuse v [.array]

def membersOf (v : Value) : Reading Object :=
  match v with
  | .object members => pure members
  | v => refuse v [.object]

def textOf (v : Value) : Reading String :=
  match v with
  | .string s => pure s
  | v => refuse v [.string]

def numberOf (v : Value) : Reading Number :=
  match v with
  | .number n => pure n
  | v => refuse v [.number]

/-- A size; from draft 6 on it may be written as a floating-point number. -/
def sizeOf (draft : Draft) (v : Value) : Reading Nat :=
  match v with
  | .number (.int n) =>
    if 0 ≤ n then pure n.toNat else throw (.refused v (.outOfBound .minimum (.int 0)))
  | .number (.float bits) =>
    match Binary64.ofBits? bits with
    | some x => if x.isWhole && draft ≠ .draft4 then pure x.truncate.toNat else refuse v [.integer]
    | none => refuse v [.integer]
  | v => refuse v [.integer]

/-- The answer of a reading, or another one if it meets an obstacle. -/
def orElse {α : Type} (x : Reading α) (other : α) : Reading α := fun p =>
  match x p with
  | .ok r => .ok r
  | .error _ => .ok (other, p)

def link (keyword : String) (l : Link) : Reading Schema := fun p =>
  match p.links.findIdx? fun m => m.reference == l.reference && m.scope == l.scope with
  | some i => .ok (.link keyword i, p)
  | none => .ok (.link keyword p.links.size, { p with links := p.links.push l })

end Reading

open Reading

/-! ### Keywords -/

/-- What the reading of a keyword needs. -/
structure Place where
  registry : Registry
  scope : Scope
  /-- The keywords beside each other. -/
  keywords : Object
  /-- Reads a schema, given the scope inside it. -/
  read : Scope → Value → Reading Schema

namespace Place

def draft (p : Place) : Draft :=
  p.scope.draft

def get? (p : Place) (key : String) : Option Value :=
  Object.get? p.keywords key

def has (p : Place) (key : String) : Bool :=
  (p.get? key).isSome

def isTrue (p : Place) (key : String) : Bool :=
  p.get? key == some (.bool true)

/-- Reads a schema inside; it may name a draft of its own. -/
def inner (p : Place) (v : Value) : Reading Schema := do
  let draft := (p.draft.detect v).toOption.getD .draft2020
  p.read (← ofLookup (({ p.scope with draft }).enter v)) v

def innerList (p : Place) (v : Value) : Reading (List Schema) := do
  (← itemsOf v).mapM p.inner

def innerNamed (p : Place) (v : Option Value) : Reading (List (String × Schema)) := do
  (← membersOf (v.getD (.object []))).mapM fun (k, x) => return (k, ← p.inner x)

/-- Reads schemas by pattern; a text that is no pattern is refused together with its schema. -/
def innerMatched (p : Place) (v : Option Value) : Reading (List (String × Pattern × Schema)) := do
  (← membersOf (v.getD (.object []))).mapM fun (k, x) =>
    match Pattern.read? k with
    | some q => return (k, q, ← p.inner x)
    | none => throw (.refused x (.wrongFormat "regex"))

/-! ### Keywords without schemas -/

def typeOf (v : Value) (unknown : Fault) : Reading TypeName := do
  match TypeName.ofText? (← textOf v) with
  | some t => return t
  | none => throw (.refused v unknown)

/-- The types that a keyword names, in the order in which they are told. -/
def typesOf (v : Value) : Reading (List TypeName) := do
  let given ←
    match v with
    | .string _ => List.singleton <$> typeOf v .unexpectedType
    | .array [x] => List.singleton <$> typeOf x .unexpectedType
    | .array xs =>
      xs.mapM fun x => typeOf x (.notListed (TypeName.all.map fun t => .string t.text))
    | v => refuse v [.array, .string]
  return TypeName.all.filter (given.contains ·)

/-- A limit on numbers, which in draft 4 may be made exclusive by a keyword beside it. -/
def boundOf (p : Place) (bound exclusive : Bound) (v : Value) : Reading Schema := do
  let b := if p.draft = .draft4 && p.isTrue exclusive.keyword then exclusive else bound
  return .bound b (← numberOf v)

def patternOf (v : Value) : Reading Schema := do
  let text ← textOf v
  match Pattern.read? text with
  | some p => return .pattern text p
  | none => throw (.refused v (.wrongFormat "regex"))

def formatOf (p : Place) (v : Value) : Reading (List Schema) := do
  let name ← textOf v
  return ((Format.ofName? p.draft name).map .format).toList

/-- The keyword for media types; only JSON is known, and base 64 among the encodings. -/
def mediaTypeOf (p : Place) (v : Value) : Reading (List Schema) := do
  let name ← textOf v
  if name != "application/json" then return []
  match p.get? "contentEncoding" with
  | none => return [.contentMediaType name none]
  | some e =>
    let encoding ← textOf e
    return if encoding == "base64" then [.contentMediaType name (some encoding)] else []

/-- The keyword for encodings; a media type beside it takes it over. -/
def encodingOf (p : Place) (v : Value) : Reading (List Schema) := do
  if p.has "contentMediaType" then return []
  let name ← textOf v
  return if name == "base64" then [.contentEncoding name] else []

def namesOf (v : Value) : Reading (List String) := do
  (← itemsOf v).mapM textOf

/-! ### Members -/

/-- Whether the keyword for other members takes over those by name and by pattern. -/
def closesObject (p : Place) : Bool :=
  match p.get? "additionalProperties" with
  | some (.bool false) => true
  | some (.object _) => true
  | _ => false

/-- The keyword for other members.  If all are admitted, nothing is asked of them, but they
count as evaluated. -/
def othersOf (p : Place) (v : Value) : Reading Schema := do
  if v == .bool true then return .additionalProperties [] [] .always
  let matched ← p.innerMatched (p.get? "patternProperties")
  let named ← p.innerNamed (p.get? "properties")
  if v != .bool false then return .additionalProperties named matched (← p.inner v)
  return if p.has "properties" || p.has "patternProperties" then .closedProperties named matched
    else .noProperties

def memberNamesOf (p : Place) (v : Value) : Reading (List Schema) := do
  match v with
  | .object _ => return [.propertyNames (← p.inner v)]
  | .bool false => return [.noPropertyNames]
  | _ => return []

/-- Members that ask for others, or for a schema. -/
def dependenciesOf (p : Place) (keyword : String) (v : Value) : Reading (List Schema) := do
  (← membersOf v).mapM fun (k, x) => do
    if x.asArray?.isSome && keyword != "dependentSchemas" then
      return .dependentRequired keyword k (← namesOf x)
    else return .dependentSchema keyword k (← p.inner x)

/-- Members that ask for others. -/
def requirementsOf (v : Value) : Reading (List Schema) := do
  (← membersOf v).mapM fun (k, x) => do
    if !Value.allDistinct (← itemsOf x) then throw (.refused x .notUnique)
    return .dependentRequired "dependentRequired" k (← namesOf x)

/-! ### Items -/

/-- The number of items that a keyword describes one by one. -/
def listed (p : Place) (key : String) : Option Nat :=
  ((p.get? key).bind Value.asArray?).map List.length

def itemsOf (p : Place) (v : Value) : Reading Schema := do
  if p.draft = .draft2020 then
    return .items "items" ((p.listed "prefixItems").getD 0) (← p.inner v)
  match v with
  | .array _ => return .itemList "items" (← p.innerList v)
  | v => return .items "items" 0 (← p.inner v)

/-- The keyword for the items after those described one by one.  Where no item is admitted,
this keyword refuses every value. -/
def otherItemsOf (p : Place) (v : Value) : Reading (List Schema) := do
  match p.get? "items" with
  | some (.array xs) =>
    match v with
    | .object _ => return [.items "additionalItems" xs.length (← p.inner v)]
    | .bool false => return [.noItemsFrom xs.length]
    | _ => return [.items "additionalItems" xs.length .always]
  | some (.bool false) => return [.refusal "additionalItems"]
  | _ => return []

/-- The keyword for items that fit. -/
def containsOf (p : Place) (v : Value) : Reading Schema := do
  let s ← p.inner v
  if p.draft.le .draft7 then return .contains s none none
  let least ← (p.get? "minContains").mapM (Reading.sizeOf p.draft)
  let most ← (p.get? "maxContains").mapM (Reading.sizeOf p.draft)
  return .contains s least most

/-! ### Several schemas -/

/-- The keyword for conditions.  Without a consequence it asks for nothing, but the condition
says what has been evaluated. -/
def conditionOf (p : Place) (v : Value) : Reading Schema := do
  let branch (key : String) : Reading Schema :=
    ((p.get? key).map p.inner).getD (pure .always)
  if p.has "then" || p.has "else" then
    return .conditional (← p.inner v) (← branch "then") (← branch "else")
  else return .conditional (← (p.inner v).orElse .always) .always .always

/-! ### References -/

/-- The scope inside what a link means: the draft is that of the place of the link. -/
def linkScope (p : Place) (scope : Scope) (v : Value) : Except LookupError Scope :=
  ({ scope with draft := p.draft, vocabularies := p.scope.vocabularies }).enter v

/-- A link to what a reference means, unless the same reference stands there. -/
def linkTo (p : Place) (keyword reference : String) (target : Uri) (found : Scope × Value) :
    Reading (List Schema) := do
  let (scope, v) := found
  if v.get? keyword == some (.string reference) then return []
  let inner ← ofLookup (p.linkScope scope v)
  return [← Reading.link keyword ⟨target.text, inner, v⟩]

def refOf (p : Place) (keyword : String) (v : Value) : Reading (List Schema) := do
  let reference ← textOf v
  if reference == "#" then
    let found ← ofLookup
      (if p.isTrue "$recursiveAnchor" then p.registry.lookupRecursive p.scope
        else p.registry.lookup p.scope reference)
    p.linkTo keyword reference p.scope.base found
  else
    let target ← ofLookup (resolveAt p.scope.base reference)
    let found ← ofLookup (p.registry.lookup p.scope reference)
    if (← get).followed.contains target then p.linkTo keyword reference target found
    else
      modify fun s => { s with followed := target :: s.followed }
      let (scope, s) := found
      let vocabularies := (scope.draft.detect s).toOption.getD scope.draft
      return [.ref keyword (← p.read { scope with vocabularies } s)]

/-- A reference to the document around, or to one that was entered before it. -/
def recursiveRefOf (p : Place) (v : Value) : Reading (List Schema) := do
  let _ ← textOf v
  let (scope, found) ← ofLookup (p.registry.lookupRecursive p.scope)
  let inner ← ofLookup (p.linkScope scope found)
  return [← Reading.link "$recursiveRef" ⟨scope.base.text, inner, found⟩]

/-! ### All keywords -/

/-- One schema, as what a keyword asks for. -/
def only (s : Reading Schema) : Reading (List Schema) :=
  List.singleton <$> s

/-- Whether the vocabulary of a keyword is in force.  Only the later drafts have vocabularies,
and only that of 2020 has one of its own for what is left over; references are in every one. -/
def isInForce (p : Place) (key : String) : Bool :=
  let least : Draft :=
    if p.draft = .draft2020 && key.startsWith "unevaluated" then .draft2020 else .draft2019
  p.draft.le .draft7 || key.startsWith "$" || least.le p.scope.vocabularies

/-- What a keyword asks for, if its vocabulary is in force. -/
def keyword (p : Place) (key : String) (v : Value) : Reading (List Schema) :=
  if !p.isInForce key then pure [] else
  let since (first : Draft) (s : Reading (List Schema)) : Reading (List Schema) :=
    if first.le p.draft then s else pure []
  let inDrafts (drafts : List Draft) (s : Reading (List Schema)) : Reading (List Schema) :=
    if drafts.contains p.draft then s else pure []
  let size (b : SizeBound) : Reading (List Schema) :=
    only (.size b <$> Reading.sizeOf p.draft v)
  match key with
  | "type" => only (return .type (← typesOf v) (p.draft ≠ .draft4))
  | "const" => since .draft6 (pure [.const v])
  | "enum" => only (.enum <$> Reading.itemsOf v)
  | "minimum" => only (p.boundOf .minimum .exclusiveMinimum v)
  | "maximum" => only (p.boundOf .maximum .exclusiveMaximum v)
  | "exclusiveMinimum" => since .draft6 (only (.bound .exclusiveMinimum <$> numberOf v))
  | "exclusiveMaximum" => since .draft6 (only (.bound .exclusiveMaximum <$> numberOf v))
  | "multipleOf" => only (.multipleOf <$> numberOf v)
  | "minLength" => size .minLength
  | "maxLength" => size .maxLength
  | "minItems" => size .minItems
  | "maxItems" => size .maxItems
  | "minProperties" => size .minProperties
  | "maxProperties" => size .maxProperties
  | "uniqueItems" =>
    match v with
    | .bool b => pure (if b then [.uniqueItems] else [])
    | v => refuse v [.boolean]
  | "pattern" => only (patternOf v)
  | "format" => if p.draft.checksFormats then p.formatOf v else pure []
  | "contentEncoding" => inDrafts [.draft6, .draft7] (p.encodingOf v)
  | "contentMediaType" => inDrafts [.draft6, .draft7] (p.mediaTypeOf v)
  | "required" => only (.required <$> namesOf v)
  | "properties" =>
    if p.closesObject then pure [] else only (.properties <$> p.innerNamed (some v))
  | "patternProperties" =>
    if p.closesObject then pure [] else only (.patternProperties <$> p.innerMatched (some v))
  | "additionalProperties" => only (p.othersOf v)
  | "propertyNames" => since .draft6 (p.memberNamesOf v)
  | "dependencies" => p.dependenciesOf "dependencies" v
  | "dependentRequired" => since .draft2019 (requirementsOf v)
  | "dependentSchemas" => since .draft2019 (p.dependenciesOf "dependentSchemas" v)
  | "prefixItems" => since .draft2020 (only (.itemList "prefixItems" <$> p.innerList v))
  | "items" => only (p.itemsOf v)
  | "additionalItems" => p.otherItemsOf v
  | "contains" => since .draft6 (only (p.containsOf v))
  | "allOf" => only (.allOf <$> p.innerList v)
  | "anyOf" => only (.anyOf <$> p.innerList v)
  | "oneOf" => only (.oneOf <$> p.innerList v)
  | "not" => only (.not v <$> p.inner v)
  | "if" => since .draft7 (only (p.conditionOf v))
  | "$ref" => p.refOf "$ref" v
  | "$dynamicRef" => inDrafts [.draft2020] (p.refOf "$dynamicRef" v)
  | "$recursiveRef" => inDrafts [.draft2019] (p.recursiveRefOf v)
  | "unevaluatedProperties" => since .draft2019 (only (.unevaluatedProperties <$> p.inner v))
  | "unevaluatedItems" => since .draft2019 (only (.unevaluatedItems <$> p.inner v))
  | _ => pure []

end Place

/-! ### Schemas -/

def countingKeywords (draft : Draft) (members : Object) : Object :=
  if draft.refHidesSiblings && Object.contains members "$ref" then
    members.filter fun e => e.1 == "$ref"
  else members

/-- Reads a schema, up to a depth of schemas inside each other and of references followed;
`scope` is that inside the schema. -/
def readSchema (r : Registry) : Nat → Scope → Value → Reading Schema
  | 0, _, _ => pure .always
  | n + 1, scope, v =>
    match v with
    | .bool true => pure .always
    | .bool false => pure .never
    | .object members => do
      let place : Place := ⟨r, scope, members, fun inner x => readSchema r n inner x⟩
      let parts ← (countingKeywords scope.draft members).mapM fun (k, x) => place.keyword k x
      return .all parts.flatten
    | v => refuse v [.boolean, .object]

end Schema

end DocSchema
