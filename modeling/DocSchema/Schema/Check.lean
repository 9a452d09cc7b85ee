/-
  DocSchema/Schema/Check.lean
  ===========================
  **What each keyword asks of a value.**

  A check answers for a value the violations it finds, together with the members and items that
  it marks as evaluated.  There is a check for every keyword; those of keywords that contain
  schemas are made from the checks of these schemas.  What a check marks does not depend on
  violations of the same keyword; it is for the keywords that try several schemas to say whose
  marks count.

  Keywords about what is left over depend on what the keywords beside them have evaluated, so
  such a check only says what kind of leftovers it objects to (`Outcome.remainder`), and the
  conjunction (`Outcome.conjunction`) complains of them once all parts have been heard.
-/
import DocSchema.Json.Compare
import DocSchema.Json.Reader
import DocSchema.Schema.Basic
import DocSchema.Text.Base64

namespace DocSchema.Schema

open DocSchema.Json

/-! ### Outcomes -/

/-- The kinds of leftovers that a keyword can object to. -/
inductive Remainder where
  | properties
  | items
  deriving DecidableEq, Repr

/-- What a check finds. -/
structure Outcome where
  violations : List Violation := []
  /-- The members that have been evaluated. -/
  names : List String := []
  /-- The indexes of the items that have been evaluated. -/
  indexes : List Nat := []
  remainder : Option Remainder := none

namespace Outcome

/-- Nothing found. -/
def ok : Outcome :=
  {}

/-- One violation by the value itself. -/
def fail (schemaPath : List String) (value : Value) (fault : Fault) : Outcome :=
  { violations := [⟨[], schemaPath, value, fault⟩] }

/-- A violation by the value itself unless a condition holds. -/
def require (condition : Bool) (schemaPath : List String) (value : Value) (fault : Fault) :
    Outcome :=
  if condition then ok else fail schemaPath value fault

/-- Whether no violation was found. -/
def isValid (o : Outcome) : Bool :=
  o.violations.isEmpty

/-- The outcome of a schema of the same value, seen from the schema around it. -/
def under (schemaPath : List String) (o : Outcome) : Outcome :=
  { o with violations := o.violations.map (·.within [] schemaPath), remainder := none }

/-- The outcome for a member, seen from the object; a valid member counts as evaluated. -/
def ofMember (name : String) (schemaPath : List String) (o : Outcome) : Outcome :=
  { violations := o.violations.map (·.within [name] schemaPath)
    names := if o.isValid then [name] else [] }

/-- The outcome for a member that counts as evaluated in any case. -/
def ofMatched (name : String) (schemaPath : List String) (o : Outcome) : Outcome :=
  { violations := o.violations.map (·.within [name] schemaPath)
    names := [name] }

/-- The outcome for an item, seen from the array. -/
def ofItem (index : Nat) (schemaPath : List String) (o : Outcome) : Outcome :=
  { violations := o.violations.map (·.within [toString index] schemaPath)
    indexes := [index] }

/-- Several outcomes one after the other. -/
def join (os : List Outcome) : Outcome :=
  { violations := os.flatMap (·.violations)
    names := os.flatMap (·.names)
    indexes := os.flatMap (·.indexes) }

/-- What has been evaluated, without the violations. -/
def marks (o : Outcome) : Outcome :=
  { names := o.names, indexes := o.indexes }

end Outcome

def indexed : Nat → List Value → List (Nat × Value)
  | _, [] => []
  | i, x :: xs => (i, x) :: indexed (i + 1) xs

namespace Remainder

/-- The complaint about what is left over of a value. -/
def violations (r : Remainder) (names : List String) (indexes : List Nat) (v : Value) :
    List Violation :=
  match r, v with
  | .properties, .object members =>
    let left := (members.map (·.1)).filter (!names.contains ·)
    if left.isEmpty then [] else [⟨[], ["unevaluatedProperties"], v, .unevaluatedProperties left⟩]
  | .items, .array xs =>
    let left := ((indexed 0 xs).filter fun e => !indexes.contains e.1).map (·.2)
    if left.isEmpty then [] else [⟨[], ["unevaluatedItems"], v, .unevaluatedItems left⟩]
  | _, _ => []

end Remainder

/-- The outcome of a schema from those of its keywords. -/
def Outcome.conjunction (v : Value) (os : List Outcome) : Outcome :=
  let names := os.flatMap (·.names)
  let indexes := os.flatMap (·.indexes)
  let violations (o : Outcome) : List Violation :=
    o.violations ++ (o.remainder.elim [] fun r => r.violations names indexes v)
  { violations := os.flatMap violations, names, indexes }

/-! ### Keywords without schemas -/

abbrev Check := Value → Outcome

def TypeName.accepts (t : TypeName) (wholeFloats : Bool) (v : Value) : Bool :=
  match t, v with
  | .array, .array _ => true
  | .boolean, .bool _ => true
  | .integer, .number (.int _) => true
  | .integer, .number n => wholeFloats && n.isWhole
  | .null, .null => true
  | .number, .number _ => true
  | .object, .object _ => true
  | .string, .string _ => true
  | _, _ => false

def Bound.accepts (bound : Bound) (limit n : Number) : Bool :=
  match bound with
  | .minimum => (n.compare limit).isGE
  | .maximum => (n.compare limit).isLE
  | .exclusiveMinimum => n.compare limit == .gt
  | .exclusiveMaximum => n.compare limit == .lt

/-- Whether a value keeps a limit on its size; a value that has no such size does. -/
def SizeBound.accepts (bound : SizeBound) (limit : Nat) (v : Value) : Bool :=
  match bound, v with
  | .minLength, .string s => limit ≤ s.length
  | .maxLength, .string s => s.length ≤ limit
  | .minItems, .array xs => limit ≤ xs.length
  | .maxItems, .array xs => xs.length ≤ limit
  | .minProperties, .object members => limit ≤ members.length
  | .maxProperties, .object members => members.length ≤ limit
  | _, _ => true

/-- Whether bytes are text that is of a media type; types other than JSON are not looked at. -/
def isMediaType (mediaType : String) (text : Option String) : Bool :=
  mediaType != "application/json" || text.any fun s => (read s).toOption.isSome

namespace Check

def type (names : List TypeName) (wholeFloats : Bool) : Check := fun v =>
  .require (names.any fun t => t.accepts wholeFloats v) ["type"] v (.wrongType names)

def const (expected : Value) : Check := fun v =>
  .require (expected.isExpected v) ["const"] v (.notExpected expected)

/-- A list of allowed values. -/
def enum (options : List Value) : Check := fun v =>
  .require (options.any (Value.same v)) ["enum"] v (.notListed options)

def bound (b : Bound) (limit : Number) : Check := fun v =>
  match v with
  | .number n => .require (b.accepts limit n) [b.keyword] v (.outOfBound b limit)
  | _ => .ok

def multipleOf (divisor : Number) : Check := fun v =>
  match v with
  | .number n => .require (n.isMultipleOf divisor) ["multipleOf"] v (.notMultiple divisor)
  | _ => .ok

def size (b : SizeBound) (limit : Nat) : Check := fun v =>
  .require (b.accepts limit v) [b.keyword] v (.wrongSize b limit)

/-- Items all different. -/
def uniqueItems : Check := fun v =>
  match v with
  | .array xs => .require (Value.allDistinct xs) ["uniqueItems"] v .notUnique
  | _ => .ok

def pattern (text : String) (p : Pattern) : Check := fun v =>
  match v with
  | .string s =>
    match p.find s with
    | .found => .ok
    | .absent => .fail ["pattern"] v (.noMatch text)
    | .givenUp => .fail ["pattern"] v .unsettledMatch
  | _ => .ok

def format (f : Format) : Check := fun v =>
  match v with
  | .string s => .require (f.accepts s) ["format"] v (.wrongFormat f.name)
  | _ => .ok

def contentEncoding (name : String) : Check := fun v =>
  match v with
  | .string s =>
    .require (Text.base64Bytes? s.toList).isSome ["contentEncoding"] v (.wrongEncoding name)
  | _ => .ok

def contentMediaType (name : String) (encoding : Option String) : Check := fun v =>
  match v, encoding with
  | .string s, none =>
    .require (isMediaType name (some s)) ["contentMediaType"] v (.wrongMediaType name)
  | .string s, some e =>
    match Text.base64Bytes? s.toList with
    | none => .fail ["contentMediaType", "contentEncoding"] v (.wrongEncoding e)
    | some bytes =>
      .require (isMediaType name (String.fromUTF8? ⟨bytes.toArray⟩))
        ["contentMediaType", "contentMediaType"] v (.wrongMediaType name)
  | _, _ => .ok

/-- The violations of an object that lacks members. -/
def missing (keyword : String) (names : List String) (members : Object) : Outcome :=
  .join ((names.filter (!Object.contains members ·)).map fun k =>
    .fail [keyword] (.object members) (.missing k))

def required (names : List String) : Check := fun v =>
  match v with
  | .object members => missing "required" names members
  | _ => .ok

/-- Members that have to be there beside another. -/
def dependentRequired (keyword name : String) (names : List String) : Check := fun v =>
  match v with
  | .object members =>
    if Object.contains members name then missing keyword names members else .ok
  | _ => .ok

/-- No members at all. -/
def noProperties : Check := fun v =>
  match v with
  | .object ((_, x) :: _) => .fail ["additionalProperties"] x .refused
  | _ => .ok

def noPropertyNames : Check := fun v =>
  match v with
  | .object (_ :: _) => .fail ["propertyNames"] v .refused
  | _ => .ok

/-- No items from an index on; all count as evaluated. -/
def noItemsFrom (limit : Nat) : Check := fun v =>
  match v with
  | .array xs =>
    { Outcome.require (xs.length ≤ limit) ["additionalItems"] v (.additionalItems limit) with
      indexes := List.range xs.length }
  | _ => .ok

/-- Nothing at all. -/
def refusal (keyword : String) : Check := fun v =>
  .fail [keyword] v .refused

/-! ### Members -/

/-- Checks of members by name. -/
abbrev Named := List (String × Check)

/-- Checks of members whose names match a pattern. -/
abbrev Matched := List (String × Pattern × Check)

def named? : Named → String → Option Check
  | [], _ => none
  | (k, c) :: rest, name => if k == name then some c else named? rest name

/-- Members by name, in the order of the schema. -/
def properties (named : Named) : Check := fun v =>
  match v with
  | .object members =>
    .join (named.map fun (k, c) =>
      ((Object.get? members k).map fun x => (c x).ofMember k ["properties", k]).getD .ok)
  | _ => .ok

/-- The outcome for a member under every pattern that matches its name. -/
def byPattern (matched : Matched) (name : String) (x : Value) : Option Outcome :=
  let fitting := matched.filter fun (_, p, _) => p.isMatch name
  if fitting.isEmpty then none
  else some (.join (fitting.map fun (text, _, c) =>
    (c x).ofMatched name ["patternProperties", text]))

/-- Members by pattern, in the order of the schema. -/
def patternProperties (matched : Matched) : Check := fun v =>
  match v with
  | .object members =>
    .join (matched.map fun (text, p, c) =>
      .join ((members.filter fun (k, _) => p.isMatch k).map fun (k, x) =>
        (c x).ofMatched k ["patternProperties", text]))
  | _ => .ok

/-- The outcome for a member by its name and by patterns; `none` if neither knows it. -/
def member? (named : Named) (matched : Matched) (name : String) (x : Value) :
    Option Outcome :=
  match named? named name, byPattern matched name x with
  | none, o => o
  | some c, none => some ((c x).ofMember name ["properties", name])
  | some c, some o => some (.join [(c x).ofMember name ["properties", name], o])

/-- The outcome for a member by its name and by patterns, or as one of the others.  A member
that would be valid as one of the others counts as evaluated too. -/
def memberOrOther (named : Named) (matched : Matched) (rest : Check) (name : String)
    (x : Value) : Outcome :=
  match member? named matched name x with
  | none => (rest x).ofMember name ["additionalProperties"]
  | some o => if o.names.isEmpty && (rest x).isValid then { o with names := [name] } else o

/-- Members by name and by pattern, and all others, in the order of the object. -/
def additionalProperties (named : Named) (matched : Matched) (rest : Check) : Check := fun v =>
  match v with
  | .object members => .join (members.map fun (k, x) => memberOrOther named matched rest k x)
  | _ => .ok

/-- Members by name and by pattern, and no others. -/
def closedProperties (named : Named) (matched : Matched) : Check := fun v =>
  match v with
  | .object members =>
    let known := members.map fun (k, x) => (k, member? named matched k x)
    let others := (known.filter fun e => e.2.isNone).map (·.1)
    let complaint : Outcome :=
      if others.isEmpty then .ok
      else .fail ["additionalProperties"] v (.additionalProperties others)
    .join (known.filterMap (·.2) ++ [complaint])
  | _ => .ok

/-- Names of members, each as a string. -/
def propertyNames (c : Check) : Check := fun v =>
  match v with
  | .object members =>
    { violations := members.flatMap fun (k, _) =>
        (c (.string k)).violations.map fun w =>
          ⟨[], "propertyNames" :: w.schemaPath, v, .badName w.value w.fault⟩ }
  | _ => .ok

/-- A schema of the whole object if a member is there; only the newer keyword for that marks
what it has evaluated. -/
def dependentSchema (keyword name : String) (c : Check) : Check := fun v =>
  match v with
  | .object members =>
    let o := (c v).under [keyword, name]
    if !Object.contains members name then .ok
    else if keyword == "dependentSchemas" then o
    else { violations := o.violations }
  | _ => .ok

/-- Members that nothing else has evaluated. -/
def unevaluatedProperties (c : Check) : Check := fun v =>
  match v with
  | .object members =>
    { names := (members.filter fun (_, x) => (c x).isValid).map (·.1)
      remainder := some .properties }
  | _ => .ok

/-! ### Items -/

def itemOutcomes (keyword : String) : Nat → List Check → List Value → List Outcome
  | i, c :: cs, x :: xs =>
    (c x).ofItem i [keyword, toString i] :: itemOutcomes keyword (i + 1) cs xs
  | _, _, _ => []

def itemList (keyword : String) (checks : List Check) : Check := fun v =>
  match v with
  | .array xs => .join (itemOutcomes keyword 0 checks xs)
  | _ => .ok

/-- All items from an index on. -/
def items (keyword : String) (skipped : Nat) (c : Check) : Check := fun v =>
  match v with
  | .array xs =>
    .join ((indexed skipped (xs.drop skipped)).map fun (i, x) => (c x).ofItem i [keyword])
  | _ => .ok

/-- The keyword that so many fitting items break, if any. -/
def containsFault? (least most : Option Nat) (count : Nat) : Option String :=
  match least, most with
  | none, none => if count == 0 then some "contains" else none
  | some n, none => if count < n then some "minContains" else none
  | none, some m => if count == 0 || m < count then some "maxContains" else none
  | some n, some m =>
    if m < count then some "maxContains"
    else if count < n then some "minContains"
    else none

/-- Items that fit. -/
def contains (c : Check) (least most : Option Nat) : Check := fun v =>
  match v with
  | .array xs =>
    let fitting := (indexed 0 xs).filter fun (_, x) => (c x).isValid
    let found : Outcome :=
      match containsFault? least most fitting.length with
      | some keyword => .fail [keyword] v .noneContained
      | none => .ok
    { found with indexes := fitting.map (·.1) }
  | _ => .ok

/-- Items that nothing else has evaluated. -/
def unevaluatedItems (c : Check) : Check := fun v =>
  match v with
  | .array xs =>
    { indexes := ((indexed 0 xs).filter fun (_, x) => (c x).isValid).map (·.1)
      remainder := some .items }
  | _ => .ok

/-! ### Several schemas of one value -/

/-- One of several schemas; one that is a truth value marks nothing and does not count when it
is asked whose marks do. -/
structure Branch where
  isBoolean : Bool
  check : Check

/-- The outcomes of a list of schemas, each under its index, and whether it counts for marks. -/
def branches (keyword : String) (v : Value) : Nat → List Branch → List (Bool × Outcome)
  | _, [] => []
  | i, b :: bs =>
    (!b.isBoolean, (b.check v).under [keyword, toString i]) :: branches keyword v (i + 1) bs

def marking (os : List (Bool × Outcome)) : List Outcome :=
  (os.filter (·.1)).map (·.2)

/-- All of the schemas; their marks count if all are valid. -/
def allOf (bs : List Branch) : Check := fun v =>
  let os := branches "allOf" v 0 bs
  let o := Outcome.join (os.map (·.2))
  if (marking os).all (·.isValid) then o else { violations := o.violations }

/-- At least one of the schemas.  If one is valid, the members marked by any of them count; the
items marked count if all are valid. -/
def anyOf (bs : List Branch) : Check := fun v =>
  let os := branches "anyOf" v 0 bs
  let o := Outcome.join (marking os)
  let found : Outcome :=
    if os.any (·.2.isValid) then .ok else .fail ["anyOf"] v .noneOfAny
  { found with
    names := if (marking os).any (·.isValid) then o.names else []
    indexes := if (marking os).all (·.isValid) then o.indexes else [] }

/-- Exactly one of the schemas.  Then the members that this one marks count, and the items that
any of them marks. -/
def oneOf (bs : List Branch) : Check := fun v =>
  let os := branches "oneOf" v 0 bs
  let found : Outcome :=
    match os.filter (·.2.isValid) with
    | [] => .fail ["oneOf"] v .noneOfOne
    | [_] => .ok
    | _ => .fail ["oneOf"] v .severalOfOne
  match (marking os).filter (·.isValid) with
  | [o] => { found with names := o.names, indexes := (Outcome.join (marking os)).indexes }
  | _ => found

def not (text : Value) (c : Check) : Check := fun v =>
  .require (!(c v).isValid) ["not"] v (.excluded text)

/-- One schema or another, as a condition says; a condition that is a truth value leaves nothing
marked. -/
def conditional (condition : Branch) (consequence alternative : Check) : Check := fun v =>
  let o := condition.check v
  let found : Outcome :=
    if o.isValid then .join [o.marks, (consequence v).under ["then"]]
    else (alternative v).under ["else"]
  if condition.isBoolean then { violations := found.violations } else found

/-- What a reference means. -/
def ref (keyword : String) (target : Check) : Check := fun v =>
  (target v).under [keyword]

end Check

end DocSchema.Schema
