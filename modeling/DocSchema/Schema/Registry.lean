/-
  DocSchema/Schema/Registry.lean
  ==============================
  **The schemas that references can name.**

  A registry holds schemas by their URIs, and by the names that they have inside the documents
  of these URIs.  `gather` finds the schemas of a document that have a URI or a name.  A document
  that it refers to and that is not known is retrieved.  What is to be had so is a `Retrieval`, a
  parameter of all that validates; a document that is not to be had is an obstacle.

  References are read in a `Scope`: the URI that they are relative to, and what the documents
  that were entered before say about dynamic names.  A dynamic name means the schema of that
  name in the outermost of these documents.
-/
import DocSchema.Schema.Subschema
import DocSchema.Uri

namespace DocSchema

open DocSchema.Json

namespace Schema

/-! ### Obstacles -/

/-- Why a document is not there. -/
inductive Absence where
  | unknownScheme (scheme : String)
  | noConnection (url : String)
  | noFile
  /-- Any other failure, as it is told. -/
  | failed (reason : String)
  /-- All documents had been gathered before. -/
  | notGathered
  deriving DecidableEq, Repr

def Absence.message : Absence → String
  | .unknownScheme scheme => s!"Unknown scheme {scheme}"
  | .noConnection url => s!"error sending request for url ({url})"
  | .noFile => "No such file or directory (os error 2)"
  | .failed reason => reason
  | .notGathered =>
    "Retrieving external resources is not supported once the registry is populated"

/-- Why a reference leads nowhere. -/
inductive LookupError where
  | flawed (reference : String) (flaw : Uri.Flaw)
  | unresolvable (reference base : String)
  | unknownDraft (uri : String)
  | noDocument (uri : String) (absence : Absence)
  | noPointer (pointer : String)
  | badIndex (pointer index : String)
  | badEscapes (pointer : String)
  | noAnchor (name : String)
  | badAnchor (name : String)
  deriving DecidableEq, Repr

/-- The wording of an obstacle. -/
def LookupError.message : LookupError → String
  | .flawed reference flaw => s!"Invalid URI reference '{reference}': {flaw.message}"
  | .unresolvable reference base =>
    s!"Failed to resolve '{reference}' against '{base}': relative reference must be empty or " ++
      "start with '#' when resolved against authority-less base URI/IRI with rootless path"
  | .unknownDraft uri => s!"Unknown specification: {uri}"
  | .noDocument uri absence =>
    s!"Resource '{uri}' is not present in a registry and retrieving it failed: " ++
      absence.message
  | .noPointer pointer => s!"Pointer '{pointer}' does not exist"
  | .badIndex pointer index => s!"Failed to parse array index '{index}' in pointer '{pointer}'"
  | .badEscapes pointer =>
    s!"Invalid percent encoding in pointer '{pointer}': the decoded bytes do not represent " ++
      "valid UTF-8"
  | .noAnchor name => s!"Anchor '{name}' does not exist"
  | .badAnchor name => s!"Anchor '{name}' is invalid"

/-- Why a document is not there for a host that has nothing from elsewhere. -/
def absenceOf (uri : Uri) : Absence :=
  let scheme := uri.scheme.elim "" String.ofList
  if scheme == "http" || scheme == "https" then
    .noConnection ({ uri with path := if uri.path.isEmpty then ['/'] else uri.path : Uri }).text
  else if scheme == "file" then .noFile
  else .unknownScheme scheme

end Schema

open Schema

/-! ### Retrieval -/

/-- What is to be had from elsewhere: documents, by the URIs that they are asked for at, and why any
other is not there.  It stays the same as long as the program runs. -/
class Retrieval where
  documents : List (Uri × Value)
  absence : Uri → Absence

/-- Nothing is to be had, as where there is no network and no such file. -/
instance Retrieval.offline : Retrieval := ⟨[], absenceOf⟩

namespace Schema

/-! ### Resolution -/

/-- The URI of a document that names none. -/
def defaultUri : Uri :=
  ⟨some "json-schema".toList, some [], ['/'], none, none⟩

def resolveAt (base : Uri) (reference : String) : Except LookupError Uri :=
  let cs := reference.toList
  if cs.head? == some '#' && cs.isSuffixOf base.chars then .ok base
  else
    match Uri.flaw? cs, base.resolve? (Uri.ofChars cs) with
    | some flaw, _ => .error (.flawed reference flaw)
    | none, none => .error (.unresolvable reference base.text)
    | none, some uri => .ok uri.normalize

/-- The URI of a document that gives itself this one. -/
def documentUri (own : String) : Except LookupError Uri :=
  resolveAt defaultUri own

/-! ### Registries -/

/-- A schema, with the draft that it follows. -/
structure Resource where
  draft : Draft
  value : Value

def Resource.baseInside (s : Resource) (base : Uri) : Except LookupError Uri :=
  match s.draft.ownUri? s.value with
  | some own => resolveAt base own
  | none => .ok base

/-- A schema that has a name in a document. -/
structure Anchor where
  base : Uri
  name : Draft.Name
  resource : Resource

/-- Schemas by URI and by name; of two with one URI or name, the first counts. -/
structure Registry where
  resources : List (Uri × Resource) := []
  anchors : List Anchor := []

namespace Registry

def find? (r : Registry) (uri : Uri) : Option Resource :=
  (r.resources.find? (·.1 == uri)).map (·.2)

def anchor? (r : Registry) (uri : Uri) (name : String) : Option Anchor :=
  r.anchors.find? fun a => a.name.text == name && a.base == uri

/-- Two registries, of which the first takes precedence. -/
def append (r s : Registry) : Registry :=
  ⟨r.resources ++ s.resources, r.anchors ++ s.anchors⟩

end Registry

/-! ### Gathering -/

/-- The places where the drafts are published; what is there need not be asked for. -/
def publishedPlaces : List String :=
  ["https://json-schema.org/draft/2020-12/", "https://json-schema.org/draft/2019-09/",
    "http://json-schema.org/draft-07/", "http://json-schema.org/draft-06/",
    "http://json-schema.org/draft-04/"]

/-- Whether a reference needs no other document than the one it stands in, or a published one. -/
def isAtHand (reference : String) : Bool :=
  reference.startsWith "#" || publishedPlaces.any fun place => reference.startsWith place

def neededDocument (base : Uri) (v : Value) : Except LookupError (List Uri) :=
  match (v.get? "$ref").bind Value.asString? with
  | some reference =>
    if isAtHand reference || base.scheme == some "urn".toList then .ok []
    else (resolveAt base reference).map fun uri => [uri.withoutFragment]
  | none => .ok []

/-- What has been gathered: the schemas found, and the documents they need. -/
structure Gathered where
  registry : Registry := {}
  needed : List Uri := []

/-- The schemas right inside a schema, each with its draft. -/
def Resource.inside (s : Resource) : Except LookupError (List Resource) :=
  (s.draft.subschemas s.value).mapM fun v =>
    match s.draft.detect v with
    | .ok draft => .ok ⟨draft, v⟩
    | .error uri => .error (.unknownDraft uri)

/-- Gathers the schemas of a queue and those inside them, up to a number of schemas.  There are not
more of them than values in the queue (`gather_eq_of_weight_le`). -/
def gather : Nat → List (Uri × Resource) → Gathered → Except LookupError Gathered
  | 0, _, g => .ok g
  | _, [], g => .ok g
  | n + 1, (base, s) :: queue, g => do
    let inner ← s.baseInside base
    let own ← neededDocument inner s.value
    let parts ← s.inside
    let needed ← parts.mapM fun part => do neededDocument (← part.baseInside inner) part.value
    let anchors := (s.draft.ownNames s.value).map fun name => ⟨inner, name, s⟩
    let resources := if (s.draft.ownUri? s.value).isSome then [(inner, s)] else []
    gather n (queue ++ parts.map fun part => (inner, part))
      ⟨⟨resources ++ g.registry.resources, anchors.reverse ++ g.registry.anchors⟩,
        g.needed ++ own ++ needed.flatten⟩

mutual

/-- The number of values in a value, itself included. -/
def valueCount : Value → Nat
  | .array xs => valueCountOfItems xs + 1
  | .object members => valueCountOfMembers members + 1
  | _ => 1

/-- The number of values in a list. -/
def valueCountOfItems : List Value → Nat
  | [] => 0
  | x :: xs => valueCount x + valueCountOfItems xs

/-- The number of values in members. -/
def valueCountOfMembers : List (String × Value) → Nat
  | [] => 0
  | (_, x) :: ms => valueCount x + valueCountOfMembers ms

end

/-- Gathers one more document. -/
def Gathered.add (g : Gathered) (uri : Uri) (s : Resource) : Except LookupError Gathered :=
  gather (valueCount s.value) [(uri, s)]
    { g with registry := ⟨(uri, s) :: g.registry.resources, g.registry.anchors⟩ }

/-- The first needed document that is neither gathered nor known. -/
def Gathered.missing? (g : Gathered) (known : Registry) : Option Uri :=
  g.needed.find? fun uri => ((g.registry.append known).find? uri).isNone

/-- What is to be had besides the document with a URI. -/
def besides (uri : Uri) (documents : List (Uri × Value)) : List (Uri × Value) :=
  documents.filter (·.1 != uri)

theorem length_besides_lt {documents : List (Uri × Value)} {uri : Uri} {e : Uri × Value}
    (h : documents.find? (·.1 == uri) = some e) :
    (besides uri documents).length < documents.length := by
  have hfound := List.find?_some h
  refine List.length_filter_lt_length_iff_exists.mpr ⟨e, List.mem_of_find?_eq_some h, ?_⟩
  simpa using hfound

/-- Retrieves what is missing, and what is missing in that in turn, from documents of which each is
asked for once. -/
def Gathered.complete [Retrieval] (g : Gathered) (known : Registry) (draft : Draft)
    (documents : List (Uri × Value)) : Except LookupError Gathered :=
  match g.missing? known with
  | none => .ok g
  | some uri =>
    match _h : documents.find? (·.1 == uri) with
    | none => .error (.noDocument uri.text (Retrieval.absence uri))
    | some (_, v) => do
      let draft' ← (draft.detect v).mapError .unknownDraft
      let g' ← g.add uri ⟨draft', v⟩
      g'.complete known draft (besides uri documents)
termination_by documents.length
decreasing_by exact length_besides_lt _h

/-- The registry of a schema document, where other schemas are known. -/
def Registry.ofDocument [Retrieval] (known : Registry) (uri : Uri) (s : Resource) :
    Except LookupError Registry := do
  let g ← Gathered.add {} uri s
  let g ← g.complete known s.draft Retrieval.documents
  return g.registry.append known

/-! ### Scopes -/

/-- The surroundings of a schema. -/
structure Scope where
  draft : Draft
  /-- The draft whose vocabularies are in force: that of the document, not of a part of it. -/
  vocabularies : Draft
  /-- The URI that references are resolved at. -/
  base : Uri
  /-- Whether a reference has been followed. -/
  hasMoved : Bool := false
  /-- The outermost document with a dynamic name, for each such name. -/
  dynamic : List (String × Uri) := []
  /-- The outermost document that recursive references lead to, if all since it allow that. -/
  recursive : Option Uri := none
  deriving DecidableEq, Repr

def Scope.enter (scope : Scope) (v : Value) : Except LookupError Scope := do
  return { scope with base := ← Resource.baseInside ⟨scope.draft, v⟩ scope.base }

namespace Registry

/-- Whether recursive references may lead out of a document. -/
def isRecursive (r : Registry) (uri : Uri) : Bool :=
  (r.find? uri).any fun s => s.value.get? "$recursiveAnchor" == some (.bool true)

def dynamicNames (r : Registry) (uri : Uri) : List String :=
  ((r.anchors.filter fun a => a.base == uri).map (·.name.text)).filter fun name =>
    (r.anchor? uri name).any (·.name.isDynamic)

/-- The scope in another document that is entered from this one. -/
def moveTo (r : Registry) (scope : Scope) (uri : Uri) : Scope :=
  if scope.hasMoved && uri == scope.base then scope
  else
    let isNew (name : String) : Bool := !scope.dynamic.any (·.1 == name)
    { scope with
      base := uri
      hasMoved := true
      dynamic := scope.dynamic ++
        ((r.dynamicNames scope.base).filter isNew).map fun name => (name, scope.base)
      recursive :=
        if r.isRecursive scope.base then scope.recursive.or (some scope.base) else none }

/-! ### Look-up -/

/-- The index that a segment of a pointer writes; a plus sign may stand in front. -/
def index? (segment : List Char) : Option Nat :=
  let digits := if segment.head? == some '+' then segment.drop 1 else segment
  let n := digits.foldl (fun n c => n * 10 + Text.digitValue c) 0
  if !digits.isEmpty && digits.all Text.isDigit && n < twoTo 64 then some n else none

/-- The key that a segment of a pointer writes. -/
def unescape : List Char → List Char
  | '~' :: '0' :: cs => '~' :: unescape cs
  | '~' :: '1' :: cs => '/' :: unescape cs
  | '~' :: c :: cs => '~' :: c :: unescape cs
  | c :: cs => c :: unescape cs
  | [] => []

/-- Follows the segments of a pointer; `taken` are the steps since the scope last changed,
latest first. -/
def follow (pointer : String) (draft : Draft) :
    List (List Char) → List Draft.Step → Scope → Value → Except LookupError (Scope × Value)
  | [], _, scope, v => .ok (scope, v)
  | segment :: rest, taken, scope, v => do
    let (step, next) ←
      match v with
      | .array xs =>
        match index? segment with
        | none => throw (.badIndex pointer (String.ofList segment))
        | some i => pure (Draft.Step.item i, xs[i]?)
      | v =>
        let key := String.ofList (unescape segment)
        pure (.member key, v.get? key)
    match next with
    | none => throw (.noPointer pointer)
    | some x =>
      let taken := step :: taken
      let inner ← if draft.leadsToSchema taken.reverse then scope.enter x else pure scope
      follow pointer draft rest (if inner.base == scope.base then taken else []) inner x

/-- The schema that a pointer leads to from a document. -/
def atPointer (draft : Draft) (pointer : List Char) (scope : Scope) (v : Value) :
    Except LookupError (Scope × Value) :=
  match Uri.percentDecode? (pointer.drop 1) with
  | none => .error (.badEscapes (String.ofList pointer))
  | some path =>
    follow (String.ofList pointer) draft (Text.splitAt '/' path.toList) [] scope v

/-- The schema that a name means; a dynamic name means the outermost schema of that name. -/
def atName (r : Registry) (scope : Scope) (name : String) : Except LookupError (Scope × Value) :=
  match r.anchor? scope.base name with
  | none => .error (if name.toList.contains '/' then .badAnchor name else .noAnchor name)
  | some anchor =>
    if anchor.name.isDynamic then do
      let outermost := ((scope.dynamic.find? (·.1 == name)).bind fun (_, uri) =>
        r.anchor? uri name).getD anchor
      let found := outermost.resource
      return (← ({ scope with draft := found.draft }).enter found.value, found.value)
    else .ok ({ scope with draft := anchor.resource.draft }, anchor.resource.value)

/-- Splits a reference at its last number sign. -/
def splitReference (reference : String) : List Char × List Char :=
  let cs := reference.toList
  let fragment := cs.reverse.takeWhile (· != '#')
  if fragment.length == cs.length then (cs, [])
  else (cs.take (cs.length - fragment.length - 1), fragment.reverse)

/-- The schema that a reference means, with the scope around it. -/
def lookup (r : Registry) (scope : Scope) (reference : String) :
    Except LookupError (Scope × Value) := do
  let (uri, fragment) ←
    match reference.toList with
    | '#' :: fragment => pure (scope.base, fragment)
    | _ =>
      let (document, fragment) := splitReference reference
      pure (← resolveAt scope.base (String.ofList document), fragment)
  match r.find? uri with
  | none => throw (.noDocument uri.text .notGathered)
  | some s =>
    let inner := { r.moveTo scope uri with draft := s.draft }
    match fragment with
    | [] => return (inner, s.value)
    | '/' :: _ => atPointer s.draft fragment inner s.value
    | _ => r.atName inner (String.ofList fragment)

/-- The schema that a recursive reference means: the document around it, or the outermost one
that it is allowed to lead to. -/
def lookupRecursive (r : Registry) (scope : Scope) : Except LookupError (Scope × Value) := do
  let (inner, v) ← r.lookup scope "#"
  match v.get? "$recursiveAnchor", scope.recursive with
  | some (.bool true), some uri => r.lookup scope uri.text
  | _, _ => return (inner, v)

end Registry

end Schema

end DocSchema
