/-
  DocSchema/Schema/Compile.lean
  =============================
  **From a schema document to a validator.**

  `Validator.ofDocument` reads a document as a schema, and then what its links mean.
-/
import DocSchema.Schema.Evaluate
import DocSchema.Schema.Reader

namespace DocSchema

open DocSchema.Json DocSchema.Schema

namespace Schema

/-- How many schemas inside each other, and how many links, a document may lead to.  It can
lead to no more than there are pairs of a value and a reference, among those of the document
and those that are published. -/
def readingLimit (v : Value) : Nat :=
  (valueCount v + 2000) * (valueCount v + 2000)

/-- Reads what links mean, in the order of their places; what is no schema asks for nothing. -/
def readLinks (r : Registry) (depth : Nat) :
    Nat → Array Link → Array Schema → Array Schema
  | 0, _, done => done
  | n + 1, links, done =>
    match links[done.size]? with
    | none => done
    | some l =>
      match readSchema r depth l.scope l.value { links } with
      | .ok (s, p) => readLinks r depth n p.links (done.push s)
      | .error _ => readLinks r depth n links (done.push .always)

def uriOf (s : Resource) : Except LookupError Uri :=
  (s.draft.ownUri? s.value).elim (.ok defaultUri) documentUri

end Schema

/-- The validator of the document of a URI, whose references lead to a registry. -/
def Validator.ofDocument (r : Registry) (uri : Uri) (s : Resource) :
    Except SchemaError Validator := do
  let limit := readingLimit s.value
  let scope ← (Scope.enter ⟨s.draft, s.draft, uri, false, [], none⟩ s.value).mapError .lookup
  let (root, p) ← readSchema r limit scope s.value {}
  return ⟨root, readLinks r limit limit p.links #[]⟩

end DocSchema
