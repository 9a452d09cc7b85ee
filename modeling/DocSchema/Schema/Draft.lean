/-
  DocSchema/Schema/Draft.lean
  ===========================
  **The drafts of JSON Schema.**

  A schema names its draft in `$schema`.  One that names none is read by the latest draft.
-/
import DocSchema.Json.Value

namespace DocSchema

open DocSchema.Json

/-- A draft of JSON Schema. -/
inductive Draft where
  | draft4
  | draft6
  | draft7
  | draft2019
  | draft2020
  deriving DecidableEq, Repr

namespace Draft

/-- The place of a draft in time. -/
def rank : Draft → Nat
  | .draft4 => 0
  | .draft6 => 1
  | .draft7 => 2
  | .draft2019 => 3
  | .draft2020 => 4

/-- Whether a draft is not later than another. -/
def le (a b : Draft) : Bool :=
  a.rank ≤ b.rank

/-- The URI of a draft, without the number sign at its end. -/
def uri : Draft → String
  | .draft4 => "http://json-schema.org/draft-04/schema"
  | .draft6 => "http://json-schema.org/draft-06/schema"
  | .draft7 => "http://json-schema.org/draft-07/schema"
  | .draft2019 => "https://json-schema.org/draft/2019-09/schema"
  | .draft2020 => "https://json-schema.org/draft/2020-12/schema"

def all : List Draft :=
  [.draft4, .draft6, .draft7, .draft2019, .draft2020]

/-- A URI without number signs at its end. -/
def trimFragment (uri : String) : String :=
  String.ofList (uri.toList.reverse.dropWhile (· == '#')).reverse

def ofUri? (uri : String) : Option Draft :=
  all.find? fun d => d.uri == trimFragment uri

/-- The key that gives a schema its own URI. -/
def idKey : Draft → String
  | .draft4 => "id"
  | _ => "$id"

def checksFormats (d : Draft) : Bool :=
  d.le .draft7

/-- Whether a reference hides the keywords beside it. -/
def refHidesSiblings (d : Draft) : Bool :=
  d.le .draft7

/-- The draft that a schema names, the latest if it names none; a URI that is no draft's is
refused. -/
def detect (default : Draft) (schema : Value) : Except String Draft :=
  match (schema.get? "$schema").bind Value.asString? with
  | none => .ok default
  | some uri =>
    match ofUri? uri with
    | some d => .ok d
    | none => .error (trimFragment uri)

end Draft

end DocSchema
