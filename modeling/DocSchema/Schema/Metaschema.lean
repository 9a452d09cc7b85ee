/-
  DocSchema/Schema/Metaschema.lean
  ================================
  **The published documents, and the schemas that they accept.**

  A document is accepted as a schema when its draft is known, the documents that it refers to
  are there, its metaschema has nothing against it, and everything that the schema leads to is
  a schema (`Validator.compile`).  The first obstacle, in this order, is the one that is told.
-/
import DocSchema.Schema.Compile
import DocSchema.Schema.Metaschema.Early
import DocSchema.Schema.Metaschema.Late

namespace DocSchema

open DocSchema.Json DocSchema.Schema

namespace Draft

def document (d : Draft) : Value :=
  match d with
  | .draft4 => Metaschema.Draft4.document
  | .draft2019 => Metaschema.Late.document .draft2019
  | .draft2020 => Metaschema.Late.document .draft2020
  | d => Metaschema.Draft7.document d

def documents (d : Draft) : List Value :=
  if d.le .draft7 then [d.document] else Metaschema.Late.documents d

def publication (d : Draft) (v : Value) : Uri × Resource :=
  let s : Resource := ⟨d, v⟩
  (((Schema.uriOf s).toOption).getD defaultUri, s)

end Draft

namespace Metaschema

def published : Registry :=
  let queue := Draft.all.flatMap fun d => d.documents.map d.publication
  ((gather 10000 queue {}).toOption.map (·.registry)).getD {}

def validatorOf (d : Draft) : Validator :=
  let (uri, s) := d.publication d.document
  (Validator.ofDocument published uri s).toOption.getD ⟨.always, #[]⟩

def draft4 : Validator := validatorOf .draft4

def draft6 : Validator := validatorOf .draft6

def draft7 : Validator := validatorOf .draft7

def draft2019 : Validator := validatorOf .draft2019

def draft2020 : Validator := validatorOf .draft2020

end Metaschema

def Draft.metaschema (d : Draft) : Validator :=
  match d with
  | .draft4 => Metaschema.draft4
  | .draft6 => Metaschema.draft6
  | .draft7 => Metaschema.draft7
  | .draft2019 => Metaschema.draft2019
  | .draft2020 => Metaschema.draft2020

def Validator.compile [Retrieval] (v : Value) : Except SchemaError Validator := do
  let draft ← (Draft.detect .draft2020 v).mapError fun uri => .lookup (.unknownDraft uri)
  let s : Resource := ⟨draft, v⟩
  let uri ← (Schema.uriOf s).mapError .lookup
  let registry ← (Registry.ofDocument Metaschema.published uri s).mapError .lookup
  if let w :: _ := draft.metaschema.violations v then
    throw (.refused w.value w.fault)
  Validator.ofDocument registry uri s

end DocSchema
