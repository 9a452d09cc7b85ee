/-
  DocSchema/Yaml/Data.lean
  ========================
  **The data of a YAML document, as a JSON value.**

  Keys are scalars and count by their text; of a key that is given twice the last value counts,
  at the place of the first.  Aliases stand for the nodes they refer to.  Collections may be
  nested 128 deep, and aliases may be followed at most a hundred times as often as the document
  has events, so that a short text cannot stand for boundless data.
-/
import DocSchema.Yaml.Tree
import DocSchema.Yaml.Resolve

namespace DocSchema.Yaml

open DocSchema.Json

/-- How deep collections may be nested. -/
def depthLimit : Nat := 128

/-- What following an alias needs: the nodes with anchors, and how many aliases may be
followed. -/
structure Anchors where
  nodes : List (Nat × Node)
  limit : Nat

namespace Anchors

/-- The anchors of a document; of two nodes with one number the later is meant. -/
def ofRoot (n : Node) : Anchors :=
  ⟨n.anchored.reverse, n.events * 100⟩

/-- Follows an alias; `jumps` counts the aliases followed so far. -/
def follow? (a : Anchors) (n : Node) (jumps : Nat) : Option (Node × Nat) :=
  match n with
  | .alias target =>
    if a.limit < jumps + 1 then none else (a.nodes.lookup target).map (·, jumps + 1)
  | n => some (n, jumps)

def key? (a : Anchors) (n : Node) (jumps : Nat) : Option (String × Nat) :=
  match a.follow? n jumps with
  | some (.scalar _ text _, jumps) => some (text, jumps)
  | _ => none

/-- Whether a collection may have the tag: any but a local one. -/
def fitsCollection (tag : Option Tag) : Bool :=
  !tag.any (·.isLocal)

def value? (a : Anchors) : Nat → Node → Nat → Option (Value × Nat)
  | depth, n, jumps =>
    match a.follow? n jumps with
    | some (.scalar p text plain, jumps) => (scalarValue? p.tag text plain).map (·, jumps)
    | some (.sequence p items, jumps) =>
      match depth with
      | 0 => none
      | depth + 1 =>
        if fitsCollection p.tag then
          (items.foldlM (fun (acc : List Value × Nat) n =>
            (a.value? depth n acc.2).map fun (v, jumps) => (v :: acc.1, jumps)) ([], jumps)).map
            fun (items, jumps) => (.array items.reverse, jumps)
        else none
    | some (.mapping p entries, jumps) =>
      match depth with
      | 0 => none
      | depth + 1 =>
        if fitsCollection p.tag then
          (entries.foldlM (fun (acc : Object × Nat) (entry : Node × Node) =>
            (a.key? entry.1 acc.2).bind fun (key, jumps) =>
              (a.value? depth entry.2 jumps).map fun (v, jumps) =>
                (acc.1.insert key v, jumps)) ([], jumps)).map
            fun (members, jumps) => (.object members, jumps)
        else none
    | _ => none

end Anchors

/-- The data of a text; a text without a document stands for a null. -/
def data? (text : List Char) : Option Value :=
  match document? text with
  | some (some n) => ((Anchors.ofRoot n).value? depthLimit n 0).map (·.1)
  | some none => some .null
  | none => none

end DocSchema.Yaml
