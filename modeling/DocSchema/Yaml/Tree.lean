/-
  DocSchema/Yaml/Tree.lean
  ========================
  **The nodes of a YAML document.**

  A text holds one document at most.  Its nodes are scalars, sequences, mappings and aliases;
  an alias refers to a node by number, and a node with an anchor carries the number that its
  name stood for when it was read: the number of names known at that point.  Two nodes may so
  carry one number, and then the later one is meant.
-/
import DocSchema.Yaml.Token

namespace DocSchema.Yaml

/-- What is attached to a node: the number of its anchor and its tag. -/
structure Properties where
  anchor : Option Nat := none
  tag : Option Tag := none
  deriving Repr

/-- A node. -/
inductive Node where
  | scalar (properties : Properties) (text : String) (plain : Bool)
  | sequence (properties : Properties) (items : List Node)
  | mapping (properties : Properties) (entries : List (Node × Node))
  | alias (target : Nat)
  deriving Repr

namespace Node

/-- The scalar that stands where nothing is written. -/
def empty : Node :=
  .scalar {} "" true

mutual

/-- How often a node starts or ends, in all of its tree; a scalar and an alias count once. -/
def events : Node → Nat
  | .scalar .. => 1
  | .alias _ => 1
  | .sequence _ items => eventsOfItems items + 2
  | .mapping _ entries => eventsOfEntries entries + 2

def eventsOfItems : List Node → Nat
  | [] => 0
  | n :: ns => events n + eventsOfItems ns

/-- The events of keys and values. -/
def eventsOfEntries : List (Node × Node) → Nat
  | [] => 0
  | (k, v) :: rest => events k + events v + eventsOfEntries rest

end

def withAnchor (n : Node) (p : Properties) (more : List (Nat × Node)) : List (Nat × Node) :=
  match p.anchor with
  | some a => (a, n) :: more
  | none => more

mutual

/-- The nodes with anchors, in the order in which they start. -/
def anchored : Node → List (Nat × Node)
  | .alias _ => []
  | .scalar p text plain => withAnchor (.scalar p text plain) p []
  | .sequence p items => withAnchor (.sequence p items) p (anchoredItems items)
  | .mapping p entries => withAnchor (.mapping p entries) p (anchoredEntries entries)

def anchoredItems : List Node → List (Nat × Node)
  | [] => []
  | n :: ns => anchored n ++ anchoredItems ns

/-- The anchored nodes of keys and values. -/
def anchoredEntries : List (Node × Node) → List (Nat × Node)
  | [] => []
  | (k, v) :: rest => anchored k ++ anchored v ++ anchoredEntries rest

end

end Node

/-! ### Building nodes from tokens -/

/-- What is known while nodes are built: the tokens to come, the anchors by name, and the tag
handles. -/
structure Build where
  tokens : List Token
  anchors : List (String × Nat) := []
  handles : Handles := []

namespace Build

def nextIs (b : Build) (ts : List Token) : Bool :=
  match b.tokens with
  | t :: _ => ts.contains t
  | [] => false

/-- Passes the next token. -/
def skip (b : Build) : Build :=
  { b with tokens := b.tokens.drop 1 }

def addAnchor (b : Build) (name : String) : Nat × Build :=
  let number := b.anchors.length
  (number, { b with anchors := (name, number) :: b.anchors.filter (·.1 != name) })

/-- Takes an anchor, if one is next. -/
def takeAnchor (b : Build) (p : Properties) : Properties × Build :=
  match b.tokens with
  | .anchor name :: _ =>
    let (number, b) := b.skip.addAnchor name
    ({ p with anchor := some number }, b)
  | _ => (p, b)

/-- Takes a tag, if one is next. -/
def takeTag? (b : Build) (p : Properties) : Option (Properties × Build) :=
  match b.tokens with
  | .tag t :: _ => (t.resolve? b.handles).map fun tag => ({ p with tag := some tag }, b.skip)
  | _ => some (p, b)

/-- Takes an anchor and a tag, in either order. -/
def takeProperties? (b : Build) : Option (Properties × Build) :=
  match b.tokens with
  | .anchor _ :: _ =>
    let (p, b) := b.takeAnchor {}
    b.takeTag? p
  | .tag .. :: _ => (b.takeTag? {}).map fun (p, b) => b.takeAnchor p
  | _ => some ({}, b)

mutual

/-- Reads a node.  Block collections may start only if `block`; a sequence that is not
indented, only if `flush`. -/
def node? (block flush : Bool) : Nat → Build → Option (Node × Build)
  | 0, _ => none
  | fuel + 1, b =>
    match b.tokens with
    | .alias name :: _ => (b.anchors.lookup name).map fun n => (.alias n, b.skip)
    | _ =>
      match b.takeProperties? with
      | none => none
      | some (p, b) =>
        match b.tokens with
        | .blockEntry :: _ =>
          if flush then (flushItems? fuel b).map fun (xs, b) => (.sequence p xs, b)
          else if p.anchor.isSome || p.tag.isSome then some (.scalar p "" true, b) else none
        | .scalar text plain :: _ => some (.scalar p text plain, b.skip)
        | .flowSequenceStart :: _ =>
          (flowItems? true fuel b.skip).map fun (xs, b) => (.sequence p xs, b)
        | .flowMappingStart :: _ =>
          (flowEntries? true fuel b.skip).map fun (es, b) => (.mapping p es, b)
        | .sequenceStart :: _ =>
          if block then (blockItems? fuel b.skip).map fun (xs, b) => (.sequence p xs, b)
          else if p.anchor.isSome || p.tag.isSome then some (.scalar p "" true, b) else none
        | .mappingStart :: _ =>
          if block then (blockEntries? fuel b.skip).map fun (es, b) => (.mapping p es, b)
          else if p.anchor.isSome || p.tag.isSome then some (.scalar p "" true, b) else none
        | _ => if p.anchor.isSome || p.tag.isSome then some (.scalar p "" true, b) else none

/-- Reads a node, or none where one of these tokens follows. -/
def nodeUnless? (block flush : Bool) (stops : List Token) :
    Nat → Build → Option (Node × Build)
  | 0, _ => none
  | fuel + 1, b =>
    if b.nextIs stops then some (.empty, b) else node? block flush fuel b

/-- Reads the items of a block sequence. -/
def blockItems? : Nat → Build → Option (List Node × Build)
  | 0, _ => none
  | fuel + 1, b =>
    match b.tokens with
    | .blockEntry :: _ => do
      let (x, b) ← nodeUnless? true false [.blockEntry, .blockEnd] fuel b.skip
      let (xs, b) ← blockItems? fuel b
      some (x :: xs, b)
    | .blockEnd :: _ => some ([], b.skip)
    | _ => none

/-- Reads the items of a sequence that is not indented; whatever is no item ends it. -/
def flushItems? : Nat → Build → Option (List Node × Build)
  | 0, _ => none
  | fuel + 1, b =>
    match b.tokens with
    | .blockEntry :: _ => do
      let (x, b) ← nodeUnless? true false [.blockEntry, .key, .value, .blockEnd] fuel b.skip
      let (xs, b) ← flushItems? fuel b
      some (x :: xs, b)
    | _ => some ([], b)

/-- Reads the entries of a block mapping. -/
def blockEntries? : Nat → Build → Option (List (Node × Node) × Build)
  | 0, _ => none
  | fuel + 1, b =>
    match b.tokens with
    | .key :: _ => do
      let (k, b) ← nodeUnless? true true [.key, .value, .blockEnd] fuel b.skip
      let (v, b) ←
        match b.tokens with
        | .value :: _ => nodeUnless? true true [.key, .value, .blockEnd] fuel b.skip
        | _ => some (.empty, b)
      let (es, b) ← blockEntries? fuel b
      some ((k, v) :: es, b)
    | .blockEnd :: _ => some ([], b.skip)
    | _ => none

/-- Reads the items of a flow sequence.  An item that starts as a key is a mapping of one
entry; where that key is missing, the token in its place is passed over. -/
def flowItems? (first : Bool) : Nat → Build → Option (List Node × Build)
  | 0, _ => none
  | fuel + 1, b =>
    if b.nextIs [.flowSequenceEnd] then some ([], b.skip)
    else if !first && !b.nextIs [.flowEntry] then none
    else
      let b := if first then b else b.skip
      match b.tokens with
      | .flowSequenceEnd :: _ => some ([], b.skip)
      | .key :: _ => do
        let stops : List Token := [.value, .flowEntry, .flowSequenceEnd]
        let b := b.skip
        let (k, b) ←
          if b.nextIs stops then some (.empty, b.skip) else node? false false fuel b
        let (v, b) ←
          match b.tokens with
          | .value :: _ => nodeUnless? false false [.flowEntry, .flowSequenceEnd] fuel b.skip
          | _ => some (.empty, b)
        let (xs, b) ← flowItems? false fuel b
        some (.mapping {} [(k, v)] :: xs, b)
      | _ => do
        let (x, b) ← node? false false fuel b
        let (xs, b) ← flowItems? false fuel b
        some (x :: xs, b)

/-- Reads the entries of a flow mapping; an entry that does not start as a key has no
value. -/
def flowEntries? (first : Bool) : Nat → Build → Option (List (Node × Node) × Build)
  | 0, _ => none
  | fuel + 1, b =>
    if b.nextIs [.flowMappingEnd] then some ([], b.skip)
    else if !first && !b.nextIs [.flowEntry] then none
    else
      let b := if first then b else b.skip
      match b.tokens with
      | .flowMappingEnd :: _ => some ([], b.skip)
      | .key :: _ => do
        let (k, b) ← nodeUnless? false false [.value, .flowEntry, .flowMappingEnd] fuel b.skip
        let (v, b) ←
          match b.tokens with
          | .value :: _ => nodeUnless? false false [.flowEntry, .flowMappingEnd] fuel b.skip
          | _ => some (.empty, b)
        let (es, b) ← flowEntries? false fuel b
        some ((k, v) :: es, b)
      | _ => do
        let (k, b) ← node? false false fuel b
        let (es, b) ← flowEntries? false fuel b
        some ((k, .empty) :: es, b)

end

/-! ### Documents -/

/-- Takes the directives in front of a document: at most one version, 1.1 or 1.2, and no tag
handle twice. -/
def takeDirectives? (versioned : Bool) : List Token → Handles → Option (Handles × List Token)
  | .directive (.version major minor) :: ts, handles =>
    if versioned || major != 1 || (minor != 1 && minor != 2) then none
    else takeDirectives? true ts handles
  | .directive (.handle name target) :: ts, handles =>
    if (handles.lookup name).isSome then none
    else takeDirectives? versioned ts ((name, target) :: handles)
  | ts, handles => some (handles, ts)

def root? (fuel : Nat) (ts : List Token) : Option (Node × Build) :=
  match ts with
  | .directive _ :: _ | .documentStart :: _ =>
    match takeDirectives? false ts [] with
    | some (handles, .documentStart :: ts) =>
      let b : Build := { tokens := ts, handles := handles ++ commonHandles }
      match ts with
      | [] | .directive _ :: _ | .documentStart :: _ | .documentEnd :: _ => some (.empty, b)
      | _ => node? true false fuel b
    | _ => none
  | _ => node? true false fuel { tokens := ts, handles := commonHandles }

end Build

/-- Reads the document of a text: `some none` if there is nothing in it, `none` if it is no
YAML or more than one document. -/
def document? (text : List Char) : Option (Option Node) := do
  let ts ← tokens? text
  if ts.isEmpty then some none
  else
    let (n, b) ← Build.root? (4 * (ts.length + 2)) ts
    if b.tokens.all (· == .documentEnd) then some (some n) else none

end DocSchema.Yaml
