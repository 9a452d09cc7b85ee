/-
  DocSchema/Settings.lean
  =======================
  **The settings of a workspace.**

  Settings are read from JSON: an object with the members `schemaRoot` and `autolint`, or an
  array of the two in this order.  What is missing has its default, and members of other names
  are passed over.  A member must not be given twice.
-/
import DocSchema.Json.Printer
import DocSchema.Json.Reader
import DocSchema.Path
import DocSchema.Text.Quoted

namespace DocSchema

open DocSchema.Json

/-- The settings of a workspace. -/
structure Settings where
  /-- The directory that schemas are looked up in. -/
  schemaRoot : Path := ⟨"schemas"⟩
  /-- Whether documents are validated again when something changes. -/
  autolint : Bool := true
  deriving DecidableEq, Repr

namespace Settings

def toJson (s : Settings) : Value :=
  .object [("schemaRoot", .string s.schemaRoot.text), ("autolint", .bool s.autolint)]

/-! ### Reading -/

/-- The refusal of a value that is not of the expected kind. -/
def unfit (found expected : String) : Cause :=
  .unfit s!"invalid type: {found}, expected {expected}"

/-- How a number is named in a refusal. -/
def numberName (n : Number) : String :=
  match n with
  | .int _ => s!"integer \x60{String.ofList n.text}\x60"
  | .float _ => s!"floating point \x60{String.ofList n.text}\x60"

/-- The failure of reading something expected where another value stands.  A scalar is read
first; of a container nothing is. -/
def misfit (expected : String) (cs : List Char) : Failure :=
  let read {α : Type} (step : Except Failure (α × Rest)) (name : α → String) : Failure :=
    match step with
    | .error f => f
    | .ok (a, rest) => .at (unfit (name a) expected) rest
  match cs with
  | [] => .peek .endInValue []
  | 'n' :: rest => read (readIdent ['u', 'l', 'l'] rest) fun _ => "null"
  | 't' :: rest => read (readIdent ['r', 'u', 'e'] rest) fun _ => "boolean \x60true\x60"
  | 'f' :: rest => read (readIdent ['a', 'l', 's', 'e'] rest) fun _ => "boolean \x60false\x60"
  | '"' :: rest => read (readString rest) fun s => s!"string {Text.quoted s}"
  | '[' :: _ => .at (unfit "sequence" expected) cs
  | '\x7b' :: _ => .at (unfit "map" expected) cs
  | '-' :: rest => read (readNumber true rest) numberName
  | c :: _ =>
    if Text.isDigit c then read (readNumber false cs) numberName
    else .peek .expectedValue cs

def readPath (cs : List Char) : Except Failure (Path × Rest) :=
  match skipSpace cs with
  | '"' :: rest => (readString rest).map fun (s, rest) => (⟨s⟩, rest)
  | cs => .error (misfit "path string" cs)

/-- Reads a truth value. -/
def readFlag (cs : List Char) : Except Failure (Bool × Rest) :=
  match skipSpace cs with
  | 't' :: rest => (readIdent ['r', 'u', 'e'] rest).map fun (_, rest) => (true, rest)
  | 'f' :: rest => (readIdent ['a', 'l', 's', 'e'] rest).map fun (_, rest) => (false, rest)
  | cs => .error (misfit "a boolean" cs)

/-- The place in a list where the next item starts; `none` at the end of the list, which is not
passed. -/
def nextItem (first : Bool) (cs : List Char) : Except Failure (Option (List Char)) :=
  match skipSpace cs with
  | ']' :: _ => .ok none
  | [] => .error (.peek .endInList [])
  | c :: rest =>
    if first then .ok (some (c :: rest))
    else if c == ',' then
      match skipSpace rest with
      | ']' :: rest => .error (.peek .trailingComma (']' :: rest))
      | [] => .error (.peek .endInValue [])
      | rest => .ok (some rest)
    else .error (.peek .expectedListEnd (c :: rest))

def endList (cs : List Char) : Except Failure (Unit × Rest) :=
  match skipSpace cs with
  | ']' :: rest => .ok ((), rest)
  | ',' :: rest =>
    match skipSpace rest with
    | ']' :: rest => .error (.peek .trailingComma (']' :: rest))
    | rest => .error (.peek .trailingCharacters rest)
  | [] => .error (.peek .endInList [])
  | rest => .error (.peek .trailingCharacters rest)

/-- Reads the array form, its bracket taken. -/
def readList (cs : List Char) : Except Failure (Settings × Rest) := do
  let default : Settings := {}
  match ← nextItem true cs with
  | none =>
    let (_, cs) ← endList cs
    .ok (default, cs)
  | some cs =>
    let (schemaRoot, cs) ← readPath cs
    match ← nextItem false cs with
    | none =>
      let (_, cs) ← endList cs
      .ok ({ default with schemaRoot }, cs)
    | some cs =>
      let (autolint, cs) ← readFlag cs
      let (_, cs) ← endList cs
      .ok (⟨schemaRoot, autolint⟩, cs)

/-- The members read so far. -/
structure Members where
  schemaRoot : Option Path := none
  autolint : Option Bool := none

/-- The settings with the defaults for what is missing. -/
def Members.settings (m : Members) : Settings :=
  let default : Settings := {}
  ⟨m.schemaRoot.getD default.schemaRoot, m.autolint.getD default.autolint⟩

/-- The failure of a member that is given twice; the blanks after its key have been passed. -/
def duplicate (key : String) (cs : List Char) : Failure :=
  .at (.unfit s!"duplicate field \x60{key}\x60") (skipSpace cs)

/-- Reads a member whose key has been taken. -/
def readMember (m : Members) (key : String) (cs : List Char) :
    Except Failure (Members × Rest) := do
  if key == "schemaRoot" then
    if m.schemaRoot.isSome then .error (duplicate key cs)
    else
      let (_, cs) ← readColon cs
      let (p, cs) ← readPath cs
      .ok ({ m with schemaRoot := some p }, cs)
  else if key == "autolint" then
    if m.autolint.isSome then .error (duplicate key cs)
    else
      let (_, cs) ← readColon cs
      let (b, cs) ← readFlag cs
      .ok ({ m with autolint := some b }, cs)
  else
    let (_, cs) ← readColon cs
    let (_, cs) ← skipValue (3 * cs.length + 3) cs
    .ok (m, cs)

/-- Reads the members up to the closing brace; `first` before the first one. -/
def readMembers : Nat → Bool → Members → List Char → Except Failure (Members × Rest)
  | 0, _, _, cs => .error (.peek .tooDeep cs)
  | fuel + 1, first, m, cs =>
    let member (cs : List Char) : Except Failure (Members × Rest) := do
      let (key, cs) ← readString cs
      let (m, cs) ← readMember m key cs
      readMembers fuel false m cs
    match skipSpace cs with
    | [] => .error (.peek .endInObject [])
    | '\x7d' :: cs => .ok (m, cs)
    | c :: cs =>
      if first then
        if c == '"' then member cs else .error (.peek .keyMustBeString (c :: cs))
      else if c == ',' then
        match skipSpace cs with
        | '"' :: cs => member cs
        | '\x7d' :: cs => .error (.peek .trailingComma ('\x7d' :: cs))
        | [] => .error (.peek .endInValue [])
        | cs => .error (.peek .keyMustBeString cs)
      else .error (.peek .expectedObjectEnd (c :: cs))

/-- Reads settings that fill a list of characters. -/
def readAll (cs : List Char) : Except Failure Settings := do
  let (s, rest) ←
    match skipSpace cs with
    | '[' :: cs => readList cs
    | '\x7b' :: cs =>
      (readMembers (cs.length + 1) true {} cs).map fun (m, rest) => (m.settings, rest)
    | cs => .error (misfit "struct Settings" cs)
  readEnd rest
  .ok s

def read (text : String) : Except ReadError Settings :=
  (readAll text.toList).mapError fun f => f.locate text.toList

end Settings

end DocSchema
