/-
  DocSchema/Path.lean
  ===================
  **File paths and their components.**

  A path keeps the text it was written with, but counts by its components (`Path.same`):
  repeated slashes, a trailing slash and `.` after the first component make no difference.  A
  leading `.` is a component of its own.  Paths are ordered by components, so that a directory
  comes directly before what is in it.
-/
import DocSchema.Text.Split

namespace DocSchema

open DocSchema.Text

/-- A part of a path, in the order in which parts sort. -/
inductive Component where
  | root
  | current
  | parent
  | normal (name : String)
  deriving DecidableEq, Repr

namespace Component

/-- The place of a kind of component in the order. -/
def rank : Component → Nat
  | .root => 0
  | .current => 1
  | .parent => 2
  | .normal _ => 3

/-- Compares two components: by kind, then by name. -/
def compare (a b : Component) : Ordering :=
  match a, b with
  | .normal x, .normal y => Ord.compare x y
  | _, _ => Ord.compare a.rank b.rank

end Component

/-- A path as it was written. -/
structure Path where
  text : String
  deriving DecidableEq, Repr, Inhabited

/-- The component that a piece between slashes stands for, if any: nothing and `.` stand for
none. -/
def pieceComponent? (piece : List Char) : Option Component :=
  if piece == [] || piece == ['.'] then none
  else if piece == ['.', '.'] then some .parent
  else some (.normal (String.ofList piece))

namespace Path

/-- Whether the path starts at the root of the file system. -/
def isAbsolute (p : Path) : Bool :=
  p.text.toList.head? == some '/'

def componentsOf (cs : List Char) : List Component :=
  let pieces := splitAt '/' cs
  let start : List Component :=
    if cs.head? == some '/' then [.root]
    else if pieces.head? == some ['.'] then [.current]
    else []
  start ++ pieces.filterMap pieceComponent?

def components (p : Path) : List Component :=
  componentsOf p.text.toList

/-- Whether two paths have the same components. -/
def same (a b : Path) : Bool :=
  a.components == b.components

/-- Whether a list of components starts with another. -/
def hasComponents : List Component → List Component → Bool
  | _, [] => true
  | [], _ :: _ => false
  | a :: as, b :: bs => a == b && hasComponents as bs

/-- Whether the path begins with the components of another. -/
def startsWith (p root : Path) : Bool :=
  hasComponents p.components root.components

def climbs (p : Path) : Bool :=
  p.components.any (· == .parent)

/-- Compares lists of components, the first difference deciding. -/
def compareComponents : List Component → List Component → Ordering
  | [], [] => .eq
  | [], _ :: _ => .lt
  | _ :: _, [] => .gt
  | a :: as, b :: bs => (a.compare b).then (compareComponents as bs)

def compare (a b : Path) : Ordering :=
  compareComponents a.components b.components

/-- Whether a path sorts before another, or equals it. -/
def le (a b : Path) : Bool :=
  (a.compare b).isLE

def sort (ps : List Path) : List Path :=
  ps.mergeSort le

/-- A path below another; an absolute one stays what it is. -/
def join (root rest : Path) : Path :=
  if rest.isAbsolute then rest
  else if root.text.isEmpty || root.text.toList.getLast? == some '/' then
    ⟨root.text ++ rest.text⟩
  else ⟨root.text ++ "/" ++ rest.text⟩

/-- Whether a piece between slashes stands for no component. -/
def isBlank (piece : List Char) : Bool :=
  (pieceComponent? piece).isNone

/-- The path without its last component, as it was written before that; the root and the empty
path have no such path. -/
def parent? (p : Path) : Option Path :=
  let pieces := splitAt '/' p.text.toList
  let isCurrent := pieces.head? == some ['.']
  match pieces.reverse.dropWhile isBlank with
  | [] => if isCurrent then some ⟨""⟩ else none
  | _ :: before =>
    match before.dropWhile isBlank with
    | [] => some ⟨if p.isAbsolute then "/" else if isCurrent then "." else ""⟩
    | kept => some ⟨String.ofList (joinWith '/' kept.reverse)⟩

/-- The last component, if it is a name. -/
def fileName? (p : Path) : Option String :=
  match p.components.getLast? with
  | some (.normal name) => some name
  | _ => none

/-- What follows the last dot of a name, provided that something stands before the dot. -/
def extensionOf? (name : List Char) : Option (List Char) :=
  let suffix := (name.reverse.takeWhile (· != '.')).reverse
  -- the dot itself and at least one character stand before the suffix
  if suffix.length + 1 < name.length then some suffix else none

/-- The extension of the file's name. -/
def extension? (p : Path) : Option String :=
  p.fileName?.bind fun name => (extensionOf? name.toList).map String.ofList

end Path

def documentExtensions : List String :=
  ["md", "markdown"]

def Path.isDocument (p : Path) : Bool :=
  p.extension?.any (documentExtensions.contains ·)

end DocSchema
