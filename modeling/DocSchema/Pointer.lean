/-
  DocSchema/Pointer.lean
  ======================
  **JSON Pointers (RFC 6901).**

  A pointer is the text of a path through a value: a slash in front of each segment, `~0` for a
  tilde and `~1` for a slash inside one.  `Pointer.segments` also reads the fragment form with
  `#` in front, and a path without its first slash.
-/
import DocSchema.Path
import DocSchema.Text.Ascii

namespace DocSchema.Pointer

open DocSchema.Text

/-- The characters of a segment with tildes and slashes escaped. -/
def escape : List Char → List Char
  | [] => []
  | c :: cs =>
    if c == '~' then '~' :: '0' :: escape cs
    else if c == '/' then '~' :: '1' :: escape cs
    else c :: escape cs

/-- Puts a slash in place of each `~1`. -/
def restoreSlashes : List Char → List Char
  | '~' :: '1' :: cs => '/' :: restoreSlashes cs
  | c :: cs => c :: restoreSlashes cs
  | [] => []

/-- Puts a tilde in place of each `~0`. -/
def restoreTildes : List Char → List Char
  | '~' :: '0' :: cs => '~' :: restoreTildes cs
  | c :: cs => c :: restoreTildes cs
  | [] => []

/-- The segment that escaped characters stand for: slashes first, since a restored tilde
belongs to no further escape. -/
def unescape (cs : List Char) : List Char :=
  restoreTildes (restoreSlashes cs)

/-- The characters of the pointer that leads through segments. -/
def encodeChars : List String → List Char
  | [] => []
  | s :: rest => '/' :: escape s.toList ++ encodeChars rest

/-- The pointer that leads through segments. -/
def encode (segments : List String) : String :=
  String.ofList (encodeChars segments)

def segmentsOf (cs : List Char) : List String :=
  match cs.dropWhile (· == '#') with
  | [] => []
  | '/' :: path => (splitAt '/' path).map fun s => String.ofList (unescape s)
  | path => (splitAt '/' path).map fun s => String.ofList (unescape s)

def segments (pointer : String) : List String :=
  segmentsOf pointer.toList

/-- The index of an item that a segment stands for: digits and nothing else. -/
def index? (segment : String) : Option Nat :=
  let cs := segment.toList
  if cs.isEmpty || !cs.all isDigit then none
  else some (cs.foldl (fun n c => n * 10 + digitValue c) 0)

end DocSchema.Pointer
