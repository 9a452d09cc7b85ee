/-
  DocSchema/Uri.lean
  ==================
  **References to resources.**

  A reference falls into scheme, authority, path, query and fragment (`Uri.ofChars`).
  `Uri.resolve?` gives the reference that another one means when it is read at a base.  Two
  references that only differ in the case of scheme and host, or in escapes that are not
  needed, have the same normal form (`Uri.normalize`).
-/
import DocSchema.Uri.Syntax

namespace DocSchema

open DocSchema.Text

/-- The parts of a reference. -/
structure Uri where
  scheme : Option (List Char)
  authority : Option (List Char)
  path : List Char
  query : Option (List Char)
  fragment : Option (List Char)
  deriving DecidableEq, Repr

namespace Uri

/-! ### Parts and text -/

/-- Cuts a text at the first character of a set; that character stays with the rest. -/
def cut (stop : Char → Bool) (cs : List Char) : List Char × List Char :=
  (cs.takeWhile (!stop ·), cs.dropWhile (!stop ·))

def isScheme : List Char → Bool
  | [] => false
  | c :: cs =>
    isLetter c && cs.all fun c => isAlphanumeric c || c == '+' || c == '-' || c == '.'

/-- Takes the scheme and its colon. -/
def takeScheme (cs : List Char) : Option (List Char) × List Char :=
  match cut (fun c => c == ':' || c == '/' || c == '?' || c == '#') cs with
  | (name, ':' :: rest) => if isScheme name then (some name, rest) else (none, cs)
  | _ => (none, cs)

/-- Takes the authority and the slashes in front of it. -/
def takeAuthority : List Char → Option (List Char) × List Char
  | '/' :: '/' :: cs =>
    let (name, rest) := cut (fun c => c == '/' || c == '?' || c == '#') cs
    (some name, rest)
  | cs => (none, cs)

def ofChars (text : List Char) : Uri :=
  let (scheme, cs) := takeScheme text
  let (authority, cs) := takeAuthority cs
  let (path, cs) := cut (fun c => c == '?' || c == '#') cs
  let (query, cs) :=
    match cs with
    | '?' :: cs =>
      let (query, cs) := cut (· == '#') cs
      (some query, cs)
    | cs => (none, cs)
  let fragment :=
    match cs with
    | '#' :: cs => some cs
    | _ => none
  ⟨scheme, authority, path, query, fragment⟩

/-- The text of a reference. -/
def chars (u : Uri) : List Char :=
  (u.scheme.elim [] (· ++ [':'])) ++ (u.authority.elim [] ('/' :: '/' :: ·)) ++ u.path ++
    (u.query.elim [] ('?' :: ·)) ++ (u.fragment.elim [] ('#' :: ·))

def text (u : Uri) : String :=
  String.ofList u.chars

/-- The reference to the whole document. -/
def withoutFragment (u : Uri) : Uri :=
  { u with fragment := none }

/-! ### Resolution -/

/-- Drops the pieces `.` and lets `..` take away the piece before it; `kept` holds the pieces so
far in reverse order. -/
def dropDots (kept : List (List Char)) : List (List Char) → List (List Char)
  | [] => kept.reverse
  | ['.'] :: [] => ([] :: kept).reverse
  | ['.', '.'] :: [] => ([] :: kept.drop 1).reverse
  | ['.'] :: rest => dropDots kept rest
  | ['.', '.'] :: rest => dropDots (kept.drop 1) rest
  | piece :: rest => dropDots (piece :: kept) rest

/-- A path without the segments `.` and `..`. -/
def removeDots (path : List Char) : List Char :=
  match path with
  | '/' :: path => '/' :: joinWith '/' (dropDots [] (splitAt '/' path))
  | path => joinWith '/' (dropDots [] (splitAt '/' path))

/-- The path of a relative reference below a base: the last segment of the base is replaced. -/
def mergePaths (base : Uri) (path : List Char) : List Char :=
  if base.authority.isSome && base.path.isEmpty then '/' :: path
  else (base.path.reverse.dropWhile (· != '/')).reverse ++ path

/-- The path of a reference without dot segments; a path that starts without a slash keeps
them if nothing was put in front of it. -/
def rootedPath (path : List Char) : List Char :=
  if path.head? == some '/' then removeDots path else path

/-- Whether a base has neither an authority nor a path from a root: then relative references
have no meaning at it. -/
def isOpaque (u : Uri) : Bool :=
  u.authority.isNone && u.path.head? != some '/'

/-- Whether a reference is empty or nothing but a fragment. -/
def isSameDocument (u : Uri) : Bool :=
  u.scheme.isNone && u.authority.isNone && u.path.isEmpty && u.query.isNone

/-- What a reference means at a base, if it means anything there. -/
def resolve? (base ref : Uri) : Option Uri :=
  if ref.scheme.isSome then some { ref with path := rootedPath ref.path }
  else if base.isOpaque && !ref.isSameDocument then none
  else if ref.authority.isSome then
    some { ref with scheme := base.scheme, path := rootedPath ref.path }
  else if ref.path.isEmpty then
    some { base with query := ref.query.or base.query, fragment := ref.fragment }
  else
    let path := if ref.path.head? == some '/' then ref.path else mergePaths base ref.path
    some { base with path := removeDots path, query := ref.query, fragment := ref.fragment }

/-! ### Escapes -/

/-- The characters of a text in which `%` and two digits stand for a byte. -/
def percentBytes : List Char → List UInt8
  | '%' :: a :: b :: cs =>
    match hexValue? a, hexValue? b with
    | some x, some y => (x * 16 + y).toUInt8 :: percentBytes cs
    | _, _ => '%'.toUInt8 :: percentBytes (a :: b :: cs)
  | c :: cs => (String.singleton c).toUTF8.toList ++ percentBytes cs
  | [] => []

/-- A text with its percent escapes resolved, unless that is no text. -/
def percentDecode? (cs : List Char) : Option String :=
  String.fromUTF8? ⟨(percentBytes cs).toArray⟩

/-! ### Normal forms -/

/-- The digits of an escape for a byte, in upper case. -/
def upperHex (n : Nat) : List Char :=
  [n / 16, n % 16].map fun d => Char.ofNat (if d < 10 then 48 + d else 55 + d)

/-- Resolves the escapes of characters that need none, and writes the others in upper case. -/
def normalEscapes : List Char → List Char
  | '%' :: a :: b :: cs =>
    match hexValue? a, hexValue? b with
    | some x, some y =>
      let n := x * 16 + y
      if isUnreserved (Char.ofNat n) then Char.ofNat n :: normalEscapes cs
      else '%' :: upperHex n ++ normalEscapes cs
    | _, _ => '%' :: normalEscapes (a :: b :: cs)
  | c :: cs => c :: normalEscapes cs
  | [] => []

/-- Puts letters in lower case, but not those of escapes. -/
def lowerOutsideEscapes : List Char → List Char
  | '%' :: a :: b :: cs => '%' :: a :: b :: lowerOutsideEscapes cs
  | c :: cs => lowerAscii c :: lowerOutsideEscapes cs
  | [] => []

/-- The normal form of a host and its port: the host in lower case, and no colon without a
port. -/
def normalHost (cs : List Char) : List Char :=
  let cs := lowerOutsideEscapes (normalEscapes cs)
  if cs.getLast? == some ':' then cs.dropLast else cs

def normalAuthority (cs : List Char) : List Char :=
  match cut (· == '@') cs with
  | (user, '@' :: host) => normalEscapes user ++ '@' :: normalHost host
  | _ => normalHost cs

def normalPath (u : Uri) : List Char :=
  let path := normalEscapes u.path
  let path := if u.scheme.isSome then rootedPath path else path
  match u.authority, path with
  | none, '/' :: '/' :: rest => '/' :: '.' :: '/' :: '/' :: rest
  | _, path => path

/-- The normal form of a reference. -/
def normalize (u : Uri) : Uri :=
  { scheme := u.scheme.map (·.map lowerAscii)
    authority := u.authority.map normalAuthority
    path := u.normalPath
    query := u.query.map normalEscapes
    fragment := u.fragment.map normalEscapes }

end Uri

end DocSchema
