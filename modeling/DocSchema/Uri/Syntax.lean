/-
  DocSchema/Uri/Syntax.lean
  =========================
  **Which texts are references, and where others go wrong.**

  `Uri.flaw?` reads a text from left to right by the grammar of references and answers the
  first flaw, with its index in bytes.  The grammar for texts of any script differs in the
  characters that it admits (`foreign`).
-/
import DocSchema.Uri.Address

namespace DocSchema.Uri

open DocSchema.Text

/-! ### Flaws -/

/-- What is wrong in a text. -/
inductive Flaw where
  /-- A percent sign without two hexadecimal digits. -/
  | escape (index : Nat)
  /-- A character that cannot stand where it does. -/
  | character (index : Nat)
  /-- Brackets that do not hold an IPv6 address. -/
  | address (index : Nat)
  deriving DecidableEq, Repr

def Flaw.message : Flaw → String
  | .escape index => s!"invalid percent-encoded octet at index {index}"
  | .character index => s!"unexpected character at index {index}"
  | .address index => s!"invalid IPv6 address at index {index}"

/-! ### Characters -/

/-- A character that needs no escape anywhere. -/
def isUnreserved (c : Char) : Bool :=
  isAlphanumeric c || c == '-' || c == '.' || c == '_' || c == '~'

/-- A character that may delimit parts inside a component. -/
def isSubDelimiter (c : Char) : Bool :=
  ['!', '$', '&', '\'', '(', ')', '*', '+', ',', ';', '='].contains c

/-- A character of other scripts. -/
def isForeign (c : Char) : Bool :=
  let n := c.toNat
  (0xA0 ≤ n && n ≤ 0xD7FF) || (0xF900 ≤ n && n ≤ 0xFDCF) || (0xFDF0 ≤ n && n ≤ 0xFFEF) ||
    (0x10000 ≤ n && n ≤ 0xDFFFF && n % 0x10000 ≤ 0xFFFD) || (0xE1000 ≤ n && n ≤ 0xEFFFD)

/-- A character for private use. -/
def isPrivate (c : Char) : Bool :=
  let n := c.toNat
  (0xE000 ≤ n && n ≤ 0xF8FF) || (0xF0000 ≤ n && n % 0x10000 ≤ 0xFFFD)

/-- A character of a host name. -/
def isHostChar (foreign : Bool) (c : Char) : Bool :=
  isUnreserved c || isSubDelimiter c || (foreign && isForeign c)

/-- A character in front of the at sign of an authority. -/
def isUserChar (foreign : Bool) (c : Char) : Bool :=
  isHostChar foreign c || c == ':'

/-- A character of a path, slashes included. -/
def isPathChar (foreign : Bool) (c : Char) : Bool :=
  isUserChar foreign c || c == '@' || c == '/'

def isFragmentChar (foreign : Bool) (c : Char) : Bool :=
  isPathChar foreign c || c == '?'

def isQueryChar (foreign : Bool) (c : Char) : Bool :=
  isFragmentChar foreign c || (foreign && isPrivate c)

/-! ### Reading -/

/-- A place in a text: its index in bytes and the characters from there on. -/
abbrev Spot := Nat × List Char

/-- Passes characters of a class, and escapes. -/
def pass (fits : Char → Bool) : Nat → List Char → Except Flaw Spot
  | i, '%' :: a :: b :: cs =>
    if (hexValue? a).isSome && (hexValue? b).isSome then pass fits (i + 3) cs
    else .error (.escape i)
  | i, c :: cs =>
    if c == '%' then .error (.escape i)
    else if fits c then pass fits (i + c.utf8Size) cs
    else .ok (i, c :: cs)
  | i, [] => .ok (i, [])

/-- Passes characters of a class, but no escapes. -/
def passPlain (fits : Char → Bool) (spot : Spot) : Spot :=
  let passed := spot.2.takeWhile fits
  (spot.1 + (passed.map Char.utf8Size).foldl (· + ·) 0, spot.2.drop passed.length)

/-- Whether a character is a hexadecimal digit. -/
def isHexDigit (c : Char) : Bool :=
  (hexValue? c).isSome

/-- Passes an address of a later version: `v`, the version, a dot and the address. -/
def passLater (spot : Spot) : Except Flaw Spot :=
  match spot with
  | (i, v :: cs) =>
    if v == 'v' || v == 'V' then
      match passPlain isHexDigit (i + 1, cs) with
      | (j, '.' :: rest) =>
        let (k, after) := passPlain (isUserChar false) (j + 1, rest)
        if j == i + 1 then .error (.character j)
        else if k == j + 1 then .error (.character k)
        else .ok (k, after)
      | (j, _) => .error (.character j)
    else .error (.character i)
  | (i, []) => .error (.character i)

/-- Whether a text starts with an IPv4 address rather than with a group. -/
def startsWithByte (cs : List Char) : Bool :=
  let digits := cs.takeWhile isHexDigit
  !digits.isEmpty && digits.length ≤ 4 && (cs.drop digits.length).head? == some '.'

/-- Passes what stands in brackets, and the closing bracket. -/
def passLiteral (spot : Spot) : Except Flaw Spot := do
  let (i, cs) := spot
  let (j, rest) := passPlain (fun c => isHexDigit c || c == ':' || c == '.') spot
  let inside := cs.take (cs.length - rest.length)
  let (k, after) ←
    if isIPv6 inside then pure (j, rest)
    else if startsWithByte cs then throw (.character i)
    else if (cs.head?.any fun c => isHexDigit c || c == ':') then throw (.address i)
    else passLater spot
  match after with
  | ']' :: after => return (k + 1, after)
  | _ => throw (.character k)

/-- Passes a port, if one is given. -/
def passPort (spot : Spot) : Spot :=
  match spot with
  | (i, ':' :: cs) => passPlain isDigit (i + 1, cs)
  | spot => spot

/-- Passes a host and its port. -/
def passHost (foreign : Bool) (spot : Spot) : Except Flaw Spot := do
  match spot with
  | (i, '[' :: cs) => return passPort (← passLiteral (i + 1, cs))
  | (i, cs) => return passPort (← pass (isHostChar foreign) i cs)

/-- The characters of a text with their indexes. -/
def indexed : Nat → List Char → List (Nat × Char)
  | _, [] => []
  | i, c :: cs => (i, c) :: indexed (i + c.utf8Size) cs

/-- Checks the colons of a host without an at sign: there may be one, in front of a port. -/
def checkColons (i : Nat) (cs : List Char) : Except Flaw Unit :=
  match ((indexed i cs).filter fun e => e.2 == ':').reverse with
  | [] => .ok ()
  | [(j, _)] =>
    match (indexed i cs).find? fun e => j < e.1 && !isDigit e.2 with
    | some (k, _) => .error (.character k)
    | none => .ok ()
  | (j, _) :: _ => .error (.character j)

def passAuthority (foreign : Bool) (spot : Spot) : Except Flaw Spot := do
  let (i, cs) := spot
  let (j, rest) ← pass (isUserChar foreign) i cs
  match rest with
  | '@' :: rest => passHost foreign (j + 1, rest)
  | rest =>
    if j == i then
      match cs with
      | '[' :: cs => return passPort (← passLiteral (i + 1, cs))
      | cs => return (i, cs)
    else
      checkColons i (cs.take (cs.length - rest.length))
      return (j, rest)

/-- Reads a query and a fragment to the end. -/
def readEnd (foreign : Bool) (spot : Spot) : Except Flaw Unit := do
  let (i, cs) ←
    match spot with
    | (i, '?' :: cs) => pass (isQueryChar foreign) (i + 1) cs
    | spot => pure spot
  let (i, cs) ←
    match (i, cs) with
    | (i, '#' :: cs) => pass (isFragmentChar foreign) (i + 1) cs
    | spot => pure spot
  if cs.isEmpty then return else throw (.character i)

/-- Reads an authority and all that follows. -/
def readAuthority (foreign : Bool) (spot : Spot) : Except Flaw Unit := do
  let (i, cs) ← passAuthority foreign spot
  let (j, rest) ← pass (isPathChar foreign) i cs
  if j != i && cs.head? != some '/' then throw (.character i)
  readEnd foreign (j, rest)

/-- Reads a path without a scheme in front, whose first segment has no colon, and all that
follows. -/
def readRelative (foreign : Bool) (cs : List Char) : Except Flaw Unit := do
  let (i, rest) ← pass (fun c => isHostChar foreign c || c == '@') 0 cs
  if rest.head? == some ':' then throw (.character i)
  readEnd foreign (← pass (isPathChar foreign) i rest)

/-- Reads a whole text; `absolute` asks for a scheme. -/
def readReference (foreign absolute : Bool) (cs : List Char) : Except Flaw Unit := do
  let fits (c : Char) : Bool := isAlphanumeric c || c == '+' || c == '-' || c == '.'
  match passPlain fits (0, cs) with
  | (i, ':' :: rest) =>
    if !cs.head?.any isLetter then throw (.character 0)
    match rest with
    | '/' :: '/' :: rest => readAuthority foreign (i + 3, rest)
    | rest => readEnd foreign (← pass (isPathChar foreign) (i + 1) rest)
  | (i, _) =>
    if absolute then throw (.character i)
    match cs with
    | '/' :: '/' :: rest => readAuthority foreign (2, rest)
    | cs => readRelative foreign cs

/-- The first flaw of a text as a reference. -/
def flaw? (cs : List Char) : Option Flaw :=
  match readReference false false cs with
  | .ok () => none
  | .error e => some e

def isReference (foreign : Bool) (cs : List Char) : Bool :=
  (readReference foreign false cs).isOk

/-- Whether a text is a reference with a scheme. -/
def isUri (foreign : Bool) (cs : List Char) : Bool :=
  (readReference foreign true cs).isOk

end DocSchema.Uri
