/-
  DocSchema/Format/Network.lean
  =============================
  **Names of hosts and mail addresses.**

  A host name has labels of letters, digits and hyphens, of any script, between dots.  An
  international host name is stricter: every label has hyphens only inside, and some characters
  need the right company.  A mail address has a local part, plain or quoted, and a host name or
  an address in brackets; it may stand in angle brackets behind the name of a person.
-/
import DocSchema.Character.Script
import DocSchema.Character.Trait
import DocSchema.Uri.Address

namespace DocSchema.Format

open DocSchema.Text DocSchema.Character

/-! ### Host names -/

/-- A letter or digit of any script. -/
def isAlphanumericAnywhere (c : Char) : Bool :=
  isAlphanumeric c || (0x7F < c.toNat && alphanumeric.contains c)

/-- A host name. -/
def isHostname (cs : List Char) : Bool :=
  !cs.isEmpty && cs.head? != some '-' && cs.getLast? != some '-' && cs.length ≤ 255 &&
    cs.all (fun c => isAlphanumericAnywhere c || c == '-' || c == '.') &&
    (splitAt '.' cs).all fun label => label.length ≤ 63

/-- Signs that kill an inherent vowel; a joiner may follow them. -/
def viramas : CharSet :=
  .ofList ("\u094d\u09cd\u0a4d\u0acd\u0b4d\u0bcd\u0c4d\u0ccd\u0d4d\u0dca\u0e3a\u0f84" ++
    "\u1039\u1714\u1734\u17d2\u1a60\u1b44\u1baa\u1bf2\u1bf3\u2d7f\ua806\ua8c4\ua953\uabed").toList

/-- Characters that a label cannot hold although they are letters or marks. -/
def disallowed : CharSet :=
  .unionAll [.ofList "\u0640\u07fa\u302e\u302f\u303b".toList, .range 0x3031 0x3035]

/-- The characters of labels: letters, marks and digits. -/
def labelChars : CharSet :=
  ((alphanumeric.union (ofCategoryGroup 'M')).difference disallowed)

/-- Whether a character may stand in a label between others; `before` is the one in front,
`after` the one behind and `label` the whole. -/
def fitsInLabel (label : List Char) (before after : Option Char) (c : Char) : Bool :=
  if c == '\u00b7' then before == some 'l' && after == some 'l'
  else if c == '\u0375' then after.any (ofScript "Grek").contains
  else if c == '\u05f3' || c == '\u05f4' then before.any (ofScript "Hebr").contains
  else if c == '\u30fb' then
    label.any fun d => d != c && (CharSet.unionAll
      [ofScript "Hira", ofScript "Kana", ofScript "Hani"]).contains d
  else if c == '\u200d' || c == '\u200c' then before.any viramas.contains
  else if 0x660 ≤ c.toNat && c.toNat ≤ 0x669 then
    label.all fun d => !(0x6F0 ≤ d.toNat && d.toNat ≤ 0x6F9)
  else c == '-' || labelChars.contains c

/-- Whether all characters of a label may stand where they do. -/
def allFitInLabel (label : List Char) : Option Char → List Char → Bool
  | _, [] => true
  | before, c :: cs =>
    fitsInLabel label before cs.head? c && allFitInLabel label (some c) cs

/-- A label of an international host name. -/
def isInternationalLabel (cs : List Char) : Bool :=
  !cs.isEmpty && cs.length ≤ 63 && cs.head? != some '-' && cs.getLast? != some '-' &&
    ((cs.drop 2).take 2 != ['-', '-'] || cs.take 2 == ['x', 'n']) &&
    !cs.head?.any (ofCategoryGroup 'M').contains && allFitInLabel cs none cs

/-- An international host name; several kinds of dots separate its labels. -/
def isInternationalHostname (cs : List Char) : Bool :=
  let dotted := cs.map fun c => if "\u3002\uff0e\uff61".toList.contains c then '.' else c
  cs.length ≤ 255 && (splitAt '.' dotted).all isInternationalLabel

/-! ### Mail addresses -/

/-- The number of bytes of a text. -/
def byteSize (cs : List Char) : Nat :=
  (cs.map Char.utf8Size).foldl (· + ·) 0

/-- A character whose code point, taken as two bytes, could be one of the two-byte characters
beyond ASCII. -/
def isPairedByte (c : Char) : Bool :=
  let n := c.toNat
  0xC280 ≤ n && n ≤ 0xDFBF && 0x80 ≤ n % 256 && n % 256 ≤ 0xBF

/-- A character of a plain local part. -/
def isAtomChar (c : Char) : Bool :=
  isAlphanumericAnywhere c || isPairedByte c ||
    ['!', '#', '$', '%', '&', '\'', '*', '+', '-', '/', '=', '?', '^', '_', '\x60', '\x7b', '|',
      '\x7d', '~'].contains c

/-- Atoms with dots between them. -/
def isDottedAtoms (cs : List Char) : Bool :=
  (splitAt '.' cs).all fun atom => !atom.isEmpty && atom.all isAtomChar

/-- A visible ASCII character. -/
def isVisible (c : Char) : Bool :=
  '!' ≤ c && c ≤ '~'

/-- The inside of a quoted local part. -/
def isQuotedInside : List Char → Bool
  | [] => true
  | '\\' :: c :: cs => isVisible c && isQuotedInside cs
  | '\\' :: [] => false
  | c :: cs =>
    (c == ' ' || c == '\t' || (isVisible c && c != '"') || isPairedByte c) && isQuotedInside cs

def isLocalPart (cs : List Char) : Bool :=
  byteSize cs ≤ 64 &&
    (if cs.head? == some '"' && cs.getLast? == some '"' then
      2 < byteSize cs && isQuotedInside (cs.drop 1).dropLast
    else isDottedAtoms cs)

/-- What stands after the at sign of a mail address, where a test says which host names are
admitted. -/
def isMailDomain (admits : List Char → Bool) (cs : List Char) : Bool :=
  byteSize cs ≤ 254 &&
    (match cs, cs.getLast? with
     | '[' :: rest, some ']' =>
       match rest.dropLast with
       | 'I' :: 'P' :: 'v' :: '6' :: ':' :: address => Uri.isIPv6 address
       | address => Uri.isIPv4 address
     | cs, _ =>
       isDottedAtoms cs && (splitAt '.' cs).all (fun atom => byteSize atom ≤ 63) && admits cs)

/-- Drops whitespace at both ends. -/
def trimBlank (cs : List Char) : List Char :=
  ((cs.dropWhile isUnicodeSpace).reverse.dropWhile isUnicodeSpace).reverse

/-- The part of a text behind its last space with an angle bracket. -/
def afterBracket? : List Char → Option (List Char)
  | [] => none
  | c :: cs =>
    match afterBracket? cs with
    | some rest => some rest
    | none => if c == ' ' && cs.head? == some '<' then some (cs.drop 1) else none

/-- The address in a text, which may have the name of a person in front. -/
def bareAddress? (cs : List Char) : Option (List Char) :=
  match afterBracket? cs with
  | none => some cs
  | some rest =>
    let rest := trimBlank rest
    if rest.getLast? == some '>' then some rest.dropLast else none

/-- A mail address, split at its last at sign. -/
def isEmail (admits : List Char → Bool) (cs : List Char) : Bool :=
  match bareAddress? cs with
  | none => false
  | some address =>
    let domain := (address.reverse.takeWhile (· != '@')).reverse
    match (address.reverse.dropWhile (· != '@')).reverse with
    | [] => false
    | name => isLocalPart name.dropLast && isMailDomain admits domain

end DocSchema.Format
