/-
  DocSchema/Uri/Address.lean
  ==========================
  **IP addresses.**

  An address of version 4 is four decimal bytes.  One of version 6 is eight groups of
  hexadecimal digits, or fewer around a gap; its last two groups may be written as an address of
  version 4.
-/
import DocSchema.Text.Ascii
import DocSchema.Text.Split

namespace DocSchema.Uri

open DocSchema.Text

/-- A decimal byte without a zero in front. -/
def isDecimalByte (cs : List Char) : Bool :=
  !cs.isEmpty && cs.length ≤ 3 && cs.all isDigit && (cs.length == 1 || cs.head? != some '0') &&
    cs.foldl (fun n c => n * 10 + digitValue c) 0 ≤ 255

/-- An IPv4 address: four decimal bytes. -/
def isIPv4 (cs : List Char) : Bool :=
  let parts := splitAt '.' cs
  parts.length == 4 && parts.all isDecimalByte

def isGroup (cs : List Char) : Bool :=
  1 ≤ cs.length && cs.length ≤ 4 && cs.all fun c => (hexValue? c).isSome

/-- The number of groups that a part of an IPv6 address holds; the last may be an IPv4 address,
which counts as two. -/
def groupCount? (last : Bool) (cs : List Char) : Option Nat :=
  if cs.isEmpty then some 0
  else
    let groups := splitAt ':' cs
    let final := groups.getLast?.getD []
    if last && isIPv4 final && groups.dropLast.all isGroup then some (groups.length + 1)
    else if groups.all isGroup then some groups.length
    else none

def splitGap (before : List Char) : List Char → Option (List Char × List Char)
  | ':' :: ':' :: cs => some (before.reverse, cs)
  | c :: cs => splitGap (c :: before) cs
  | [] => none

/-- An IPv6 address: eight groups, or fewer around a gap. -/
def isIPv6 (cs : List Char) : Bool :=
  match splitGap [] cs with
  | none => groupCount? true cs == some 8
  | some (before, rest) =>
    match groupCount? false before, groupCount? true rest with
    | some a, some b => a + b < 8
    | _, _ => false

end DocSchema.Uri
