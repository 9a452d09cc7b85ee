/-
  DocSchema/Pattern/Expression.lean
  =================================
  **Expressions of patterns, beyond regular ones.**

  An expression may look ahead or behind, refer to what a group has matched, or give up its other
  ways once it has matched (`atomic`).  Where none of this occurs it is a regular expression
  (`regular?`), and can be matched as a whole.  An expression is *hard* if it cannot.
-/
import DocSchema.Pattern.Size
import DocSchema.Character.AnyCase

namespace DocSchema.Pattern

/-- An expression. -/
inductive Expression where
  | empty
  | char (c : Char) (anyCase : Bool)
  | set (s : CharSet)
  | assertion (a : Assertion)
  | sequence (items : List Expression)
  | alternatives (items : List Expression)
  | group (number : Nat) (e : Expression)
  | repeated (e : Expression) (least : Nat) (most : Option Nat) (greedy : Bool)
  /-- A text that follows or precedes, or does not. -/
  | look (ahead expected : Bool) (e : Expression)
  | atomic (e : Expression)
  /-- The text that a group has matched. -/
  | reference (number : Nat)
  /-- Whether a group has been entered. -/
  | entered (number : Nat)
  | conditional (condition yes no : Expression)
  /-- What is in front does not count as part of the match. -/
  | keepOut
  /-- The place where the search began. -/
  | searchStart
  deriving Repr, Inhabited

namespace Expression

def isEmpty : Expression → Bool
  | .empty => true
  | _ => false

/-- Whether a repetition may follow. -/
def isRepeatable : Expression → Bool
  | .look .. => false
  | .empty => false
  | .assertion _ => false
  | _ => true

/-! ### Sizes -/

mutual

/-- The least number of characters in a match, by the expression's form. -/
def minSize : Expression → Nat
  | .empty => 0
  | .char .. => 1
  | .set _ => 1
  | .assertion _ => 0
  | .sequence items => minSizeOfAll items
  | .alternatives items => minSizeOfAny items
  | .group _ e => minSize e
  | .repeated e least _ _ => minSize e * least
  | .look .. => 0
  | .atomic e => minSize e
  | .reference _ => 0
  | .entered _ => 0
  | .conditional c yes no => minSize c + min (minSize yes) (minSize no)
  | .keepOut => 0
  | .searchStart => 0

/-- The least number of characters of a sequence. -/
def minSizeOfAll : List Expression → Nat
  | [] => 0
  | e :: es => minSize e + minSizeOfAll es

/-- The least number of characters of alternatives. -/
def minSizeOfAny : List Expression → Nat
  | [] => 0
  | [e] => minSize e
  | e :: es => min (minSize e) (minSizeOfAny es)

end

mutual

/-- Whether all matches have the same number of characters, by the expression's form. -/
def isFixed : Expression → Bool
  | .sequence items => areFixed items
  | .alternatives items => areFixedTo items
  | .group _ e => isFixed e
  | .repeated e least most _ => isFixed e && some least == most
  | .atomic e => isFixed e
  | .reference _ => false
  | .conditional c yes no =>
    isFixed c && isFixed yes && isFixed no && minSize c + minSize yes == minSize no
  | _ => true

/-- Whether the parts of a sequence have fixed sizes. -/
def areFixed : List Expression → Bool
  | [] => true
  | e :: es => isFixed e && areFixed es

/-- Whether alternatives have one fixed size. -/
def areFixedTo : List Expression → Bool
  | [] => true
  | [e] => isFixed e
  | e :: f :: es => isFixed e && minSize e == minSize f && areFixedTo (f :: es)

end

/-! ### Hardness -/

mutual

/-- Whether the expression cannot be matched as a whole; `referenced` are the groups that
something refers to. -/
def isHard (referenced : List Nat) : Expression → Bool
  | .empty => false
  | .char .. => false
  | .set _ => false
  | .assertion .textStart => false
  | .assertion .textEnd => false
  | .assertion .lineStart => false
  | .assertion .lineEnd => false
  | .sequence items => anyHard referenced items
  | .alternatives items => anyHard referenced items
  | .group n e => isHard referenced e || referenced.contains n
  | .repeated e .. => isHard referenced e
  | _ => true

def anyHard (referenced : List Nat) : List Expression → Bool
  | [] => false
  | e :: es => isHard referenced e || anyHard referenced es

end

/-! ### Regular expressions -/

/-- The greatest number of repetitions of a regular expression. -/
def maxCount : Nat := 4294967295

/-- Whether the limits of a repetition are in order. -/
def areLimits (least : Nat) (most : Option Nat) : Bool :=
  least ≤ maxCount && most.all fun most => least ≤ most && most ≤ maxCount

mutual

/-- The regular expression of an expression; `none` if it is hard, or repeated as it cannot
be. -/
def regular? : Expression → Option Regular
  | .empty => some .empty
  | .char c anyCase => some (.one (if anyCase then (CharSet.single c).anyCase else .single c))
  | .set s => some (.one s)
  | .assertion a => some (.assertion a)
  | .sequence items => (regulars? items).map .sequence
  | .alternatives items => (regulars? items).map .alternatives
  | .group _ e => regular? e
  | .repeated e least most greedy =>
    if areLimits least most then (regular? e).map fun r => .repeated r least most greedy else none
  | _ => none

def regulars? : List Expression → Option (List Regular)
  | [] => some []
  | e :: es => do
    let r ← regular? e
    let rs ← regulars? es
    some (r :: rs)

end

/-- The regular expression of an expression, if its automaton is small enough. -/
def compact? (e : Expression) : Option Regular :=
  (regular? e).filter (·.fits)

end Expression

end DocSchema.Pattern
