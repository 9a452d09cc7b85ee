/-
  DocSchema/Yaml/Resolve.lean
  ===========================
  **What a scalar stands for.**

  A plain scalar is a null, a truth value, a whole number, a decimal number or a text, tried in
  this order.  Whole numbers may be written with a base; what begins with a zero and goes on
  with digits is a text.  Numbers that are not finite become nulls.  A whole number that needs
  more than 64 bits is refused, but one that needs more than 128 bits counts as a decimal.
-/
import DocSchema.Json.Value
import DocSchema.Yaml.Tag

namespace DocSchema.Yaml

open DocSchema.Text DocSchema.Json

/-! ### Whole numbers -/

def digitsValue? (base : Nat) (cs : List Char) : Option Nat :=
  if cs.isEmpty then none
  else cs.foldl (fun acc c => do
    let n ← acc
    let d ← hexValue? c
    if d < base then some (n * base + d) else none) (some 0)

/-- Reads digits after a mark of their base, `0x`, `0o` or `0b`. -/
def basedValue? : List Char → Option Nat
  | '0' :: 'x' :: cs => digitsValue? 16 cs
  | '0' :: 'o' :: cs => digitsValue? 8 cs
  | '0' :: 'b' :: cs => digitsValue? 2 cs
  | _ => none

/-- Whether a text begins with a zero and goes on with digits. -/
def hasLeadingZero (cs : List Char) : Bool :=
  match cs with
  | '0' :: rest => !rest.isEmpty && rest.all isDigit
  | _ => false

/-- The number without a sign that a text stands for. -/
def magnitude? (cs : List Char) : Option Nat :=
  match basedValue? cs with
  | some n => some n
  | none => if hasLeadingZero cs then none else digitsValue? 10 cs

/-- The whole number that a text stands for. -/
def wholeNumber? : List Char → Option Int
  | '+' :: cs => (magnitude? cs).map Int.ofNat
  | '-' :: cs => (magnitude? cs).map fun n => -(n : Int)
  | cs => (magnitude? cs).map Int.ofNat

/-- How far a whole number reaches. -/
inductive Range where
  | word
  | doubleWord
  | beyond
  deriving DecidableEq

/-- The range of a whole number: one word or two, the negative ones signed. -/
def rangeOf (n : Int) : Range :=
  if -(twoTo 63 : Int) ≤ n && n < twoTo 64 then .word
  else if -(twoTo 127 : Int) ≤ n && n < twoTo 128 then .doubleWord
  else .beyond

/-! ### Decimal numbers -/

/-- The exponent of a decimal number: nothing, or `e` and a whole number. -/
def exponent? : List Char → Option Int
  | [] => some 0
  | c :: cs =>
    if c != 'e' && c != 'E' then none
    else match cs with
      | '+' :: cs => (digitsValue? 10 cs).map Int.ofNat
      | '-' :: cs => (digitsValue? 10 cs).map fun n => -(n : Int)
      | cs => (digitsValue? 10 cs).map Int.ofNat

/-- A decimal number without a sign: digits with or without a point, and an exponent. -/
def decimal? (cs : List Char) : Option Binary64.Decimal :=
  let whole := cs.takeWhile isDigit
  let rest := cs.dropWhile isDigit
  let (fraction, rest) := match rest with
    | '.' :: rest => (rest.takeWhile isDigit, rest.dropWhile isDigit)
    | _ => ([], rest)
  match digitsValue? 10 (whole ++ fraction), exponent? rest with
  | some digits, some e => some ⟨digits, e - fraction.length⟩
  | _, _ => none

/-- The bit pattern of a finite decimal number. -/
def finiteBits? (cs : List Char) : Option UInt64 :=
  match cs with
  | '-' :: cs => ((decimal? cs).bind Binary64.nearestBits?).map (· + 0x8000000000000000)
  | '+' :: cs => (decimal? cs).bind Binary64.nearestBits?
  | cs => (decimal? cs).bind Binary64.nearestBits?

/-- Whether a text stands for an infinity, or for what is not a number. -/
def isNotFinite (text : String) : Bool :=
  text ∈ [".inf", ".Inf", ".INF", "+.inf", "+.Inf", "+.INF", "-.inf", "-.Inf", "-.INF",
    ".nan", ".NaN", ".NAN"]

def decimalValue? (text : String) : Option Value :=
  if isNotFinite text then some .null
  else (finiteBits? text.toList).map (.number ∘ .float)

/-! ### Scalars -/

def isNull (text : String) : Bool :=
  text ∈ ["null", "Null", "NULL", "~"]

def truthValue? (text : String) : Option Bool :=
  if text ∈ ["true", "True", "TRUE"] then some true
  else if text ∈ ["false", "False", "FALSE"] then some false
  else none

/-- Whether a text begins with a zero, after a sign, and goes on with digits. -/
def isZeroPadded (text : String) : Bool :=
  match text.toList with
  | '+' :: cs => hasLeadingZero cs
  | '-' :: cs => hasLeadingZero cs
  | cs => hasLeadingZero cs

def plainValue? (text : String) : Option Value :=
  if text.isEmpty || isNull text then some .null
  else
    match truthValue? text with
    | some b => some (.bool b)
    | none =>
      let decimal := if isZeroPadded text then none else decimalValue? text
      match (wholeNumber? text.toList).map fun n => (n, rangeOf n) with
      | some (n, .word) => some (.number (.int n))
      | some (_, .doubleWord) => none
      | _ => some (decimal.getD (.string text))

/-- The value of a scalar with its tag: a tag of a type makes the text be read as that type, and
one that is not known leaves it a text.  Local tags are refused; one that only looks local, for
its bytes are no text, counts as no tag. -/
def scalarValue? (tag : Option Tag) (text : String) (plain : Bool) : Option Value :=
  match tag with
  | none => if plain then plainValue? text else some (.string text)
  | some tag =>
    if tag.isLocal then none
    else if tag == .ofString (commonTag ++ "bool") then (truthValue? text).map .bool
    else if tag == .ofString (commonTag ++ "int") then
      match (wholeNumber? text.toList).map fun n => (n, rangeOf n) with
      | some (n, .word) => some (.number (.int n))
      | _ => none
    else if tag == .ofString (commonTag ++ "float") then decimalValue? text
    else if tag == .ofString (commonTag ++ "null") then
      (if isNull text then some .null else none)
    else if tag.isMarked && plain then plainValue? text
    else some (.string text)

end DocSchema.Yaml
