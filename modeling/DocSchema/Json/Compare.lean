/-
  DocSchema/Json/Compare.lean
  ===========================
  **Order and equality of JSON numbers and values.**

  Numbers are compared by the exact quantities that they stand for, however they are written:
  `1` and `1.0` are the same number.  Values are the same (`Value.same`) when they have the same
  structure and the same numbers; members count in their order.

  `Number.close` is the looser equality of a number with an expected one: they may differ by
  less than the gap between one and the next floating-point number.
-/
import DocSchema.Json.Value

namespace DocSchema.Json

/-! ### Numbers as quantities -/

namespace Binary64

/-- Compares two numbers. -/
def compare (x y : Binary64) : Ordering :=
  compareScaled x.signedMantissa x.exponent y.signedMantissa y.exponent

/-- The floating-point number nearest to a whole number. -/
def ofInt (n : Int) : Binary64 :=
  { (ofNat? n.natAbs).getD zero with negative := decide (n < 0) }

end Binary64

namespace Number

/-- The exact quantity of a number, as a mantissa with a sign and a power of two. -/
def scaled (n : Number) : Int × Int :=
  match n with
  | .int i => (i, 0)
  | .float bits =>
    let x := (Binary64.ofBits? bits).getD .zero
    (x.signedMantissa, x.exponent)

/-- The floating-point number nearest to a number. -/
def toBinary64 : Number → Binary64
  | .int i => .ofInt i
  | .float bits => (Binary64.ofBits? bits).getD .zero

/-- Compares the quantities of two numbers. -/
def compare (a b : Number) : Ordering :=
  Binary64.compareScaled a.scaled.1 a.scaled.2 b.scaled.1 b.scaled.2

/-- Whether two numbers are the same quantity. -/
def same (a b : Number) : Bool :=
  a.compare b == .eq

/-- Whether a number is a whole one, however it is written. -/
def isWhole : Number → Bool
  | .int _ => true
  | .float bits => ((Binary64.ofBits? bits).getD .zero).isWhole

/-- Whether two floating-point numbers differ by less than `2^-52` once their difference is
rounded: less than `(2^54 - 1) / 2^106` exactly. -/
def close (a b : Number) : Bool :=
  let x := a.toBinary64
  let y := b.toBinary64
  let low := min x.exponent y.exponent
  let distance : Nat :=
    (x.signedMantissa * twoTo (x.exponent - low).toNat -
      y.signedMantissa * twoTo (y.exponent - low).toNat).natAbs
  Binary64.compareScaled distance low (twoTo 54 - 1 : Nat) (-106) == .lt

/-! ### Multiples -/

/-- Whether `a` is a multiple of `b`, as decimals: what is left when neither quotient nor
remainder can be had in floating point. -/
def dividesDecimals (a b : Binary64) : Bool :=
  let x := Binary64.shortestDigits a.mantissa a.exponent
  let y := Binary64.shortestDigits b.mantissa b.exponent
  let (num, den) := Binary64.scale x.digits 10 (x.exponent - y.exponent)
  num % (den * y.digits) == 0

/-- Whether a number is a multiple of a positive one.  A whole divisor divides exactly.  For
any other the quotient is rounded to floating point first, and its fraction must be less than
`2^-52`; the fraction of a negative quotient is. -/
def isMultipleOf (a b : Number) : Bool :=
  let x := a.toBinary64
  let m := b.toBinary64
  if m.isWhole then x.isWhole && x.truncate % m.truncate == 0
  else if x.mantissa == 0 then true
  else
    let (up, down) := Binary64.scale 1 2 (x.exponent - m.exponent)
    match Binary64.nearestQuotient? (x.mantissa * up) (m.mantissa * down) with
    | none => dividesDecimals x m
    | some q =>
      x.negative || q.isWhole || Binary64.compareScaled q.mantissa q.exponent 1 (-52) == .lt

end Number

/-! ### Values -/

namespace Value

mutual

/-- Whether two values are the same, numbers by their quantities. -/
def same : Value → Value → Bool
  | .null, .null => true
  | .bool a, .bool b => a == b
  | .number a, .number b => a.same b
  | .string a, .string b => a == b
  | .array xs, .array ys => sameItems xs ys
  | .object ms, .object ns => sameMembers ms ns
  | _, _ => false

def sameItems : List Value → List Value → Bool
  | [], [] => true
  | x :: xs, y :: ys => same x y && sameItems xs ys
  | _, _ => false

def sameMembers : List (String × Value) → List (String × Value) → Bool
  | [], [] => true
  | (k, x) :: ms, (l, y) :: ns => k == l && (same x y && sameMembers ms ns)
  | _, _ => false

end

/-- Whether a value is the expected one: a number has to be close to it, any other value the
same. -/
def isExpected (expected : Value) (v : Value) : Bool :=
  match expected, v with
  | .number a, .number b => a.close b
  | _, _ => expected.same v

/-- Whether no two of the values are the same. -/
def allDistinct : List Value → Bool
  | [] => true
  | v :: vs => !vs.any (same v) && allDistinct vs

end Value

end DocSchema.Json
