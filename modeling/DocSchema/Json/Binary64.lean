/-
  DocSchema/Json/Binary64.lean
  ============================
  **Finite binary floating-point numbers as exact quantities.**

  A 64-bit pattern holds a sign, a mantissa and a power of two.  `Binary64.parts` reads them
  off, so that order, equality and decimal text are decided in exact integer arithmetic.

  `shortestDigits` finds the decimal text of a positive number `m · 2^q`: of all decimals that
  round to it, those with the fewest digits, and of these the nearest.  The reals that round to
  `m · 2^q` form an interval around it, its ends included exactly when `m` is even.  If a
  decimal grid has a point in that interval, then one of the two grid points next to the number
  is in it, so only these two are tried, on coarser grids first.
-/
namespace DocSchema.Json

/-- A finite number `± mantissa · 2 ^ exponent`. -/
structure Binary64 where
  negative : Bool
  mantissa : Nat
  exponent : Int
  deriving DecidableEq, Repr

def twoTo (n : Nat) : Nat :=
  Nat.pow 2 n

namespace Binary64

/-- The number that a bit pattern stands for; `none` for the infinities and for what is not a
number. -/
def ofBits? (bits : UInt64) : Option Binary64 :=
  let b := bits.toNat
  let negative : Bool := b / twoTo 63 == 1
  let biased : Nat := b / twoTo 52 % twoTo 11
  let fraction : Nat := b % twoTo 52
  if biased == 2047 then none
  else if biased == 0 then some ⟨negative, fraction, -1074⟩
  else some ⟨negative, twoTo 52 + fraction, (biased : Int) - 1075⟩

def signedMantissa (x : Binary64) : Int :=
  if x.negative then -(x.mantissa : Int) else x.mantissa

/-- The order of `a · 2^p` and `b · 2^q`, brought to the smaller of the two exponents. -/
def compareScaled (a : Int) (p : Int) (b : Int) (q : Int) : Ordering :=
  let low := min p q
  compare (a * twoTo (p - low).toNat) (b * twoTo (q - low).toNat)

def isWhole (x : Binary64) : Bool :=
  x.mantissa == 0 || 0 ≤ x.exponent || x.mantissa % twoTo (-x.exponent).toNat == 0

/-- The whole number that `x` is when `isWhole x`, else the next one towards zero. -/
def truncate (x : Binary64) : Int :=
  let size : Nat :=
    if 0 ≤ x.exponent then x.mantissa * twoTo x.exponent.toNat
    else x.mantissa / twoTo (-x.exponent).toNat
  if x.negative then -(size : Int) else size

/-! ### The shortest decimal -/

/-- A positive decimal `digits · 10 ^ exponent`. -/
structure Decimal where
  digits : Nat
  exponent : Int
  deriving DecidableEq, Repr

def scale (n b : Nat) (e : Int) : Nat × Nat :=
  if 0 ≤ e then (n * Nat.pow b e.toNat, 1) else (n, Nat.pow b (-e).toNat)

def belowPowerOfTen (num den : Nat) (e : Int) : Bool :=
  let (p, r) := scale 1 10 e
  num * r < p * den

/-- Steps an estimate up until `num / den < 10 ^ e`. -/
def raiseExponent (num den : Nat) : Nat → Int → Int
  | 0, e => e
  | fuel + 1, e => if belowPowerOfTen num den e then e else raiseExponent num den fuel (e + 1)

/-- The number of digits before the decimal point of `m · 2^q`: the least `e` with
`m · 2^q < 10^e`, found from an estimate that is never too high. -/
def decimalExponent (m : Nat) (q : Int) : Int :=
  let (num, den) := scale m 2 q
  raiseExponent num den 6 ((((Nat.log2 m : Int) + q) * 30103) / 100000 - 1)

/-- Tries the two points of the grid `10 ^ e` next to the number `num / den`; `low` and `high`
are four times the ends of its rounding interval, over the same denominator. -/
def gridHit (num den low high : Nat) (closed : Bool) (e : Int) : Option Decimal :=
  let (up, down) := scale 1 10 e
  -- a grid point `d · 10^e` is `d · up / down`
  let below := num * down / (den * up)
  let inside (d : Nat) : Bool :=
    let v := 4 * d * up * den
    d != 0 &&
      (if closed then low * down ≤ v && v ≤ high * down else low * down < v && v < high * down)
  -- twice the distance to the lower point, less the width of a grid step
  let nearer : Ordering := compare (2 * (num * down - below * up * den)) (up * den)
  match inside below, inside (below + 1) with
  | false, false => none
  | true, false => some ⟨below, e⟩
  | false, true => some ⟨below + 1, e⟩
  | true, true =>
    match nearer with
    | .lt => some ⟨below, e⟩
    | .gt => some ⟨below + 1, e⟩
    | .eq => some ⟨if below % 2 == 0 then below else below + 1, e⟩

/-- The first grid with a hit, from one digit on. -/
def firstHit (num den low high : Nat) (closed : Bool) (top : Int) : Nat → Nat → Option Decimal
  | 0, _ => none
  | fuel + 1, count =>
    match gridHit num den low high closed (top - count) with
    | some d => some d
    | none => firstHit num den low high closed top fuel (count + 1)

/-- Drops trailing zeros of the digits. -/
def Decimal.normalize : Nat → Decimal → Decimal
  | 0, d => d
  | fuel + 1, d =>
    if d.digits != 0 && d.digits % 10 == 0 then
      Decimal.normalize fuel ⟨d.digits / 10, d.exponent + 1⟩
    else d

/-- The fewest digits that read back as `m · 2^q`, and of those the nearest. -/
def shortestDigits (m : Nat) (q : Int) : Decimal :=
  let (num, den) := scale m 2 q
  -- the gap below a power of two is half as wide
  let lowGap := if m == twoTo 52 && q != -1074 then 1 else 2
  let low := (4 * num) - lowGap * (num / m)
  let high := (4 * num) + 2 * (num / m)
  let found :=
    if num % m == 0 then
      firstHit num den low high (m % 2 == 0) (decimalExponent m q) 18 1
    else none
  (found.getD ⟨m, q⟩).normalize 20

/-! ### The nearest number -/

/-- `num / den` rounded to a whole number, a half to the even neighbour. -/
def roundQuotient (num den : Nat) : Nat :=
  let q := num / den
  match compare (2 * (num % den)) den with
  | .lt => q
  | .gt => q + 1
  | .eq => if q % 2 == 0 then q else q + 1

def zero : Binary64 :=
  ⟨false, 0, -1074⟩

/-- The floating-point number nearest to a fraction; `none` where that is infinity. -/
def nearestQuotient? (num den : Nat) : Option Binary64 :=
  if num == 0 then some zero
  else
    -- the power of two that leaves 53 bits, or fewer for the smallest numbers
    let guess : Int := (Nat.log2 num : Int) - Nat.log2 den - 53
    let (n, p) := scale den 2 (guess + 53)
    let q := max (if num * p < n then guess else guess + 1) (-1074)
    let (up, down) := scale 1 2 q
    let m := roundQuotient (num * down) (den * up)
    let (m, q) := if m == twoTo 53 then (twoTo 52, q + 1) else (m, q)
    if 2047 ≤ q + 1075 then none else some ⟨false, m, q⟩

/-- The nearest number to a natural number. -/
def ofNat? (n : Nat) : Option Binary64 :=
  nearestQuotient? n 1

/-- The product of two positive numbers, rounded. -/
def mul? (x y : Binary64) : Option Binary64 :=
  let (num, den) := scale (x.mantissa * y.mantissa) 2 (x.exponent + y.exponent)
  nearestQuotient? num den

/-- The quotient of two positive numbers, rounded. -/
def div? (x y : Binary64) : Option Binary64 :=
  let (num, den) := scale x.mantissa 2 (x.exponent - y.exponent)
  nearestQuotient? num (den * y.mantissa)

/-- The bit pattern of a number. -/
def toBits (x : Binary64) : UInt64 :=
  let size :=
    if x.mantissa < twoTo 52 then x.mantissa
    else (x.exponent + 1075).toNat * twoTo 52 + (x.mantissa - twoTo 52)
  (if x.negative then twoTo 63 + size else size).toUInt64

/-- The bit pattern of the number nearest to a decimal; `none` where that is infinity. -/
def nearestBits? (d : Decimal) : Option UInt64 :=
  let size : Int := (Nat.log2 d.digits : Int) * 30103 / 100000 + d.exponent
  if d.digits == 0 || size < -400 then some 0
  else if 400 < size then none
  else
    let (num, den) := scale d.digits 10 d.exponent
    (nearestQuotient? num den).map toBits

end Binary64

end DocSchema.Json
