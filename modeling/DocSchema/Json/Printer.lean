/-
  DocSchema/Json/Printer.lean
  ===========================
  **The text of a JSON value.**

  Two layouts: `Value.compact` writes no whitespace at all, `Value.pretty` puts every item and
  member on a line of its own, indented by two spaces a level, and writes empty containers as
  `[]` and `{}`.  Both write onto the text that follows, so that writing is linear in the
  length of the result.

  Whole numbers are written in decimal.  Floating-point numbers get the fewest digits that read
  back, laid out as `floatLayout` says.
-/
import DocSchema.Json.Value

namespace DocSchema.Json

/-! ### Numbers -/

/-- How the digits of a floating-point number are laid out. -/
structure FloatLayout where
  /-- Numbers below ten to this power are written without an exponent. -/
  positionalBelow : Int
  /-- The most zeros written between the decimal point and the first digit. -/
  leadingZeros : Int
  /-- Whether a whole number ends in `.0`. -/
  markWhole : Bool
  /-- Whether a positive exponent carries a sign. -/
  exponentSign : Bool

/-- Numbers from `1e-5` to below `1e16` are positional, whole ones end in `.0`, and exponents
carry their sign. -/
def floatLayout : FloatLayout := ⟨16, 4, true, true⟩

/-- Every number is positional and a whole one has no fraction. -/
def plainLayout : FloatLayout := ⟨400, 400, false, false⟩

/-- The decimal digits of a natural number. -/
def natDigits (n : Nat) : List Char :=
  Nat.toDigits 10 n

/-- The decimal text of a whole number. -/
def intText (n : Int) : List Char :=
  if n < 0 then '-' :: natDigits n.natAbs else natDigits n.natAbs

def Binary64.Decimal.layOut (d : Binary64.Decimal) (l : FloatLayout) : List Char :=
  let digits := natDigits d.digits
  -- the number of digits before the decimal point
  let point : Int := digits.length + d.exponent
  if 0 ≤ d.exponent ∧ point ≤ l.positionalBelow then
    digits ++ List.replicate d.exponent.toNat '0' ++ (if l.markWhole then ['.', '0'] else [])
  else if 0 < point ∧ point ≤ l.positionalBelow then
    digits.take point.toNat ++ '.' :: digits.drop point.toNat
  else if -l.leadingZeros ≤ point ∧ point ≤ 0 then
    '0' :: '.' :: (List.replicate (-point).toNat '0' ++ digits)
  else
    let e := point - 1
    let sign := if l.exponentSign && 0 ≤ e then ['+'] else []
    let mantissa :=
      match digits with
      | [] => []
      | [c] => [c]
      | c :: rest => c :: '.' :: rest
    mantissa ++ 'e' :: (sign ++ intText e)

/-- The text of a finite floating-point number. -/
def Binary64.text (x : Binary64) (l : FloatLayout) : List Char :=
  let sign := if x.negative then ['-'] else []
  if x.mantissa == 0 then sign ++ '0' :: (if l.markWhole then ['.', '0'] else [])
  else sign ++ (shortestDigits x.mantissa x.exponent).layOut l

def Number.text : Number → List Char
  | .int n => intText n
  | .float bits =>
    match Binary64.ofBits? bits with
    | some x => x.text floatLayout
    | none => "null".toList

/-! ### Strings -/

/-- A hexadecimal digit, in lower case. -/
def hexDigit (n : Nat) : Char :=
  Char.ofNat (if n < 10 then 48 + n else 87 + n)

/-- The escape of a character, if it needs one. -/
def escapeChar? (c : Char) : Option (List Char) :=
  if c = '"' then some ['\\', '"']
  else if c = '\\' then some ['\\', '\\']
  else if c = '\n' then some ['\\', 'n']
  else if c = '\r' then some ['\\', 'r']
  else if c = '\t' then some ['\\', 't']
  else if c = '\x08' then some ['\\', 'b']
  else if c = '\x0c' then some ['\\', 'f']
  else if c.toNat < 32 then
    some ['\\', 'u', '0', '0', hexDigit (c.toNat / 16), hexDigit (c.toNat % 16)]
  else none

/-- Writes the characters of a string, escaped, before `rest`. -/
def writeChars : List Char → List Char → List Char
  | [], rest => rest
  | c :: cs, rest =>
    match escapeChar? c with
    | some e => e ++ writeChars cs rest
    | none => c :: writeChars cs rest

/-- Writes a quoted string before `rest`. -/
def writeString (s : String) (rest : List Char) : List Char :=
  '"' :: writeChars s.toList ('"' :: rest)

/-! ### The two layouts -/

namespace Value

mutual

/-- Writes a value without whitespace before `rest`. -/
def writeCompact : Value → List Char → List Char
  | .null, rest => "null".toList ++ rest
  | .bool true, rest => "true".toList ++ rest
  | .bool false, rest => "false".toList ++ rest
  | .number n, rest => n.text ++ rest
  | .string s, rest => writeString s rest
  | .array [], rest => '[' :: ']' :: rest
  | .array (x :: xs), rest => '[' :: writeCompact x (writeCompactItems xs rest)
  | .object [], rest => '\x7b' :: '\x7d' :: rest
  | .object ((k, x) :: ms), rest =>
    '\x7b' :: writeString k (':' :: writeCompact x (writeCompactMembers ms rest))

/-- Writes the items after the first, and the closing bracket. -/
def writeCompactItems : List Value → List Char → List Char
  | [], rest => ']' :: rest
  | x :: xs, rest => ',' :: writeCompact x (writeCompactItems xs rest)

/-- Writes the members after the first, and the closing brace. -/
def writeCompactMembers : List (String × Value) → List Char → List Char
  | [], rest => '\x7d' :: rest
  | (k, x) :: ms, rest =>
    ',' :: writeString k (':' :: writeCompact x (writeCompactMembers ms rest))

end

/-- A line break and the indentation of a level, before `rest`. -/
def newLine (level : Nat) (rest : List Char) : List Char :=
  '\n' :: (List.replicate (2 * level) ' ' ++ rest)

mutual

/-- Writes a value over several lines before `rest`; `level` is that of the line it starts in. -/
def writePretty : Value → Nat → List Char → List Char
  | .null, _, rest => "null".toList ++ rest
  | .bool true, _, rest => "true".toList ++ rest
  | .bool false, _, rest => "false".toList ++ rest
  | .number n, _, rest => n.text ++ rest
  | .string s, _, rest => writeString s rest
  | .array [], _, rest => '[' :: ']' :: rest
  | .array (x :: xs), level, rest =>
    '[' :: newLine (level + 1) (writePretty x (level + 1) (writePrettyItems xs level rest))
  | .object [], _, rest => '\x7b' :: '\x7d' :: rest
  | .object ((k, x) :: ms), level, rest =>
    '\x7b' :: newLine (level + 1) (writeString k
      (':' :: ' ' :: writePretty x (level + 1) (writePrettyMembers ms level rest)))

/-- Writes the items after the first, and the closing bracket on a line of its own. -/
def writePrettyItems : List Value → Nat → List Char → List Char
  | [], level, rest => newLine level (']' :: rest)
  | x :: xs, level, rest =>
    ',' :: newLine (level + 1) (writePretty x (level + 1) (writePrettyItems xs level rest))

/-- Writes the members after the first, and the closing brace on a line of its own. -/
def writePrettyMembers : List (String × Value) → Nat → List Char → List Char
  | [], level, rest => newLine level ('\x7d' :: rest)
  | (k, x) :: ms, level, rest =>
    ',' :: newLine (level + 1) (writeString k
      (':' :: ' ' :: writePretty x (level + 1) (writePrettyMembers ms level rest)))

end

/-- The text of a value without whitespace. -/
def compact (v : Value) : String :=
  String.ofList (v.writeCompact [])

/-- The text of a value over several lines. -/
def pretty (v : Value) : String :=
  String.ofList (v.writePretty 0 [])

/-- The text of a value in one of the two layouts. -/
def render (v : Value) (isPretty : Bool) : String :=
  if isPretty then v.pretty else v.compact

end Value

end DocSchema.Json
