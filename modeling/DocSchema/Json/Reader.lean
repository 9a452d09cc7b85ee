/-
  DocSchema/Json/Reader.lean
  ==========================
  **Reading JSON text.**

  `read` reads one value that fills the whole text.  A text that is not JSON is refused with
  the cause and the place, a line and a column counted in bytes.  The place is that of the
  character being looked at, or the one just taken, as each rule says: `Failure.at` blames what
  lies before the rest of the text, `Failure.peek` the next byte of it.

  Containers may be nested up to 127 deep.  Of a key that is given twice the last value counts,
  at the place of the first.

  `skipValue` passes over a value that nobody needs.  It checks the syntax and no more: numbers
  may be of any size and containers nested to any depth.
-/
import DocSchema.Json.Value
import DocSchema.Text.Ascii

namespace DocSchema.Json

open DocSchema.Text

/-! ### Failures -/

/-- Why a text was refused. -/
inductive Cause where
  | endInList
  | endInObject
  | endInString
  | endInValue
  | expectedColon
  | expectedListEnd
  | expectedObjectEnd
  | expectedIdent
  | expectedValue
  | invalidEscape
  | invalidNumber
  | numberOutOfRange
  | controlCharacter
  | keyMustBeString
  | loneSurrogate
  | trailingComma
  | trailingCharacters
  | endOfHexEscape
  | tooDeep
  /-- A value that is well formed and not what was asked for. -/
  | unfit (message : String)
  deriving DecidableEq, Repr

def Cause.message : Cause → String
  | .endInList => "EOF while parsing a list"
  | .endInObject => "EOF while parsing an object"
  | .endInString => "EOF while parsing a string"
  | .endInValue => "EOF while parsing a value"
  | .expectedColon => "expected `:`"
  | .expectedListEnd => "expected `,` or `]`"
  | .expectedObjectEnd => "expected `,` or `\x7d`"
  | .expectedIdent => "expected ident"
  | .expectedValue => "expected value"
  | .invalidEscape => "invalid escape"
  | .invalidNumber => "invalid number"
  | .numberOutOfRange => "number out of range"
  | .controlCharacter => "control character (\\u0000-\\u001F) found while parsing a string"
  | .keyMustBeString => "key must be a string"
  | .loneSurrogate => "lone leading surrogate in hex escape"
  | .trailingComma => "trailing comma"
  | .trailingCharacters => "trailing characters"
  | .endOfHexEscape => "unexpected end of hex escape"
  | .tooDeep => "recursion limit exceeded"
  | .unfit message => message

/-- The number of bytes of a text. -/
def byteCount (cs : List Char) : Nat :=
  cs.foldl (fun n c => n + c.utf8Size) 0

/-- A cause and the number of bytes that follow the place it is blamed on. -/
structure Failure where
  cause : Cause
  remaining : Nat
  deriving DecidableEq, Repr

/-- Blames what was taken last; `rest` is the text after it. -/
def Failure.at (cause : Cause) (rest : List Char) : Failure :=
  ⟨cause, byteCount rest⟩

/-- Blames the next byte of `rest`, or the end of the text. -/
def Failure.peek (cause : Cause) (rest : List Char) : Failure :=
  ⟨cause, byteCount rest - 1⟩

/-- A refusal with the place in the text. -/
structure ReadError where
  cause : Cause
  line : Nat
  column : Nat
  deriving DecidableEq, Repr

/-- The wording of a refusal. -/
def ReadError.message (e : ReadError) : String :=
  s!"{e.cause.message} at line {e.line} column {e.column}"

/-- The line and column of a byte index. -/
def placeOf : List Char → Nat → Nat → Nat → Nat × Nat
  | [], _, line, column => (line, column)
  | c :: cs, index, line, column =>
    if index < c.utf8Size then (line, column + index)
    else if c == '\n' then placeOf cs (index - 1) (line + 1) 0
    else placeOf cs (index - c.utf8Size) line (column + c.utf8Size)

/-- Finds the place of a failure in the text that was read. -/
def Failure.locate (f : Failure) (text : List Char) : ReadError :=
  let (line, column) := placeOf text (byteCount text - f.remaining) 1 0
  ⟨f.cause, line, column⟩

/-- What a reading step leaves to be read. -/
abbrev Rest := List Char

/-! ### Blanks and names -/

/-- Drops the whitespace that JSON allows between tokens. -/
def skipSpace : List Char → List Char
  | [] => []
  | c :: cs => if c == ' ' || c == '\n' || c == '\t' || c == '\r' then skipSpace cs else c :: cs

/-- Reads the rest of `null`, `true` or `false`. -/
def readIdent : List Char → List Char → Except Failure (Unit × Rest)
  | [], cs => .ok ((), cs)
  | _ :: _, [] => .error (.at .endInValue [])
  | e :: es, c :: cs => if c == e then readIdent es cs else .error (.peek .expectedIdent (c :: cs))

/-! ### Numbers -/

/-- The longest whole number kept exactly. -/
def maxUnsigned : Nat := twoTo 64 - 1

/-- Takes decimal digits while the number they make stays within bounds. -/
def takeDigits : Nat → List Char → Nat × Nat × List Char
  | acc, [] => (acc, 0, [])
  | acc, c :: cs =>
    if isDigit c && acc * 10 + digitValue c ≤ maxUnsigned then
      let (value, count, rest) := takeDigits (acc * 10 + digitValue c) cs
      (value, count + 1, rest)
    else (acc, 0, c :: cs)

/-- Drops decimal digits and counts them. -/
def dropDigits : List Char → Nat × List Char
  | [] => (0, [])
  | c :: cs =>
    if isDigit c then
      let (count, rest) := dropDigits cs
      (count + 1, rest)
    else (0, c :: cs)

/-- The floating-point number nearest to a power of ten. -/
def powerOfTen (n : Nat) : Binary64 :=
  (Binary64.ofNat? (Nat.pow 10 n)).getD .zero

/-- Multiplies by a power of ten, in steps of at most `10^308`, each of them rounded. -/
def scaleByTen (x : Binary64) : Nat → Int → Option Binary64
  | 0, _ => some x
  | fuel + 1, e =>
    if e.natAbs ≤ 308 then
      if 0 ≤ e then x.mul? (powerOfTen e.natAbs) else x.div? (powerOfTen e.natAbs)
    else if x.mantissa == 0 then some x
    else if 0 ≤ e then none
    else (x.div? (powerOfTen 308)).bind fun x => scaleByTen x fuel (e + 308)

/-- A floating-point number with a sign. -/
def signed (negative : Bool) (x : Binary64) : Number :=
  .float { x with negative : Binary64 }.toBits

/-- The floating-point number `± significand · 10 ^ exponent`. -/
def floatOf (negative : Bool) (significand : Nat) (exponent : Int) (rest : List Char) :
    Except Failure (Number × Rest) :=
  match (Binary64.ofNat? significand).bind fun x => scaleByTen x 8 exponent with
  | some x => .ok (signed negative x, rest)
  | none => .error (.at .numberOutOfRange rest)

def readExponent (negative : Bool) (significand : Nat) (start : Int) (cs : List Char) :
    Except Failure (Number × Rest) :=
  let cs := cs.drop 1
  let (down, cs) :=
    match cs with
    | '+' :: cs => (false, cs)
    | '-' :: cs => (true, cs)
    | cs => (false, cs)
  match cs with
  | [] => .error (.at .endInValue [])
  | c :: cs =>
    if !isDigit c then .error (.peek .invalidNumber (c :: cs))
    else
      -- an exponent beyond 31 bits makes any number infinite or zero
      let (value, afterDigits) := readBounded (digitValue c) cs
      match value with
      | none =>
        if significand != 0 && !down then .error (.at .numberOutOfRange afterDigits)
        else .ok (signed negative .zero, (dropDigits afterDigits).2)
      | some e =>
        floatOf negative significand (if down then start - e else start + e) afterDigits
where
  /-- Takes digits while the number stays within 31 bits; `none` at the digit that exceeds. -/
  readBounded : Nat → List Char → Option Nat × List Char
    | acc, [] => (some acc, [])
    | acc, c :: cs =>
      if isDigit c then
        if acc * 10 + digitValue c ≤ twoTo 31 - 1 then readBounded (acc * 10 + digitValue c) cs
        else (none, cs)
      else (some acc, c :: cs)

def finishFloat (negative : Bool) (significand : Nat) (exponent : Int) (cs : List Char) :
    Except Failure (Number × Rest) :=
  match cs with
  | c :: _ =>
    if c == 'e' || c == 'E' then readExponent negative significand exponent cs
    else floatOf negative significand exponent cs
  | [] => floatOf negative significand exponent cs

def readFraction (negative : Bool) (significand : Nat) (exponent : Int) (cs : List Char) :
    Except Failure (Number × Rest) :=
  let (value, count, rest) := takeDigits significand (cs.drop 1)
  match rest with
  | c :: _ =>
    if isDigit c then
      -- further digits no longer fit and change nothing
      finishFloat negative value (exponent - count) (dropDigits rest).2
    else if count == 0 then .error (.peek .invalidNumber rest)
    else finishFloat negative value (exponent - count) rest
  | [] =>
    if count == 0 then .error (.peek .endInValue rest)
    else finishFloat negative value (exponent - count) rest

/-- Reads a number whose sign has been taken. -/
def readNumber (negative : Bool) (cs : List Char) : Except Failure (Number × Rest) :=
  match cs with
  | [] => .error (.at .endInValue [])
  | c :: cs =>
    if !isDigit c then .error (.peek .invalidNumber (c :: cs))
    else if c == '0' then
      match cs with
      | d :: _ => if isDigit d then .error (.peek .invalidNumber cs) else finish 0 cs
      | [] => finish 0 cs
    else
      let (value, _, rest) := takeDigits (digitValue c) cs
      match rest with
      | d :: _ =>
        if isDigit d then
          -- too long for a whole number
          let (count, rest) := dropDigits rest
          match rest with
          | '.' :: _ => readFraction negative value count rest
          | _ => finishFloat negative value count rest
        else finish value rest
      | [] => finish value rest
where
  /-- The number, if neither a fraction nor an exponent follows. -/
  finish (value : Nat) (rest : List Char) : Except Failure (Number × Rest) :=
    match rest with
    | '.' :: _ => readFraction negative value 0 rest
    | 'e' :: _ => readExponent negative value 0 rest
    | 'E' :: _ => readExponent negative value 0 rest
    | _ =>
      if !negative then .ok (.int value, rest)
      else if value == 0 || twoTo 63 < value then
        .ok (signed true ((Binary64.ofNat? value).getD .zero), rest)
      else .ok (.int (-value), rest)

/-! ### Strings -/

/-- Reads the four digits of a `\u` escape. -/
def readHex (cs : List Char) : Except Failure (Nat × Rest) :=
  if byteCount (cs.take 4) < 4 then .error (.at .endInString [])
  else
    match cs.take 4 |>.mapM hexValue? with
    | some [a, b, c, d] => .ok (((a * 16 + b) * 16 + c) * 16 + d, cs.drop 4)
    | _ => .error ⟨.invalidEscape, byteCount cs - 4⟩

/-- The character of a two-unit pair. -/
def joinSurrogates (high low : Nat) : Char :=
  Char.ofNat ((high - 0xD800) * 0x400 + (low - 0xDC00) + 0x10000)

/-- Reads the second half of a two-unit pair. -/
def readLowSurrogate (high : Nat) : List Char → Except Failure (Char × Rest)
  | [] => .error (.at .endInString [])
  | '\\' :: [] => .error (.at .endInString [])
  | '\\' :: 'u' :: cs => do
    let (low, cs) ← readHex cs
    if low < 0xDC00 || 0xDFFF < low then .error (.at .loneSurrogate cs)
    else .ok (joinSurrogates high low, cs)
  | '\\' :: cs => .error (.peek .endOfHexEscape cs)
  | cs => .error (.peek .endOfHexEscape cs)

/-- Reads an escape whose backslash has been taken. -/
def readEscape : List Char → Except Failure (Char × Rest)
  | [] => .error (.at .endInString [])
  | '"' :: cs => .ok ('"', cs)
  | '\\' :: cs => .ok ('\\', cs)
  | '/' :: cs => .ok ('/', cs)
  | 'b' :: cs => .ok ('\x08', cs)
  | 'f' :: cs => .ok ('\x0c', cs)
  | 'n' :: cs => .ok ('\n', cs)
  | 'r' :: cs => .ok ('\r', cs)
  | 't' :: cs => .ok ('\t', cs)
  | 'u' :: cs => do
    let (unit, cs) ← readHex cs
    if 0xDC00 ≤ unit && unit ≤ 0xDFFF then .error (.at .loneSurrogate cs)
    else if unit < 0xD800 || 0xDBFF < unit then .ok (Char.ofNat unit, cs)
    else readLowSurrogate unit cs
  | cs => .error (.peek .invalidEscape cs)

/-- Reads the rest of a string whose opening quote has been taken. -/
def readChars : Nat → List Char → List Char → Except Failure (List Char × Rest)
  | 0, _, cs => .error (.at .endInString cs)
  | _ + 1, _, [] => .error (.at .endInString [])
  | fuel + 1, acc, c :: cs =>
    if c == '"' then .ok (acc.reverse, cs)
    else if c == '\\' then do
      let (e, cs) ← readEscape cs
      readChars fuel (e :: acc) cs
    else if c.toNat < 32 then .error (.at .controlCharacter cs)
    else readChars fuel (c :: acc) cs

/-- Reads a string whose opening quote has been taken. -/
def readString (cs : List Char) : Except Failure (String × Rest) := do
  let (chars, rest) ← readChars (cs.length + 1) [] cs
  .ok (String.ofList chars, rest)

/-! ### Values -/

/-- Reads the colon between a key and its value. -/
def readColon (cs : List Char) : Except Failure (Unit × Rest) :=
  match skipSpace cs with
  | ':' :: cs => .ok ((), cs)
  | [] => .error (.peek .endInObject [])
  | cs => .error (.peek .expectedColon cs)

mutual

/-- Reads a value; `depth` levels of nesting are left, less one. -/
def readValue : Nat → Nat → List Char → Except Failure (Value × Rest)
  | 0, _, cs => .error (.peek .tooDeep cs)
  | fuel + 1, depth, cs =>
    match skipSpace cs with
    | [] => .error (.peek .endInValue [])
    | 'n' :: cs => do
      let (_, cs) ← readIdent ['u', 'l', 'l'] cs
      .ok (.null, cs)
    | 't' :: cs => do
      let (_, cs) ← readIdent ['r', 'u', 'e'] cs
      .ok (.bool true, cs)
    | 'f' :: cs => do
      let (_, cs) ← readIdent ['a', 'l', 's', 'e'] cs
      .ok (.bool false, cs)
    | '-' :: cs => do
      let (n, cs) ← readNumber true cs
      .ok (.number n, cs)
    | '"' :: cs => do
      let (s, cs) ← readString cs
      .ok (.string s, cs)
    | '[' :: cs =>
      if depth ≤ 1 then .error (.peek .tooDeep ('[' :: cs))
      else do
        let (items, cs) ← readItems fuel (depth - 1) true cs
        .ok (.array items, cs)
    | '\x7b' :: cs =>
      if depth ≤ 1 then .error (.peek .tooDeep ('\x7b' :: cs))
      else do
        let (members, cs) ← readMembers fuel (depth - 1) true [] cs
        .ok (.object members, cs)
    | c :: cs =>
      if isDigit c then do
        let (n, cs) ← readNumber false (c :: cs)
        .ok (.number n, cs)
      else .error (.peek .expectedValue (c :: cs))

/-- Reads the items up to the closing bracket; `first` before the first one. -/
def readItems : Nat → Nat → Bool → List Char → Except Failure (List Value × Rest)
  | 0, _, _, cs => .error (.peek .tooDeep cs)
  | fuel + 1, depth, first, cs =>
    match skipSpace cs with
    | [] => .error (.peek .endInList [])
    | ']' :: cs => .ok ([], cs)
    | c :: cs =>
      if first then item fuel depth (c :: cs)
      else if c == ',' then
        match skipSpace cs with
        | ']' :: cs => .error (.peek .trailingComma (']' :: cs))
        | [] => .error (.peek .endInValue [])
        | cs => item fuel depth cs
      else .error (.peek .expectedListEnd (c :: cs))

/-- Reads an item and the items after it. -/
def item : Nat → Nat → List Char → Except Failure (List Value × Rest)
  | 0, _, cs => .error (.peek .tooDeep cs)
  | fuel + 1, depth, cs => do
    let (v, cs) ← readValue fuel depth cs
    let (vs, cs) ← readItems fuel depth false cs
    .ok (v :: vs, cs)

/-- Reads the members up to the closing brace; `first` before the first one. -/
def readMembers : Nat → Nat → Bool → Object → List Char → Except Failure (Object × Rest)
  | 0, _, _, _, cs => .error (.peek .tooDeep cs)
  | fuel + 1, depth, first, acc, cs =>
    match skipSpace cs with
    | [] => .error (.peek .endInObject [])
    | '\x7d' :: cs => .ok (acc, cs)
    | c :: cs =>
      if first then
        if c == '"' then member fuel depth acc cs
        else .error (.peek .keyMustBeString (c :: cs))
      else if c == ',' then
        match skipSpace cs with
        | '"' :: cs => member fuel depth acc cs
        | '\x7d' :: cs => .error (.peek .trailingComma ('\x7d' :: cs))
        | [] => .error (.peek .endInValue [])
        | cs => .error (.peek .keyMustBeString cs)
      else .error (.peek .expectedObjectEnd (c :: cs))

/-- Reads a member, the quote of its key taken, and the members after it. -/
def member : Nat → Nat → Object → List Char → Except Failure (Object × Rest)
  | 0, _, _, cs => .error (.peek .tooDeep cs)
  | fuel + 1, depth, acc, cs => do
    let (key, cs) ← readString cs
    let (_, cs) ← readColon cs
    let (v, cs) ← readValue fuel depth cs
    readMembers fuel depth false (acc.insert key v) cs

end

/-- The nesting of containers at which reading stops. -/
def depthLimit : Nat := 128

/-- Checks that nothing but whitespace is left. -/
def readEnd (cs : List Char) : Except Failure Unit :=
  match skipSpace cs with
  | [] => .ok ()
  | cs => .error (.peek .trailingCharacters cs)

/-- Reads the value that fills a list of characters. -/
def readAll (cs : List Char) : Except Failure Value := do
  let (v, rest) ← readValue (3 * cs.length + 3) depthLimit cs
  readEnd rest
  .ok v

def read (text : String) : Except ReadError Value :=
  (readAll text.toList).mapError fun f => f.locate text.toList

/-! ### Passing over a value -/

/-- Passes over a number whose sign has been taken. -/
def skipNumber (cs : List Char) : Except Failure (Unit × Rest) :=
  match cs with
  | '0' :: c :: cs =>
    if isDigit c then .error (.peek .invalidNumber (c :: cs)) else afterInteger (c :: cs)
  | '0' :: [] => .ok ((), [])
  | c :: cs =>
    if isDigit c then afterInteger (dropDigits cs).2 else .error (.peek .invalidNumber (c :: cs))
  | [] => .error (.at .invalidNumber [])
where
  /-- Passes over the fraction and the exponent. -/
  afterInteger (cs : List Char) : Except Failure (Unit × Rest) :=
    match cs with
    | '.' :: cs =>
      let (count, rest) := dropDigits cs
      if count == 0 then .error (.peek .invalidNumber rest)
      else
        match rest with
        | 'e' :: cs => exponent cs
        | 'E' :: cs => exponent cs
        | _ => .ok ((), rest)
    | 'e' :: cs => exponent cs
    | 'E' :: cs => exponent cs
    | _ => .ok ((), cs)
  /-- Passes over an exponent whose letter has been taken. -/
  exponent (cs : List Char) : Except Failure (Unit × Rest) :=
    let cs :=
      match cs with
      | '+' :: cs => cs
      | '-' :: cs => cs
      | cs => cs
    match cs with
    | c :: cs =>
      if isDigit c then .ok ((), (dropDigits cs).2) else .error (.peek .invalidNumber (c :: cs))
    | [] => .error (.at .invalidNumber [])

/-- Passes over the rest of a string; of a `\u` escape only the digits are checked, and a control
character is blamed before it is taken. -/
def skipChars : Nat → List Char → Except Failure (Unit × Rest)
  | 0, cs => .error (.at .endInString cs)
  | _ + 1, [] => .error (.at .endInString [])
  | fuel + 1, c :: cs =>
    if c == '"' then .ok ((), cs)
    else if c == '\\' then
      match cs with
      | 'u' :: cs => do
        let (_, cs) ← readHex cs
        skipChars fuel cs
      | cs => do
        let (_, cs) ← readEscape cs
        skipChars fuel cs
    else if c.toNat < 32 then .error (.at .controlCharacter (c :: cs))
    else skipChars fuel cs

mutual

/-- Passes over a value. -/
def skipValue : Nat → List Char → Except Failure (Unit × Rest)
  | 0, cs => .error (.peek .tooDeep cs)
  | fuel + 1, cs =>
    match skipSpace cs with
    | [] => .error (.peek .endInValue [])
    | 'n' :: cs => readIdent ['u', 'l', 'l'] cs
    | 't' :: cs => readIdent ['r', 'u', 'e'] cs
    | 'f' :: cs => readIdent ['a', 'l', 's', 'e'] cs
    | '-' :: cs => skipNumber cs
    | '"' :: cs => skipChars (cs.length + 1) cs
    | '[' :: cs =>
      match skipSpace cs with
      | ']' :: cs => .ok ((), cs)
      | [] => .error (.peek .endInList [])
      | cs => skipItems fuel cs
    | '\x7b' :: cs =>
      match skipSpace cs with
      | '\x7d' :: cs => .ok ((), cs)
      | cs => skipMembers fuel cs
    | c :: cs =>
      if isDigit c then skipNumber (c :: cs) else .error (.peek .expectedValue (c :: cs))

/-- Passes over one item or more and the closing bracket. -/
def skipItems : Nat → List Char → Except Failure (Unit × Rest)
  | 0, cs => .error (.peek .tooDeep cs)
  | fuel + 1, cs => do
    let (_, cs) ← skipValue fuel cs
    match skipSpace cs with
    | ',' :: cs => skipItems fuel cs
    | ']' :: cs => .ok ((), cs)
    | [] => .error (.peek .endInList [])
    | cs => .error (.peek .expectedListEnd cs)

/-- Passes over one member or more and the closing brace. -/
def skipMembers : Nat → List Char → Except Failure (Unit × Rest)
  | 0, cs => .error (.peek .tooDeep cs)
  | fuel + 1, cs => do
    match skipSpace cs with
    | '"' :: cs =>
      let (_, cs) ← skipChars (cs.length + 1) cs
      let (_, cs) ← readColon cs
      let (_, cs) ← skipValue fuel cs
      match skipSpace cs with
      | ',' :: cs => skipMembers fuel cs
      | '\x7d' :: cs => .ok ((), cs)
      | [] => .error (.peek .endInObject [])
      | cs => .error (.peek .expectedObjectEnd cs)
    | [] => .error (.peek .endInObject [])
    | cs => .error (.peek .keyMustBeString cs)

end

end DocSchema.Json
