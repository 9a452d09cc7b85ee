/-
  DocSchema/Pattern/Grammar.lean
  ==============================
  **The grammar that the text of a pattern is checked against.**

  The grammar has groups, alternatives, repetitions, classes, escapes and assertions.  It knows
  neither look-around nor references to groups; where one of these stands reading ends, and the
  refusal says so, for such a text may still be a pattern.  `checkGrammar` also finds the
  classes with short names.

  With the flag `x`, blanks and comments between the parts of a pattern do not count.
-/
import DocSchema.Pattern.ClassSyntax

namespace DocSchema.Pattern

open DocSchema.Text

/-- Why a text does not fit the grammar. -/
inductive Refusal where
  | lookAround
  | reference
  /-- A control letter is asked for; the text after the escape. -/
  | control (rest : List Char)
  | wrong
  deriving DecidableEq, Repr

/-- What is left of a pattern's text. -/
abbrev Rest := List Char

/-! ### Blanks -/

/-- Passes blanks and comments; `inComment` inside a comment. -/
def passBlanks : Bool → List Char → Rest
  | _, [] => []
  | true, c :: cs => passBlanks (c != '\n') cs
  | false, c :: cs =>
    if isUnicodeSpace c then passBlanks false cs
    else if c == '#' then passBlanks true cs
    else c :: cs

/-- Passes blanks and comments where they do not count. -/
def skipBlanks (blanks : Bool) (cs : List Char) : Rest :=
  if blanks then passBlanks false cs else cs

/-! ### Escapes -/

/-- A character that may stand after a backslash and then stands for itself. -/
def isEscapable (c : Char) : Bool :=
  c.toNat < 0x80 && !isAlphanumeric c && c != '<' && c != '>'

/-- What an escape stands for. -/
inductive Escaped where
  | char (c : Char)
  | set (s : ClassSyntax)
  | assertion

def charOfCode? (n : Nat) : Option Char :=
  if n < 0xD800 || (0xE000 ≤ n && n ≤ 0x10FFFF) then some (Char.ofNat n) else none

/-- The character whose code some hexadecimal digits give. -/
def charOfHex? (digits : List Char) : Option Char := do
  if digits.isEmpty then none
  let values ← digits.mapM hexValue?
  charOfCode? (values.foldl (fun n d => n * 16 + d) 0)

/-- Takes so many characters, passing blanks after each. -/
def takeSpaced (blanks : Bool) : Nat → List Char → Option (List Char × Rest)
  | 0, cs => some ([], cs)
  | _ + 1, [] => none
  | n + 1, c :: cs =>
    (takeSpaced blanks n (skipBlanks blanks cs)).map fun (t, rest) => (c :: t, rest)

/-- Takes what stands in front of a closing brace, without the blanks. -/
def takeBraced (blanks : Bool) : Nat → List Char → Option (List Char × Rest)
  | 0, _ => none
  | _ + 1, [] => none
  | fuel + 1, c :: cs =>
    if c == '\x7d' then some ([], cs)
    else (takeBraced blanks fuel (skipBlanks blanks cs)).map fun (t, rest) => (c :: t, rest)

/-- Takes a character by its code, the letter of the escape taken. -/
def takeCode (blanks : Bool) (width : Nat) (cs : List Char) : Except Refusal (Char × Rest) :=
  let found :=
    match skipBlanks blanks cs with
    | '\x7b' :: cs => takeBraced blanks (cs.length + 1) (skipBlanks blanks cs)
    | cs => takeSpaced blanks width cs
  match found with
  | some (digits, rest) =>
    match charOfHex? digits with
    | some c => .ok (c, rest)
    | none => .error .wrong
  | none => .error .wrong

/-- Takes the name of a property, the letter of the escape taken. -/
def takeProperty (blanks negated : Bool) (cs : List Char) : Except Refusal (ClassSyntax × Rest) :=
  match skipBlanks blanks cs with
  | [] => .error .wrong
  | '\\' :: _ => .error .wrong
  | '\x7b' :: cs =>
    match takeBraced blanks (cs.length + 1) (skipBlanks blanks cs) with
    | some (name, rest) => .ok (.property (.read name) negated, rest)
    | none => .error .wrong
  | c :: cs => .ok (.property (.alone [c]) negated, skipBlanks blanks cs)

/-- Passes the name of a kind of word boundary; a brace that begins no such name is left to be
read as a repetition. -/
def skipBoundaryName (blanks : Bool) (cs : List Char) : Except Refusal Rest :=
  match cs with
  | '\x7b' :: inner =>
    match skipBlanks blanks inner with
    | [] => .error .wrong
    | first :: more =>
      if !(isLetter first || first == '-') then .ok cs
      else
        match takeBraced blanks (more.length + 2) (first :: more) with
        | some (name, rest) =>
          if ["start", "end", "start-half", "end-half"].contains (String.ofList name) then .ok rest
          else .error .wrong
        | none => .error .wrong
  | cs => .ok cs

/-- Takes what follows a backslash. -/
def takeEscape (blanks : Bool) (cs : List Char) : Except Refusal (Escaped × Rest) :=
  match cs with
  | [] => .error .wrong
  | c :: rest =>
    if isDigit c then .error .reference
    else if isEscapable c then .ok (.char c, rest)
    else if isShortName c then .ok (.set (.short c), rest)
    else
      match c with
      | 'x' => (takeCode blanks 2 rest).map fun (c, rest) => (.char c, rest)
      | 'u' => (takeCode blanks 4 rest).map fun (c, rest) => (.char c, rest)
      | 'U' => (takeCode blanks 8 rest).map fun (c, rest) => (.char c, rest)
      | 'p' => (takeProperty blanks false rest).map fun (s, rest) => (.set s, rest)
      | 'P' => (takeProperty blanks true rest).map fun (s, rest) => (.set s, rest)
      | 'a' => .ok (.char '\x07', rest)
      | 'f' => .ok (.char '\x0c', rest)
      | 't' => .ok (.char '\t', rest)
      | 'n' => .ok (.char '\n', rest)
      | 'r' => .ok (.char '\r', rest)
      | 'v' => .ok (.char '\x0b', rest)
      | 'A' => .ok (.assertion, rest)
      | 'z' => .ok (.assertion, rest)
      | 'B' => .ok (.assertion, rest)
      | '<' => .ok (.assertion, rest)
      | '>' => .ok (.assertion, rest)
      | 'b' => (skipBoundaryName blanks rest).map fun rest => (.assertion, rest)
      | 'c' => .error (.control rest)
      | _ => .error .wrong

/-! ### Classes -/

/-- Takes a class by name, its first bracket and colon taken: `alpha:]`. -/
def takePosix? (cs : List Char) : Option (ClassSyntax × Rest) :=
  let (negated, cs) :=
    match cs with
    | '^' :: cs => (true, cs)
    | cs => (false, cs)
  let name := cs.takeWhile (· != ':')
  match cs.drop name.length with
  | ':' :: ']' :: rest => (ofPosixName? (String.ofList name)).map fun s => (.posix s negated, rest)
  | _ => none

/-- Takes one character or one escape of a class. -/
def takeClassAtom (blanks : Bool) (cs : List Char) : Except Refusal (Escaped × Rest) :=
  match cs with
  | [] => .error .wrong
  | '\\' :: cs => takeEscape blanks cs
  | c :: cs => .ok (.char c, cs)

/-- Takes a character, a range or an escape of a class. -/
def takeClassItem (blanks : Bool) (cs : List Char) : Except Refusal (ClassSyntax × Rest) := do
  let (first, rest) ← takeClassAtom blanks cs
  match skipBlanks blanks rest with
  | [] => .error .wrong
  | '-' :: after =>
    let rest := skipBlanks blanks rest
    match first, skipBlanks blanks after with
    | _, [] => .error .wrong
    | .assertion, ']' :: _ => .error .wrong
    | .assertion, '-' :: _ => .error .wrong
    | .char c, ']' :: _ => .ok (.range c c, rest)
    | .char c, '-' :: _ => .ok (.range c c, rest)
    | .set s, ']' :: _ => .ok (s, rest)
    | .set s, '-' :: _ => .ok (s, rest)
    | first, second =>
      match first, ← takeClassAtom blanks second with
      | .char low, (.char high, rest) =>
        if low ≤ high then .ok (.range low high, rest) else .error .wrong
      | _, _ => .error .wrong
  | rest =>
    match first with
    | .char c => .ok (.range c c, rest)
    | .set s => .ok (s, rest)
    | .assertion => .error .wrong

/-- What stands in front of the items of a class, its bracket taken: a caret, hyphens, and a
closing bracket in the first place stand for themselves. -/
def takeClassStart (blanks : Bool) (cs : List Char) : Bool × ClassSyntax × Rest :=
  let cs := skipBlanks blanks cs
  let (negated, cs) :=
    match cs with
    | '^' :: cs => (true, skipBlanks blanks cs)
    | cs => (false, cs)
  let (hyphens, cs) := takeHyphens cs.length .nothing cs
  match hyphens, cs with
  | .nothing, ']' :: cs => (negated, .range ']' ']', skipBlanks blanks cs)
  | hyphens, cs => (negated, hyphens, cs)
where
  /-- Takes hyphens. -/
  takeHyphens : Nat → ClassSyntax → List Char → ClassSyntax × Rest
    | fuel + 1, items, '-' :: cs =>
      takeHyphens fuel (items.add (.range '-' '-')) (skipBlanks blanks cs)
    | _, items, cs => (items, cs)

/-- A class whose end is still to come. -/
structure OpenClass where
  negated : Bool
  /-- The operation whose right side is being read. -/
  pending : Option (ClassSyntax × SetOperator) := none
  items : ClassSyntax

namespace OpenClass

/-- The class as far as it has been read. -/
def joined (c : OpenClass) : ClassSyntax :=
  match c.pending with
  | none => c.items
  | some (left, op) => .operation op left c.items

def push (c : OpenClass) (item : ClassSyntax) : OpenClass :=
  { c with items := c.items.add item }

/-- Goes on to the right side of an operator. -/
def operate (c : OpenClass) (op : SetOperator) : OpenClass :=
  { c with pending := some (c.joined, op), items := .nothing }

def close (c : OpenClass) : ClassSyntax :=
  .bracket c.joined c.negated

end OpenClass

/-- Reads a class to its end; `outer` are the classes around it. -/
def readClassItems (blanks : Bool) :
    Nat → List OpenClass → OpenClass → List Char → Except Refusal (ClassSyntax × Rest)
  | 0, _, _, _ => .error .wrong
  | fuel + 1, outer, c, cs =>
    match skipBlanks blanks cs with
    | [] => .error .wrong
    | '[' :: rest =>
      let named :=
        match rest with
        | ':' :: name => takePosix? name
        | _ => none
      match named with
      | some (s, rest) => readClassItems blanks fuel outer (c.push s) rest
      | none =>
        let (negated, items, rest) := takeClassStart blanks rest
        readClassItems blanks fuel (c :: outer) ⟨negated, none, items⟩ rest
    | ']' :: rest =>
      match outer with
      | [] => .ok (c.close, rest)
      | o :: outer => readClassItems blanks fuel outer (o.push c.close) rest
    | '&' :: '&' :: rest => readClassItems blanks fuel outer (c.operate .intersection) rest
    | '-' :: '-' :: rest => readClassItems blanks fuel outer (c.operate .difference) rest
    | '~' :: '~' :: rest => readClassItems blanks fuel outer (c.operate .symmetricDifference) rest
    | cs => do
      let (item, rest) ← takeClassItem blanks cs
      readClassItems blanks fuel outer (c.push item) rest

/-- Takes a class, its first bracket taken. -/
def takeClass (blanks : Bool) (cs : List Char) : Except Refusal (ClassSyntax × Rest) :=
  let (negated, items, rest) := takeClassStart blanks cs
  readClassItems blanks (cs.length + 1) [] ⟨negated, none, items⟩ rest

/-! ### Repetitions -/

/-- The greatest number of repetitions that can be written. -/
def maxCount : Nat := twoTo32 - 1
where
  /-- The first number of more than 32 bits. -/
  twoTo32 : Nat := 4294967296

/-- Takes digits, passing blanks after each. -/
def takeDigits (blanks : Bool) : Nat → List Char → List Char × Rest
  | fuel + 1, c :: cs =>
    if isDigit c then
      let (ds, rest) := takeDigits blanks fuel (skipBlanks blanks cs)
      (c :: ds, rest)
    else ([], c :: cs)
  | _, cs => ([], cs)

/-- Passes whitespace, and comments after it. -/
def passSpaces (blanks : Bool) : Nat → List Char → Rest
  | fuel + 1, c :: cs =>
    if isUnicodeSpace c then passSpaces blanks fuel (skipBlanks blanks cs) else c :: cs
  | _, cs => cs

/-- Takes a number with whitespace around it; no number where there is none, or a larger one
than can be. -/
def takeCount (blanks : Bool) (cs : List Char) : Option Nat × Rest :=
  let cs := cs.dropWhile isUnicodeSpace
  let (ds, rest) := takeDigits blanks cs.length cs
  let n := ds.foldl (fun n c => n * 10 + digitValue c) 0
  (if ds.isEmpty || maxCount < n then none else some n, passSpaces blanks rest.length rest)

/-- Passes the limits of a repetition, the opening brace taken, and the mark of a reluctant
one. -/
def skipLimits (blanks : Bool) (cs : List Char) : Except Refusal Rest :=
  let (least, rest) := takeCount blanks (skipBlanks blanks cs)
  match least, rest with
  | some _, '\x7d' :: rest => .ok (reluctant (skipBlanks blanks rest))
  | some least, ',' :: rest =>
    match skipBlanks blanks rest with
    | '\x7d' :: rest => .ok (reluctant (skipBlanks blanks rest))
    | rest =>
      match takeCount blanks rest with
      | (some most, '\x7d' :: rest) =>
        if least ≤ most then .ok (reluctant (skipBlanks blanks rest)) else .error .wrong
      | _ => .error .wrong
  | _, _ => .error .wrong
where
  /-- Passes the mark of a reluctant repetition. -/
  reluctant : List Char → Rest
    | '?' :: rest => rest
    | rest => rest

/-! ### Groups -/

/-- A character of a group's name. -/
def isNameChar (first : Bool) (c : Char) : Bool :=
  c == '_' || Character.alphabetic.contains c ||
    (!first && (c == '.' || c == '[' || c == ']' || (Character.ofCategoryGroup 'N').contains c))

/-- Takes the name of a group up to its closing bracket. -/
def takeName (cs : List Char) : Except Refusal (List Char × Rest) :=
  let name := cs.takeWhile (· != '>')
  match name, cs.drop name.length with
  | first :: more, _ :: rest =>
    if isNameChar true first && more.all (isNameChar false) then .ok (name, rest)
    else .error .wrong
  | _, _ => .error .wrong

/-- Takes flags up to the character that ends them; answers them without that character. -/
def takeFlags (cs : List Char) : Except Refusal (List Char × Rest) :=
  let flags := cs.takeWhile fun c => c != ':' && c != ')'
  if flags.all "imsUuRx-".toList.contains && flags.Nodup && flags.getLast? != some '-' then
    .ok (flags, cs.drop flags.length)
  else .error .wrong

def blanksAfter (flags : List Char) (blanks : Bool) : Bool :=
  if flags.contains 'x' then !(flags.takeWhile (· != 'x')).contains '-' else blanks

/-- How a group begins. -/
inductive Opening where
  | plain
  | named (name : List Char)
  | flags (flags : List Char)
  /-- Flags for the rest of the group around. -/
  | setFlags (flags : List Char)

/-- Takes the beginning of a group, its parenthesis taken. -/
def takeOpening (blanks : Bool) (cs : List Char) : Except Refusal (Opening × Rest) :=
  match skipBlanks blanks cs with
  | '?' :: '=' :: _ => .error .lookAround
  | '?' :: '!' :: _ => .error .lookAround
  | '?' :: '<' :: '=' :: _ => .error .lookAround
  | '?' :: '<' :: '!' :: _ => .error .lookAround
  | '?' :: 'P' :: '<' :: rest => (takeName rest).map fun (name, rest) => (.named name, rest)
  | '?' :: '<' :: rest => (takeName rest).map fun (name, rest) => (.named name, rest)
  | '?' :: rest => do
    match ← takeFlags rest with
    | (flags, ':' :: rest) => .ok (.flags flags, rest)
    | ([], ')' :: _) => .error .wrong
    | (flags, ')' :: rest) => .ok (.setFlags flags, rest)
    | _ => .error .wrong
  | rest => .ok (.plain, rest)

/-! ### Patterns -/

/-- What a sequence has as an item: an expression, by its depth, or flags. -/
abbrev Item := Option Nat

def sequenceDepth (items : List Item) : Nat :=
  match items with
  | [] => 0
  | [item] => item.getD 0
  | items => items.foldl (fun n item => max n (item.getD 0)) 0 + 1

/-- What has been read of a group: its sequences but the last by their depths, the items of the
last one, latest first, and whether blanks count for what is around it. -/
structure Level where
  sequences : List Nat := []
  items : List Item := []
  blanksOutside : Bool := false

namespace Level

/-- Adds an expression. -/
def push (l : Level) (depth : Nat) : Level :=
  { l with items := some depth :: l.items }

/-- Ends a sequence. -/
def split (l : Level) : Level :=
  { l with sequences := sequenceDepth l.items :: l.sequences, items := [] }

def depth (l : Level) : Nat :=
  match l.sequences with
  | [] => sequenceDepth l.items
  | sequences => (sequenceDepth l.items :: sequences).foldl max 0 + 1

/-- Repeats the last item; fails if there is none. -/
def repeatLast (l : Level) : Except Refusal Level :=
  match l.items with
  | some depth :: items => .ok { l with items := some (depth + 1) :: items }
  | _ => .error .wrong

end Level

/-- What is known while a pattern is read. -/
structure Progress where
  blanks : Bool := false
  names : List (List Char) := []
  /-- Where classes with short names stand, by how much of the text is left there. -/
  shorts : List Nat := []
  level : Level := {}
  outer : List Level := []

/-- How deep a pattern may be nested. -/
def depthLimit : Nat := 250

namespace Progress

/-- Adds an expression. -/
def push (p : Progress) (depth : Nat) : Progress :=
  { p with level := p.level.push depth }

/-- Goes on after the beginning of a group. -/
def enter (p : Progress) (opening : Opening) : Except Refusal Progress :=
  let inside (blanks : Bool) (names : List (List Char)) : Progress :=
    { p with
      blanks, names
      level := { blanksOutside := p.blanks }
      outer := p.level :: p.outer }
  match opening with
  | .plain => .ok (inside p.blanks p.names)
  | .named name =>
    if p.names.contains name then .error .wrong else .ok (inside p.blanks (name :: p.names))
  | .flags flags => .ok (inside (blanksAfter flags p.blanks) p.names)
  | .setFlags flags =>
    .ok { p with
      blanks := blanksAfter flags p.blanks
      level := { p.level with items := none :: p.level.items } }

/-- Goes on after the end of a group. -/
def leave (p : Progress) : Except Refusal Progress :=
  match p.outer with
  | [] => .error .wrong
  | l :: outer =>
    .ok { p with
      blanks := p.level.blanksOutside
      level := l.push (p.level.depth + 1)
      outer }

/-- Where short names stand in a class that lies between two places. -/
def shortsIn (cs rest : List Char) : List Nat :=
  go (cs.length - rest.length) cs []
where
  /-- Looks at so many characters. -/
  go : Nat → List Char → List Nat → List Nat
    | n + 2, '\\' :: c :: cs, found =>
      go n cs (if isShortName c then (cs.length + 2) :: found else found)
    | n + 1, _ :: cs, found => go n cs found
    | _, _, found => found

end Progress

/-- Reads a pattern; answers where its classes with short names stand. -/
def readGrammar : Nat → Progress → List Char → Except Refusal (List Nat)
  | 0, _, _ => .error .wrong
  | fuel + 1, p, cs =>
    match skipBlanks p.blanks cs with
    | [] =>
      if p.outer.isEmpty && p.level.depth ≤ depthLimit then .ok p.shorts else .error .wrong
    | '(' :: rest => do
      let (opening, rest) ← takeOpening p.blanks rest
      readGrammar fuel (← p.enter opening) rest
    | ')' :: rest => do readGrammar fuel (← p.leave) rest
    | '|' :: rest => readGrammar fuel { p with level := p.level.split } rest
    | '[' :: rest => do
      let (c, after) ← takeClass p.blanks rest
      let p := { p with shorts := Progress.shortsIn rest after ++ p.shorts }
      readGrammar fuel (p.push (c.depth)) after
    | '\x7b' :: rest => do
      let level ← p.level.repeatLast
      readGrammar fuel { p with level } (← skipLimits p.blanks rest)
    | '\\' :: rest => do
      let (e, after) ← takeEscape p.blanks rest
      let shorts :=
        match e with
        | .set (.short _) => (rest.length + 1) :: p.shorts
        | _ => p.shorts
      readGrammar fuel { p with shorts, level := p.level.push 0 } after
    | c :: rest =>
      if c == '*' || c == '+' || c == '?' then do
        let level ← p.level.repeatLast
        let rest :=
          match rest with
          | '?' :: rest => rest
          | rest => rest
        readGrammar fuel { p with level } rest
      else readGrammar fuel (p.push 0) rest

/-- Checks the text of a pattern; answers where its classes with short names stand, by how much
of the text is left there. -/
def checkGrammar (cs : List Char) : Except Refusal (List Nat) :=
  readGrammar (cs.length + 1) {} cs

end DocSchema.Pattern
