/-
  DocSchema/Pattern/Reader.lean
  =============================
  **Reading the expression of a pattern.**

  The text of a pattern is read generously: a brace that begins no repetition stands for itself,
  and groups may look around, be atomic or depend on a condition.  Flags hold from where they are
  set to the end of the innermost group that was opened with a colon; other groups do not limit
  them.  Groups are numbered as they are opened.
-/
import DocSchema.Pattern.Expression
import DocSchema.Pattern.Grammar

namespace DocSchema.Pattern

open DocSchema.Text

/-- The flags that hold at a place of a pattern. -/
structure Flags where
  anyCase : Bool := false
  manyLines : Bool := false
  dotIsAll : Bool := false
  reluctant : Bool := false
  blanks : Bool := false

/-- What is known while a pattern is read. -/
structure Reading where
  /-- The number of bytes of the whole text. -/
  size : Nat
  flags : Flags := {}
  /-- How many groups have been opened. -/
  groups : Nat := 0
  /-- The groups with names, the latest first. -/
  names : List (String × Nat) := []
  /-- Whether something refers to a group by a bare number. -/
  numbered : Bool := false
  /-- The groups that something refers to. -/
  referenced : List Nat := []

namespace Reading

/-! ### Blanks, numbers and names -/

/-- Passes the rest of a comment group; a backslash hides the character after it. -/
def skipComment? : List Char → Option Rest
  | [] => none
  | ')' :: cs => some cs
  | '\\' :: _ :: cs => skipComment? cs
  | _ :: cs => skipComment? cs

/-- Passes a comment to the end of its line. -/
def skipLine (cs : List Char) : Rest :=
  (cs.dropWhile (· != '\n')).drop 1

/-- Passes comment groups, and blanks and comments where they do not count. -/
def skip? (s : Reading) : Nat → List Char → Option Rest
  | 0, cs => some cs
  | fuel + 1, cs =>
    match cs with
    | '(' :: '?' :: '#' :: rest => (skipComment? rest).bind (s.skip? fuel)
    | c :: rest =>
      if !s.flags.blanks then some cs
      else if c == '#' then s.skip? fuel (skipLine rest)
      else if c == ' ' || c == '\r' || c == '\n' || c == '\t' then s.skip? fuel rest
      else some cs
    | [] => some []

/-- Passes what does not count. -/
def blanks? (s : Reading) (cs : List Char) : Option Rest :=
  s.skip? (cs.length + 1) cs

/-- The greatest number that can be written. -/
def maxNumber : Nat := 18446744073709551615

def takeNumber? (cs : List Char) : Option (Nat × Rest) :=
  let ds := cs.takeWhile isDigit
  let n := ds.foldl (fun n c => n * 10 + digitValue c) 0
  if ds.isEmpty || maxNumber < n then none else some (n, cs.drop ds.length)

/-- A character of a name. -/
def isIdentifierChar (c : Char) : Bool :=
  c == '_' || Character.alphabetic.contains c || (Character.ofCategoryGroup 'N').contains c

/-- Takes a name up to the character that closes it. -/
def takeIdentifier? (close : Char) (cs : List Char) : Option (String × Rest) :=
  let name := cs.takeWhile isIdentifierChar
  match cs.drop name.length with
  | c :: rest => if c == close && !name.isEmpty then some (String.ofList name, rest) else none
  | [] => none

/-- Refers to a group, which has to be open. -/
def refer? (s : Reading) (n : Nat) : Option (Nat × Reading) :=
  if n ≤ s.groups then some (n, { s with referenced := n :: s.referenced }) else none

/-- Takes a reference by number.  A number that no pattern of this size could reach is
refused. -/
def takeNumbered? (s : Reading) (cs : List Char) : Option (Nat × Reading × Rest) := do
  let (n, rest) ← takeNumber? cs
  if s.size / 2 ≤ n then none
  let (n, s) ← { s with numbered := true }.refer? n
  some (n, s, rest)

/-- Takes a reference by name, by number, or by how many groups back. -/
def takeNamed? (s : Reading) (close : Char) (cs : List Char) :
    Option (Nat × Reading × Rest) :=
  match cs with
  | '-' :: back => do
    let (name, rest) ← takeIdentifier? close back
    let (n, _) ← takeNumber? name.toList
    if n == 0 || s.groups < n then none
    let (n, s) ← s.refer? (s.groups + 1 - n)
    some (n, s, rest)
  | cs => do
    let (name, rest) ← takeIdentifier? close cs
    let named :=
      match s.names.lookup name with
      | some n => some n
      | none =>
        match takeNumber? name.toList with
        | some (n, []) => some n
        | _ => none
    let (n, s) ← s.refer? (← named)
    some (n, s, rest)

/-! ### Escapes and classes -/

/-- Takes a character by its code: so many digits, or up to eight in braces. -/
def takeHex? (width : Nat) (cs : List Char) : Option (Char × Rest) :=
  let plain := cs.take width
  if plain.length == width && plain.all fun c => (hexValue? c).isSome then
    (charOfHex? plain).map (·, cs.drop width)
  else
    match cs with
    | '\x7b' :: cs =>
      let digits := cs.takeWhile fun c => (hexValue? c).isSome
      match cs.drop digits.length with
      | '\x7d' :: rest =>
        if digits.length ≤ 8 then (charOfHex? digits).map (·, rest) else none
      | _ => none
    | _ => none

/-- Takes a property: one character, or a name in braces. -/
def takePropertyText? (cs : List Char) : Option (List Char × Rest) :=
  match cs with
  | '\x7b' :: inner =>
    let name := inner.takeWhile (· != '\x7d')
    match inner.drop name.length with
    | brace :: rest => some ('\x7b' :: name ++ [brace], rest)
    | [] => none
  | c :: rest => some ([c], rest)
  | [] => none

def hexDigitClass : List Char :=
  "[0-9A-Fa-f]".toList

/-- What an escape outside a class stands for, or inside one. -/
inductive Escape where
  | char (c : Char) (anyCase : Bool)
  /-- A class, as it is written. -/
  | classText (text : List Char) (anyCase : Bool)
  | expression (e : Expression)

/-- The character that a letter after a backslash stands for. -/
def charOfLetter? (inClass : Bool) (c : Char) : Option Char :=
  match c with
  | 'a' => some '\x07'
  | 'b' => some '\x08'
  | 'f' => some '\x0c'
  | 'n' => some '\n'
  | 'r' => some '\r'
  | 't' => some '\t'
  | 'v' => some '\x0b'
  | 'e' => some '\x1b'
  | c =>
    if !isLetter c || (inClass && ['k', 'A', 'z', 'B', 'K', 'G'].contains c) then some c else none

/-- Takes an escape that has a meaning only outside of classes. -/
def takeOutside? (s : Reading) (c : Char) (rest : List Char) :
    Option (Expression × Reading × Rest) :=
  let unlessBrace (e : Expression) : Option (Expression × Reading × Rest) :=
    match rest with
    | '\x7b' :: _ => none
    | _ => some (e, s, rest)
  match c with
  | 'k' =>
    let named :=
      match rest with
      | '\'' :: rest => s.takeNamed? '\'' rest
      | '<' :: rest => s.takeNamed? '>' rest
      | _ => none
    named.map fun (n, s, rest) => (.reference n, s, rest)
  | 'A' => some (.assertion .textStart, s, rest)
  | 'z' => some (.assertion .textEnd, s, rest)
  | 'b' => unlessBrace (.assertion .wordBoundary)
  | 'B' => unlessBrace (.assertion .noWordBoundary)
  | '<' => some (.assertion .wordStart, s, rest)
  | '>' => some (.assertion .wordEnd, s, rest)
  | 'K' => some (.keepOut, s, rest)
  | 'G' => some (.searchStart, s, rest)
  | _ => none

/-- Takes what follows a backslash. -/
def takeEscape? (s : Reading) (inClass : Bool) (cs : List Char) :
    Option (Escape × Reading × Rest) :=
  match cs with
  | [] => none
  | c :: rest =>
    let anyCase := s.flags.anyCase
    let char (width : Nat) := (takeHex? width rest).map fun (c, rest) =>
      (Escape.char c anyCase, s, rest)
    if isDigit c then
      (s.takeNumbered? cs).map fun (n, s, rest) => (.expression (.reference n), s, rest)
    else if !inClass && ['k', 'A', 'z', 'b', 'B', '<', '>', 'K', 'G'].contains c then
      (s.takeOutside? c rest).map fun (e, s, rest) => (.expression e, s, rest)
    else if isShortName c then some (.classText ['\\', c] anyCase, s, rest)
    else if c == 'h' then some (.classText hexDigitClass false, s, rest)
    else if c == 'H' then some (.classText ("[^".toList ++ hexDigitClass.drop 1) false, s, rest)
    else if c == 'x' then char 2
    else if c == 'u' then char 4
    else if c == 'U' then char 8
    else if (c == 'p' || c == 'P') && !rest.isEmpty then
      (takePropertyText? rest).map fun (name, rest) =>
        (.classText ('\\' :: c :: name) anyCase, s, rest)
    else (charOfLetter? inClass c).map fun c => (.char c false, s, rest)

/-- The set of a class as it is written. -/
def setOfText? (text : List Char) (anyCase : Bool) : Option CharSet :=
  match text with
  | '[' :: inner =>
    match takeClass false inner with
    | .ok (c, []) => c.set? anyCase
    | _ => none
  | '\\' :: escape =>
    match Pattern.takeEscape false escape with
    | .ok (.set c, []) => c.set? anyCase
    | _ => none
  | _ => none

/-- A character as it has to be written in a class. -/
def inClassText (c : Char) : List Char :=
  if "\\.+*?()|[]\x7b\x7d^$#&-~".toList.contains c then ['\\', c] else [c]

/-- Takes the text of a class up to the bracket that closes it; `nested` counts the brackets that
are open. -/
def takeClassText? (s : Reading) :
    Nat → Nat → List Char → Option (List Char × Reading × Rest)
  | 0, _, _ => none
  | fuel + 1, nested, cs =>
    match cs with
    | [] => none
    | '\\' :: rest => do
      let (e, s, rest) ← s.takeEscape? true rest
      let text ←
        match e with
        | .char c _ => some (inClassText c)
        | .classText text _ => some text
        | .expression _ => none
      let (more, s, rest) ← s.takeClassText? fuel nested rest
      some (text ++ more, s, rest)
    | ']' :: rest =>
      if nested == 1 then some ([']'], s, rest)
      else (s.takeClassText? fuel (nested - 1) rest).map fun (more, s, rest) =>
        (']' :: more, s, rest)
    | c :: rest =>
      (s.takeClassText? fuel (if c == '[' then nested + 1 else nested) rest).map
        fun (more, s, rest) => (c :: more, s, rest)

/-- Takes a class, its bracket taken. -/
def takeClass? (s : Reading) (cs : List Char) : Option (Expression × Reading × Rest) := do
  let (caret, cs) :=
    match cs with
    | '^' :: cs => (['^'], cs)
    | cs => ([], cs)
  let (bracket, cs) :=
    match cs with
    | ']' :: cs => ([']'], cs)
    | cs => ([], cs)
  let (text, s, rest) ← s.takeClassText? (cs.length + 1) 1 cs
  let set ← setOfText? ('[' :: caret ++ bracket ++ text) s.flags.anyCase
  some (.set set, s, rest)

/-! ### Repetitions -/

/-- The limits of a repetition. -/
structure Limits where
  least : Nat
  most : Option Nat

/-- Takes limits in braces, the opening one taken. -/
def takeLimits? (s : Reading) (cs : List Char) : Option (Limits × Rest) := do
  let cs ← s.blanks? cs
  let (least, cs) ←
    match cs with
    | ',' :: _ => some (0, cs)
    | cs => takeNumber? cs
  match ← s.blanks? cs with
  | '\x7d' :: rest => some (⟨least, some least⟩, rest)
  | ',' :: cs =>
    let cs ← s.blanks? cs
    let (most, cs) :=
      match takeNumber? cs with
      | some (n, cs) => (some n, cs)
      | none => (none, cs)
    match ← s.blanks? cs with
    | '\x7d' :: rest => some (⟨least, most⟩, rest)
    | _ => none
  | _ => none

def takeRepetition? (s : Reading) (cs : List Char) : Option (Limits × Rest) :=
  match cs with
  | '?' :: rest => some (⟨0, some 1⟩, rest)
  | '*' :: rest => some (⟨0, none⟩, rest)
  | '+' :: rest => some (⟨1, none⟩, rest)
  | '\x7b' :: rest => s.takeLimits? rest
  | _ => none

/-- Repeats an item if a repetition follows.  A question mark makes it reluctant, a plus sign
atomic. -/
def repeatItem? (s : Reading) (e : Expression) (cs : List Char) : Option (Expression × Rest) := do
  let cs ← s.blanks? cs
  match s.takeRepetition? cs with
  | none => some (e, cs)
  | some (limits, cs) =>
    if !e.isRepeatable then none
    let cs ← s.blanks? cs
    let (greedy, cs) :=
      match cs with
      | '?' :: cs => (false, cs)
      | cs => (true, cs)
    let e := .repeated e limits.least limits.most (greedy != s.flags.reluctant)
    match cs with
    | '+' :: cs => some (.atomic e, cs)
    | cs => some (e, cs)

/-! ### Flags -/

/-- Turns a flag on or off. -/
def setFlag? (on : Bool) (c : Char) (f : Flags) : Option Flags :=
  match c with
  | 'i' => some { f with anyCase := on }
  | 'm' => some { f with manyLines := on }
  | 's' => some { f with dotIsAll := on }
  | 'U' => some { f with reluctant := on }
  | 'x' => some { f with blanks := on }
  | 'u' => if on then some f else none
  | _ => none

/-- Takes flags up to the character that ends them. -/
def takeFlags? (on : Bool) (f : Flags) : List Char → Option (Flags × Rest)
  | [] => none
  | '-' :: rest => if on then takeFlags? false f rest else none
  | c :: rest =>
    if c == ')' || c == ':' then some (f, c :: rest)
    else (setFlag? on c f).bind fun f => takeFlags? on f rest

/-! ### Groups -/

/-- How a group begins. -/
inductive Start where
  | capture (name : Option String)
  | look (ahead expected : Bool)
  | atomic
  | reference
  | conditional
  | flags

/-- Tells the groups apart by how they begin, the parenthesis taken. -/
def startOf? (cs : List Char) : Option (Start × Rest) :=
  let named (cs : List Char) := (takeIdentifier? '>' cs).map fun (name, rest) =>
    (Start.capture (some name), rest)
  match cs with
  | '?' :: '=' :: rest => some (.look true true, rest)
  | '?' :: '!' :: rest => some (.look true false, rest)
  | '?' :: '<' :: '=' :: rest => some (.look false true, rest)
  | '?' :: '<' :: '!' :: rest => some (.look false false, rest)
  | '?' :: '<' :: rest => named rest
  | '?' :: 'P' :: '<' :: rest => named rest
  | '?' :: 'P' :: '=' :: rest => some (.reference, rest)
  | '?' :: '>' :: rest => some (.atomic, rest)
  | '?' :: '(' :: rest => some (.conditional, rest)
  | '?' :: rest => some (.flags, rest)
  | rest => some (.capture none, rest)

def openGroup (s : Reading) (name : Option String) : Nat × Reading :=
  let number := s.groups + 1
  let names :=
    match name with
    | some name => (name, number) :: s.names
    | none => s.names
  (number, { s with groups := number, names })

/-- Passes the parenthesis that closes a group. -/
def close? (s : Reading) (cs : List Char) : Option Rest :=
  match s.blanks? cs with
  | some (')' :: rest) => some rest
  | _ => none

def conditionalOf (condition branches : Expression) : Expression :=
  let (yes, no) :=
    match branches with
    | .alternatives [yes, no] => (yes, no)
    | .alternatives (yes :: others) => (yes, .alternatives others)
    | e => (e, .empty)
  let condition :=
    match condition with
    | .reference n => .entered n
    | c => c
  if yes.isEmpty && no.isEmpty then condition else .conditional condition yes no

/-- How deep groups may be nested. -/
def groupLimit : Nat := 64

/-! ### Expressions -/

def ofItems (items : List Expression) : Expression :=
  match items with
  | [] => .empty
  | [e] => e
  | items => .sequence items

/-- An expression that was read, what is known after it, and what is left. -/
abbrev Parsed := Option (Expression × Reading × Rest)

mutual

/-- Reads alternatives, up to what ends them; `depth` groups are open. -/
def readAlternatives : Nat → Nat → Reading → List Char → Parsed
  | 0, _, _, _ => none
  | fuel + 1, depth, s, cs => do
    let (first, s, cs) ← readSequence fuel depth [] s cs
    match ← s.blanks? cs with
    | '|' :: cs =>
      let (others, s, cs) ← readOthers fuel depth s cs
      some (.alternatives (first :: others), s, cs)
    | cs => if s.numbered && !s.names.isEmpty then none else some (first, s, cs)

/-- Reads the alternatives after a bar. -/
def readOthers :
    Nat → Nat → Reading → List Char → Option (List Expression × Reading × Rest)
  | 0, _, _, _ => none
  | fuel + 1, depth, s, cs => do
    let (e, s, cs) ← readSequence fuel depth [] s cs
    match ← s.blanks? cs with
    | '|' :: cs =>
      let (es, s, cs) ← readOthers fuel depth s cs
      some (e :: es, s, cs)
    | cs => some ([e], s, cs)

/-- Reads a sequence; `items` holds those read so far, latest first. -/
def readSequence : Nat → Nat → List Expression → Reading → List Char → Parsed
  | 0, _, _, _, _ => none
  | fuel + 1, depth, items, s, cs =>
    if cs.isEmpty then some (ofItems items.reverse, s, [])
    else do
      let (e, s, rest) ← readAtom fuel depth s cs
      let (e, rest) ← s.repeatItem? e rest
      if rest.length == cs.length then some (ofItems items.reverse, s, cs)
      else readSequence fuel depth (if e.isEmpty then items else e :: items) s rest

/-- Reads an item without its repetition; nothing is read where none can start. -/
def readAtom : Nat → Nat → Reading → List Char → Parsed
  | 0, _, _, _ => none
  | fuel + 1, depth, s, cs => do
    match ← s.blanks? cs with
    | [] => some (.empty, s, [])
    | '.' :: rest =>
      some (.set (if s.flags.dotIsAll then .all else (CharSet.single '\n').complement), s, rest)
    | '^' :: rest =>
      some (.assertion (if s.flags.manyLines then .lineStart else .textStart), s, rest)
    | '$' :: rest =>
      some (.assertion (if s.flags.manyLines then .lineEnd else .textEnd), s, rest)
    | '(' :: rest => readGroup fuel (depth + 1) s rest
    | '[' :: rest => s.takeClass? rest
    | '\\' :: rest =>
      match ← s.takeEscape? false rest with
      | (.char c anyCase, s, rest) => some (.char c anyCase, s, rest)
      | (.classText text anyCase, s, rest) =>
        (setOfText? text anyCase).map fun set => (.set set, s, rest)
      | (.expression e, s, rest) => some (e, s, rest)
    | c :: rest =>
      if ['+', '*', '?', '|', ')'].contains c then some (.empty, s, c :: rest)
      else some (.char c s.flags.anyCase, s, rest)

/-- Reads a group, its parenthesis taken. -/
def readGroup : Nat → Nat → Reading → List Char → Parsed
  | 0, _, _, _ => none
  | fuel + 1, depth, s, cs =>
    if groupLimit ≤ depth then none
    else do
      let (start, cs) ← startOf? (← s.blanks? cs)
      match start with
      | .reference =>
        (s.takeNamed? ')' cs).map fun (n, s, rest) => (.reference n, s, rest)
      | .conditional => readConditional fuel depth s cs
      | .flags =>
        let outside := s.flags
        let (flags, rest) ← takeFlags? true outside cs
        let s := { s with flags }
        let taken := cs.take (cs.length - rest.length)
        match rest with
        | ':' :: rest =>
          if taken == ['-'] then none
          else
            let (e, s, rest) ← readAlternatives fuel depth s rest
            match rest with
            | ')' :: rest => some (e, { s with flags := outside }, rest)
            | _ => none
        | _ => if taken == [] || taken == ['-'] then none else some (.empty, s, rest.drop 1)
      | .capture name =>
        let (number, s) := s.openGroup name
        let (e, s, rest) ← readAlternatives fuel depth s cs
        some (.group number e, s, ← s.close? rest)
      | .look ahead expected =>
        let (e, s, rest) ← readAlternatives fuel depth s cs
        some (.look ahead expected e, s, ← s.close? rest)
      | .atomic =>
        let (e, s, rest) ← readAlternatives fuel depth s cs
        some (.atomic e, s, ← s.close? rest)

/-- Reads a conditional, the parenthesis of its condition taken. -/
def readConditional : Nat → Nat → Reading → List Char → Parsed
  | 0, _, _, _ => none
  | fuel + 1, depth, s, cs => do
    let (condition, s, rest) ←
      match cs with
      | [] => none
      | '\'' :: name => (s.takeNamed? '\'' name).map fun (n, s, rest) => (.reference n, s, rest)
      | '<' :: name => (s.takeNamed? '>' name).map fun (n, s, rest) => (.reference n, s, rest)
      | c :: _ =>
        if isDigit c then
          (s.takeNumbered? cs).map fun (n, s, rest) => (.reference n, s, rest)
        else readAlternatives fuel depth s cs
    let rest ← s.close? rest
    let (branches, s, after) ← readAlternatives fuel depth s rest
    if after.length == rest.length then
      match condition with
      | .reference n => some (.entered n, s, ← s.close? after)
      | _ => none
    else some (conditionalOf condition branches, s, ← s.close? after)

end

end Reading

/-- Reads the expression of a pattern; answers it with how many groups it has and the groups
that something refers to. -/
def readExpression? (cs : List Char) : Option (Expression × Nat × List Nat) :=
  let size := cs.foldl (fun n c => n + c.utf8Size) 0
  match Reading.readAlternatives (8 * cs.length + 8) 0 { size } cs with
  | some (e, s, []) => some (e, s.groups, s.referenced)
  | _ => none

end DocSchema.Pattern
