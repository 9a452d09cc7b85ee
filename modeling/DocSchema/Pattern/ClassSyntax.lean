/-
  DocSchema/Pattern/ClassSyntax.lean
  ==================================
  **Character classes as they are written, and the sets they stand for.**

  A class in brackets lists characters, ranges, other classes and escapes, and may combine two
  such lists by an operator.  Whether case counts is not part of what is written: `set?` takes
  it as an argument and closes the members under case before anything is negated.
-/
import DocSchema.Character.AnyCase
import DocSchema.Character.Name

namespace DocSchema.Pattern

/-! ### Classes with short names -/

/-- The digits of all scripts: `\d`. -/
def digits : CharSet := Character.ofCategories ["Nd"]

/-- The class of a letter after a backslash. -/
def ofShortName (letter : Char) : CharSet :=
  match letter with
  | 'd' => digits
  | 's' => Character.whiteSpace
  | 'w' => Character.wordChars
  | 'D' => digits.complement
  | 'S' => Character.whiteSpace.complement
  | _ => Character.wordChars.complement

/-- Whether a letter after a backslash names a class. -/
def isShortName (letter : Char) : Bool :=
  ['d', 's', 'w', 'D', 'S', 'W'].contains letter

/-- The set of a range between two characters. -/
def between (first last : Char) : CharSet :=
  .range first.toNat last.toNat

/-- The class of a name in brackets and colons. -/
def ofPosixName? (name : String) : Option CharSet :=
  let lower := between 'a' 'z'
  let upper := between 'A' 'Z'
  let digit := between '0' '9'
  match name with
  | "alnum" => some (.unionAll [digit, upper, lower])
  | "alpha" => some (upper.union lower)
  | "ascii" => some (.range 0 0x7F)
  | "blank" => some (.ofList ['\t', ' '])
  | "cntrl" => some ((CharSet.range 0 0x1F).union (.point 0x7F))
  | "digit" => some digit
  | "graph" => some (between '!' '~')
  | "lower" => some lower
  | "print" => some (between ' ' '~')
  | "punct" => some ((between '!' '~').difference (.unionAll [digit, upper, lower]))
  | "space" => some (.ofList ['\t', '\n', '\x0b', '\x0c', '\r', ' '])
  | "upper" => some upper
  | "word" => some (.unionAll [digit, upper, lower, .single '_'])
  | "xdigit" => some (.unionAll [digit, between 'A' 'F', between 'a' 'f'])
  | _ => none

/-! ### Properties -/

/-- A property as it is written: a name alone, or a name and its value. -/
inductive PropertyName where
  | alone (name : List Char)
  | valued (name value : List Char)
  deriving DecidableEq, Repr

/-- The place of the first occurrence of a text. -/
def findText (part : List Char) : List Char → Option (List Char × List Char)
  | [] => none
  | c :: cs =>
    if part.isPrefixOf (c :: cs) then some ([], (c :: cs).drop part.length)
    else (findText part cs).map fun (before, after) => (c :: before, after)

/-- Reads what stands between the braces of a property; a name and a value may be joined by `=`,
`:` or `!=`, with the same meaning. -/
def PropertyName.read (text : List Char) : PropertyName :=
  match findText ['!', '='] text, findText [':'] text, findText ['='] text with
  | some (name, value), _, _ => .valued name value
  | none, some (name, value), _ => .valued name value
  | none, none, some (name, value) => .valued name value
  | none, none, none => .alone text

/-- The set of a property; `none` if there is no such property. -/
def PropertyName.set? : PropertyName → Option CharSet
  | .alone name => Character.ofName? name
  | .valued name value => Character.ofPropertyValue? name value

/-! ### Classes -/

/-- An operator between two classes. -/
inductive SetOperator where
  | intersection
  | difference
  | symmetricDifference
  deriving DecidableEq, Repr

def SetOperator.apply (op : SetOperator) (a b : CharSet) : CharSet :=
  match op with
  | .intersection => a.intersect b
  | .difference => a.difference b
  | .symmetricDifference => a.symmetricDifference b

/-- A class, or a part of one, as it is written. -/
inductive ClassSyntax where
  | nothing
  | range (first last : Char)
  | posix (set : CharSet) (negated : Bool)
  | short (letter : Char)
  | property (name : PropertyName) (negated : Bool)
  | bracket (inner : ClassSyntax) (negated : Bool)
  | join (a b : ClassSyntax)
  | operation (op : SetOperator) (a b : ClassSyntax)
  deriving Repr, Inhabited

namespace ClassSyntax

/-- The set, closed under case if case does not count. -/
def closed (anyCase : Bool) (s : CharSet) : CharSet :=
  if anyCase then s.anyCase else s

def negatedIf (negated : Bool) (s : CharSet) : CharSet :=
  if negated then s.complement else s

/-- The set that a class stands for; `none` if it names a property that there is not. -/
def set? (anyCase : Bool) : ClassSyntax → Option CharSet
  | .nothing => some .empty
  | .range first last => some (between first last)
  | .posix s negated => some (negatedIf negated (closed anyCase s))
  | .short letter => some (ofShortName letter)
  | .property name negated =>
    name.set?.map fun s => negatedIf negated (closed anyCase s)
  | .bracket inner negated =>
    (inner.set? anyCase).map fun s => negatedIf negated (closed anyCase s)
  | .join a b => do
    let s ← a.set? anyCase
    let t ← b.set? anyCase
    some (s.union t)
  | .operation op a b => do
    let s ← a.set? anyCase
    let t ← b.set? anyCase
    some (op.apply (closed anyCase s) (closed anyCase t))

/-- Puts an item behind others. -/
def add (items item : ClassSyntax) : ClassSyntax :=
  match items with
  | .nothing => item
  | items => .join items item

mutual

/-- How deep brackets, lists and operators are nested. -/
def depth : ClassSyntax → Nat
  | .bracket inner _ => depth inner + 1
  | .operation _ a b => max (depth a) (depth b) + 1
  | .join a b => max (depthInList a) (depthInList b) + 1
  | _ => 0

/-- The depth of an item of a list; the list counts once. -/
def depthInList : ClassSyntax → Nat
  | .bracket inner _ => depth inner + 1
  | .operation _ a b => max (depth a) (depth b) + 1
  | .join a b => max (depthInList a) (depthInList b)
  | _ => 0

end

end ClassSyntax

end DocSchema.Pattern
