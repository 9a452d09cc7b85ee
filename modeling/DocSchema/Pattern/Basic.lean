/-
  DocSchema/Pattern/Basic.lean
  ============================
  **Patterns.**

  `Pattern.read?` reads a pattern.  Its text has to fit the grammar; in what fits, the short
  classes mean the sets of the script language that schemas take their patterns from, where
  digits and word characters are ASCII.  A text that looks around or refers to groups is beyond
  the grammar, and taken as it is.
-/
import DocSchema.Pattern.Reader
import DocSchema.Pattern.Search

namespace DocSchema

/-- A pattern that can be looked for in texts. -/
inductive Pattern where
  | regular (r : Pattern.Regular)
  | planned (p : Pattern.Plan) (groups : Nat)
  deriving Repr

namespace Pattern

/-! ### Short classes -/

/-- What a short class means in the script language, as a class in brackets. -/
def scriptClass (letter : Char) : List Char :=
  match letter with
  | 'd' => "[0-9]".toList
  | 'D' => "[^0-9]".toList
  | 'w' => "[A-Za-z0-9_]".toList
  | 'W' => "[^A-Za-z0-9_]".toList
  | 's' => "[ \t\n\r\x0b\x0c\u00a0\ufeff\u2003\u2029]".toList
  | _ => "[^ \t\n\r\x0b\x0c\u00a0\ufeff\u2003\u2029]".toList

/-- Writes out the short classes that stand at some places, each given by how much of the text
is left there. -/
def expandShorts (places : List Nat) : List Char → List Char
  | '\\' :: c :: cs =>
    if places.contains (cs.length + 2) then scriptClass c ++ expandShorts places cs
    else '\\' :: c :: expandShorts places cs
  | c :: cs => c :: expandShorts places cs
  | [] => []

def controlChar (letter : Char) : Char :=
  Char.ofNat (letter.toNat % 32)

/-- The text of a pattern with the short classes and the control letters written out; `none` if
it does not fit the grammar. -/
def scriptText? : Nat → List Char → Option (List Char)
  | 0, _ => none
  | fuel + 1, cs =>
    match checkGrammar cs with
    | .ok places => some (expandShorts places cs)
    | .error .lookAround => some cs
    | .error .reference => some cs
    | .error (.control rest) =>
      match rest with
      | letter :: after =>
        if Text.isLetter letter then
          scriptText? fuel (cs.take (cs.length - rest.length - 2) ++ controlChar letter :: after)
        else none
      | [] => none
    | .error .wrong => none

/-! ### Reading and matching -/

/-- The pattern of an expression that something refers to these groups of. -/
def ofExpression? (e : Expression) (groups : Nat) (referenced : List Nat) : Option Pattern :=
  if e.isHard referenced then
    (Plan.search? referenced e).map fun p => .planned p (groups + 1)
  else (e.compact?).map .regular

def read? (text : String) : Option Pattern := do
  let cs := text.toList
  let (e, groups, referenced) ← readExpression? (← scriptText? (cs.length + 1) cs)
  ofExpression? e groups referenced

def find (p : Pattern) (text : String) : Verdict :=
  let chars := text.toList.toArray
  match p with
  | .regular r => if r.occurs chars then .found else .absent
  | .planned p groups => p.searchIn groups chars

/-- Whether the pattern is found somewhere in a text. -/
def isMatch (p : Pattern) (text : String) : Bool :=
  p.find text == .found

end Pattern

end DocSchema
