/-
  DocSchema/Pattern/Plan.lean
  ===========================
  **How a hard expression is searched for.**

  A plan says which parts of an expression are matched as a whole, in their preferred way and no
  other (`whole`), and which are tried in all their ways.  A part is matched as a whole where
  nothing behind it could ask for another way: at the end, in front of everything, or where it has
  one size only.
-/
import DocSchema.Pattern.Expression

namespace DocSchema.Pattern

/-- A plan. -/
inductive Plan where
  | whole (r : Regular)
  | one (set : CharSet)
  | assertion (a : Assertion)
  | sequence (parts : List Plan)
  | alternatives (parts : List Plan)
  | group (number : Nat) (p : Plan)
  /-- A repetition; `nullable` if the part may match nothing. -/
  | repeated (p : Plan) (least : Nat) (most : Option Nat) (greedy nullable : Bool)
  /-- A match that starts so many characters before; the place stays. -/
  | look (back : Nat) (p : Plan)
  | lookNot (back : Nat) (p : Plan)
  | atomic (p : Plan)
  | reference (number : Nat)
  | entered (number : Nat)
  | conditional (condition yes no : Plan)
  | nothing
  | searchStart
  deriving Repr, Inhabited

namespace Plan

/-- The plan of a look, if its part has a fixed size or lies ahead. -/
def ofLook? (ahead expected : Bool) (e : Expression) (p : Plan) : Option Plan :=
  let make (back : Nat) : Plan := if expected then .look back p else .lookNot back p
  if ahead then some (make 0) else if e.isFixed then some (make e.minSize) else none

/-- Whether a part is easy and has one size. -/
def isSimple (referenced : List Nat) (e : Expression) : Bool :=
  e.isFixed && !e.isHard referenced

/-- How many parts are matched as a whole in front of a sequence and at its end. -/
def wholeCounts (referenced : List Nat) (hard : Bool) (items : List Expression) : Nat × Nat :=
  let front := (items.takeWhile (isSimple referenced)).length
  let fits (e : Expression) : Bool :=
    if hard then isSimple referenced e else !e.isHard referenced
  (front, ((items.drop front).reverse.takeWhile fits).length)

/-- The parts of a sequence that are matched as a whole, as one plan or none. -/
def wholeOf? (items : List Expression) : Option (List Plan) :=
  if items.isEmpty then some []
  else (Expression.compact? (.sequence items)).map fun r => [.whole r]

mutual

/-- The plan of an expression; `hard` if what follows may ask for other ways. -/
def of? (referenced : List Nat) (hard : Bool) (e : Expression) : Option Plan :=
  if !hard && !e.isHard referenced then e.compact?.map .whole
  else
    match e with
    | .empty => some .nothing
    | .char _ true => e.compact?.map .whole
    | .char c false => some (.one (.single c))
    | .set s => some (.one s)
    | .assertion a => some (.assertion a)
    | .sequence items => do
      let (front, back) := wholeCounts referenced hard items
      let first ← wholeOf? (items.take front)
      let middle ← ofMiddle? referenced front (items.length - front - back) items
      let last ← wholeOf? (items.drop (items.length - back))
      some (.sequence (first ++ middle ++ last))
    | .alternatives items => (ofAll? referenced hard items).map .alternatives
    | .group n e => (of? referenced hard e).map (.group n)
    | .repeated e least most greedy =>
      let single := least == 0 && most == some 1
      (of? referenced (hard || (!single && e.isHard referenced)) e).map fun p =>
        .repeated p least most greedy (e.minSize == 0)
    | .look ahead expected e =>
      if ahead || e.isFixed then (of? referenced false e).bind (ofLook? ahead expected e)
      else
        (ofLooks? referenced expected e).map fun looks =>
          if expected then .alternatives looks else .sequence looks
    | .atomic e => (of? referenced false e).map .atomic
    | .reference n => some (.reference n)
    | .entered n => some (.entered n)
    | .conditional c yes no => do
      let c ← of? referenced hard c
      let yes ← of? referenced hard yes
      let no ← of? referenced hard no
      some (.conditional c yes no)
    | .keepOut => some .nothing
    | .searchStart => some .searchStart

def ofAll? (referenced : List Nat) (hard : Bool) : List Expression → Option (List Plan)
  | [] => some []
  | e :: es => do
    let p ← of? referenced hard e
    let ps ← ofAll? referenced hard es
    some (p :: ps)

/-- The plans of the middle of a sequence: so many parts behind so many others. -/
def ofMiddle? (referenced : List Nat) :
    Nat → Nat → List Expression → Option (List Plan)
  | _, _, [] => some []
  | skip + 1, count, _ :: es => ofMiddle? referenced skip count es
  | 0, 0, _ => some []
  | 0, count + 1, e :: es => do
    let p ← of? referenced true e
    let ps ← ofMiddle? referenced 0 count es
    some (p :: ps)

/-- Plans that look behind for alternatives of different sizes, one by one. -/
def ofLooks? (referenced : List Nat) (expected : Bool) : Expression → Option (List Plan)
  | .alternatives items => ofEachLook? referenced expected items
  | _ => none

/-- Plans that look behind for several expressions. -/
def ofEachLook? (referenced : List Nat) (expected : Bool) : List Expression → Option (List Plan)
  | [] => some []
  | e :: es => do
    let p ← (of? referenced false e).bind (ofLook? false expected e)
    let ps ← ofEachLook? referenced expected es
    some (p :: ps)

end

/-- The plan of a search: the expression may start anywhere, early places first. -/
def search? (referenced : List Nat) (e : Expression) : Option Plan := do
  let p ← of? referenced true e
  some (.sequence [.repeated (.one .all) 0 none false false, .group 0 p])

end Plan

end DocSchema.Pattern
