/-
  DocSchema/Character/Set.lean
  ============================
  **Sets of characters.**

  A set is kept as the code points where membership changes, in ascending order: the first turn
  is where the set begins, the second where it is left, and so on.  So every set has one form,
  the complement turns at zero as well, and every operation on two sets is one walk over both
  (`merge`).
-/
namespace DocSchema

/-- A set of code points, by the places where membership changes. -/
structure CharSet where
  turns : List Nat
  deriving DecidableEq, Repr, Inhabited

namespace CharSet

/-- The highest code point. -/
def highest : Nat := 0x10FFFF

/-- Membership after the turns up to a code point, where it was `inside` before them. -/
def insideAfter (n : Nat) : Bool → List Nat → Bool
  | inside, [] => inside
  | inside, t :: ts => if t ≤ n then insideAfter n (!inside) ts else inside

/-- Whether a code point is in the set. -/
def has (s : CharSet) (n : Nat) : Bool :=
  insideAfter n false s.turns

def contains (s : CharSet) (c : Char) : Bool :=
  s.has c.toNat

/-! ### Building sets -/

def empty : CharSet := ⟨[]⟩

/-- The set of the code points between two, both included. -/
def range (first last : Nat) : CharSet :=
  if first ≤ last then ⟨[first, last + 1]⟩ else empty

def all : CharSet := range 0 highest

def point (n : Nat) : CharSet :=
  range n n

def single (c : Char) : CharSet :=
  point c.toNat

/-! ### Operations -/

/-- Walks over the turns of two sets; a place is a turn of the result where the operation's
answer changes. -/
def merge (op : Bool → Bool → Bool) : Bool → Bool → List Nat → List Nat → List Nat
  | _, _, [], [] => []
  | a, b, t :: ts, [] =>
    let rest := merge op (!a) b ts []
    if op a b != op (!a) b then t :: rest else rest
  | a, b, [], u :: us =>
    let rest := merge op a (!b) [] us
    if op a b != op a (!b) then u :: rest else rest
  | a, b, t :: ts, u :: us =>
    if t < u then
      let rest := merge op (!a) b ts (u :: us)
      if op a b != op (!a) b then t :: rest else rest
    else if u < t then
      let rest := merge op a (!b) (t :: ts) us
      if op a b != op a (!b) then u :: rest else rest
    else
      let rest := merge op (!a) (!b) ts us
      if op a b != op (!a) (!b) then t :: rest else rest
  termination_by _ _ ts us => ts.length + us.length

/-- Combines two sets by an operation that keeps out what is in neither. -/
def combine (op : Bool → Bool → Bool) (s t : CharSet) : CharSet :=
  ⟨merge op false false s.turns t.turns⟩

def union (s t : CharSet) : CharSet :=
  combine (· || ·) s t

def intersect (s t : CharSet) : CharSet :=
  combine (· && ·) s t

def difference (s t : CharSet) : CharSet :=
  combine (fun a b => a && !b) s t

/-- What is in exactly one of two sets. -/
def symmetricDifference (s t : CharSet) : CharSet :=
  combine (· != ·) s t

/-- All other characters. -/
def complement (s : CharSet) : CharSet :=
  all.difference s

def unionAll (sets : List CharSet) : CharSet :=
  sets.foldl union empty

def ofList (cs : List Char) : CharSet :=
  unionAll (cs.map single)

/-! ### Ranges -/

/-- The ranges of a list of turns, both ends included. -/
def rangesOf : List Nat → List (Nat × Nat)
  | first :: next :: rest => (first, next - 1) :: rangesOf rest
  | [first] => [(first, highest)]
  | [] => []

/-- The ranges of the set, both ends included. -/
def ranges (s : CharSet) : List (Nat × Nat) :=
  rangesOf s.turns

/-- Whether the set holds characters of ASCII alone. -/
def isAscii (s : CharSet) : Bool :=
  s.turns.all (· ≤ 0x80)

end CharSet

end DocSchema
