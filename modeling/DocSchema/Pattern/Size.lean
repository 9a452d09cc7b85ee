/-
  DocSchema/Pattern/Size.lean
  ===========================
  **The size of the automaton of a regular expression.**

  Expressions whose automaton takes more than ten mebibytes are refused.  The automaton reads
  bytes; every state takes 32 bytes of memory, and where it can go on in several ways 4 bytes for
  each.  A set of characters is read by all the sequences of byte ranges that its characters have
  in UTF-8, which share the states of common beginnings.
-/
import DocSchema.Pattern.Regular

namespace DocSchema.Pattern

/-! ### Sequences of byte ranges -/

abbrev ByteRange := Nat × Nat

/-- The bytes of a code point in UTF-8. -/
def bytesOf (n : Nat) : List Nat :=
  if n < 0x80 then [n]
  else if n < 0x800 then [0xC0 + n / 0x40, 0x80 + n % 0x40]
  else if n < 0x10000 then [0xE0 + n / 0x1000, 0x80 + n / 0x40 % 0x40, 0x80 + n % 0x40]
  else
    [0xF0 + n / 0x40000, 0x80 + n / 0x1000 % 0x40, 0x80 + n / 0x40 % 0x40, 0x80 + n % 0x40]

/-- Where a range of code points has to be cut so that the code points of each part have the
same number of bytes and none is a surrogate: parts are split at the first of these that lies
inside. -/
def lengthCut? (first last : Nat) : Option Nat :=
  [0x80, 0x800, 0xD800, 0xE000, 0x10000].find? fun n => first < n && n ≤ last

/-- Where a range has to be cut so that the last `i` bytes of its parts take all values. -/
def blockCut? (first last : Nat) : Option Nat :=
  [0x40, 0x1000, 0x40000].findSome? fun m =>
    if first / m == last / m then none
    else if first % m != 0 then some ((first / m + 1) * m)
    else if last % m != m - 1 then some (last / m * m)
    else none

/-- The sequences of byte ranges of a range of code points. -/
def sequencesOfRange : Nat → Nat → Nat → List (List ByteRange)
  | 0, _, _ => []
  | fuel + 1, first, last =>
    match (lengthCut? first last).orElse fun _ => blockCut? first last with
    | some cut => sequencesOfRange fuel first (cut - 1) ++ sequencesOfRange fuel cut last
    | none =>
      if 0xD800 ≤ first && first < 0xE000 then [] else [(bytesOf first).zip (bytesOf last)]

/-- The sequences of byte ranges of a set, in order. -/
def sequencesOf (s : CharSet) : List (List ByteRange) :=
  s.ranges.flatMap fun (first, last) => sequencesOfRange 32 first last

/-- How long the common beginning of two sequences is. -/
def sharedLength : List ByteRange → List ByteRange → Nat
  | a :: as, b :: bs => if a == b then sharedLength as bs + 1 else 0
  | _, _ => 0

/-- How many states sequences need, where each shares its beginning with the one before. -/
def statesOf : List ByteRange → List (List ByteRange) → Nat
  | _, [] => 0
  | before, s :: rest => s.length - sharedLength before s + statesOf s rest

/-! ### Sizes -/

/-- The memory that a state takes. -/
def stateSize : Nat := 32

/-- The memory that a way on takes. -/
def edgeSize : Nat := 4

/-- The memory for a set of characters. -/
def sizeOfSet (s : CharSet) : Nat :=
  match s.ranges with
  | [(first, last)] =>
    if first == last then (bytesOf first).length * stateSize
    else if last < 0x80 then 2 * stateSize
    else sizeOfSequences (sequencesOf s)
  | ranges =>
    if s.isAscii then 2 * stateSize + 2 * edgeSize * ranges.length
    else sizeOfSequences (sequencesOf s)
where
  /-- The memory for sequences of byte ranges. -/
  sizeOfSequences (sequences : List (List ByteRange)) : Nat :=
    (2 + statesOf [] sequences) * stateSize + sequences.length * edgeSize

namespace Regular

/-- The memory that the automaton of an expression takes. -/
def size : Regular → Nat
  | .empty => stateSize
  | .one set => sizeOfSet set
  | .assertion _ => stateSize
  | .both p q => size p + size q
  | .either p q => size p + size q + stateSize + 2 * edgeSize
  | .repeated p least most _ =>
    let branch := 2 * stateSize + 2 * edgeSize
    match most with
    | none => max 1 least * size p + branch
    | some most => most * size p + (most - least) * branch

/-- The memory that an automaton may take. -/
def sizeLimit : Nat := 10485760

/-- Whether the automaton of an expression is small enough. -/
def fits (r : Regular) : Bool :=
  r.size ≤ sizeLimit

end Regular

end DocSchema.Pattern
