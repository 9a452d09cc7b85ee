/-
  DocSchema/Character/Table.lean
  ==============================
  **How tables of character properties are written.**

  Numbers are in base 36.  A table of *runs* gives a code to every code point, from zero on: a
  code starts with a capital letter and has a fixed length, and after it stands how many code
  points in a row have it, if not just one.  A table of *ranges* lists a set: each range is the
  distance to it from the range before and, after a plus sign, how many code points it has
  beyond its first.
-/
import DocSchema.Character.Set
import DocSchema.Text.Split

namespace DocSchema.Character

def digitValue36 (c : Char) : Nat :=
  if c.isDigit then c.toNat - 48 else c.toNat - 87

/-- The value of a number in base 36. -/
def number36 (cs : List Char) : Nat :=
  cs.foldl (fun n c => n * 36 + digitValue36 c) 0

/-! ### Runs -/

/-- A code, and how many code points in a row have it. -/
abbrev Run := String × Nat

def readRun (codeLength : Nat) (cs : List Char) : Run :=
  let digits := cs.drop codeLength
  (String.ofList (cs.take codeLength), if digits.isEmpty then 1 else number36 digits)

/-- Reads a table of runs, whose codes have so many letters. -/
def readRuns (codeLength : Nat) (lines : List String) : List Run :=
  (lines.flatMap fun line => line.toList.splitBy fun _ c => !c.isUpper).map (readRun codeLength)

/-- Where membership changes, if the code points with some codes are members; `n` is the first
code point of the runs, `inside` whether the one before it is a member. -/
def turnsOfRuns (member : String → Bool) : Nat → Bool → List Run → List Nat
  | n, inside, [] => if inside then [n] else []
  | n, inside, (code, length) :: rest =>
    let turns := turnsOfRuns member (n + length) (member code) rest
    if member code != inside then n :: turns else turns

/-- The set of the code points with some codes. -/
def setOfRuns (runs : List Run) (member : String → Bool) : CharSet :=
  ⟨turnsOfRuns member 0 false runs⟩

/-! ### Ranges -/

/-- Reads the distance and the extent of a range. -/
def readRange (cs : List Char) : Nat × Nat :=
  let distance := cs.takeWhile (· != '+')
  (number36 distance, number36 (cs.drop (distance.length + 1)))

/-- The turns of ranges; `n` is the first code point after the range before. -/
def turnsOfRanges : Nat → List (Nat × Nat) → List Nat
  | _, [] => []
  | n, (distance, extent) :: rest =>
    let first := n + distance
    let next := first + extent + 1
    first :: next :: turnsOfRanges next rest

def wordsOf (line : String) : List (List Char) :=
  Text.splitAt ' ' line.toList

def readRanges (lines : List String) : CharSet :=
  ⟨turnsOfRanges 0 ((lines.flatMap wordsOf).map readRange)⟩

end DocSchema.Character
