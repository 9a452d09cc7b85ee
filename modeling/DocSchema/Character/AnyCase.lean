/-
  DocSchema/Character/AnyCase.lean
  ================================
  **Sets of characters without regard to case.**

  Two characters differ only in case when they have the same simple folding, which replaces one
  character by one character.  `CharSet.anyCase` adds to a set whatever differs from a member
  only in case.
-/
import DocSchema.Character.Set
import DocSchema.Text.CaseFold

namespace DocSchema.Character

open DocSchema.Text

/-- The code points of a run of foldings, each with its folding. -/
def pairsOfRun (r : FoldRun) : List (Nat × Nat) :=
  (List.range ((r.last - r.first) / r.stride + 1)).map fun i =>
    let n := r.first + i * r.stride
    (n, ((n : Int) + r.shift).toNat)

/-- Simple foldings of characters whose full folding is longer than one character. -/
def shortenedFolds : List (Nat × Nat) :=
  let greek (first : Nat) : List (Nat × Nat) := (List.range 8).map fun i => (first + i, first + i - 8)
  [(0x1E9E, 0xDF), (0x1FBC, 0x1FB3), (0x1FCC, 0x1FC3), (0x1FD3, 0x390), (0x1FE3, 0x3B0),
    (0x1FFC, 0x1FF3), (0xFB05, 0xFB06)] ++ greek 0x1F88 ++ greek 0x1F98 ++ greek 0x1FA8

/-- The characters that folding changes, each with its simple folding. -/
def simpleFolds : List (Nat × Nat) :=
  foldRuns.flatMap pairsOfRun ++ shortenedFolds

end DocSchema.Character

namespace DocSchema.CharSet

open DocSchema.Character

/-- The set with all characters that differ from a member only in case. -/
def anyCase (s : CharSet) : CharSet :=
  let folded := (simpleFolds.filter fun (n, f) => s.has n || s.has f).map (·.2)
  let variants := simpleFolds.filterMap fun (n, f) => if folded.contains f then some n else none
  (folded ++ variants).foldl (fun acc n => if acc.has n then acc else acc.union (.point n)) s

end DocSchema.CharSet
