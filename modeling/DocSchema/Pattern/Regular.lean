/-
  DocSchema/Pattern/Regular.lean
  ==============================
  **Regular expressions, and how they match.**

  `reach` finds all places where a match can end, for many starts at once.  `ends` starts at one
  place and answers them in order of preference: of alternatives the earlier, of repetitions the
  longer or, for reluctant ones, the shorter.  There a place that is reached again later is left
  out, for nothing that follows could tell the difference.  So neither answer is longer than the
  text, and repetitions end.
-/
import DocSchema.Character.Trait

namespace DocSchema.Pattern

open DocSchema.Text

/-! ### Conditions on a place -/

/-- A condition on a place of a text. -/
inductive Assertion where
  | textStart
  | textEnd
  | lineStart
  | lineEnd
  | wordBoundary
  | noWordBoundary
  | wordStart
  | wordEnd
  deriving DecidableEq, Repr

def wordSet : CharSet := Character.wordChars

/-- Whether the character at a place is part of a word. -/
def isWordAt (text : Array Char) (i : Nat) : Bool :=
  text[i]?.any wordSet.contains

/-- Whether the character in front of a place is part of a word. -/
def isWordBefore (text : Array Char) (i : Nat) : Bool :=
  i != 0 && isWordAt text (i - 1)

def Assertion.holds (a : Assertion) (text : Array Char) (i : Nat) : Bool :=
  match a with
  | .textStart => i == 0
  | .textEnd => i == text.size
  | .lineStart => i == 0 || text[i - 1]? == some '\n'
  | .lineEnd => i == text.size || text[i]? == some '\n'
  | .wordBoundary => isWordBefore text i != isWordAt text i
  | .noWordBoundary => isWordBefore text i == isWordAt text i
  | .wordStart => !isWordBefore text i && isWordAt text i
  | .wordEnd => isWordBefore text i && !isWordAt text i

/-! ### Regular expressions -/

/-- A regular expression. -/
inductive Regular where
  | empty
  | one (set : CharSet)
  | assertion (a : Assertion)
  | both (first second : Regular)
  | either (a b : Regular)
  /-- At least `least` matches in a row, at most `most` if there is such a limit. -/
  | repeated (r : Regular) (least : Nat) (most : Option Nat) (greedy : Bool)
  deriving Repr, Inhabited

namespace Regular

/-! ### Sets of places -/

/-- The union of two ascending lists. -/
def mergePlaces : List Nat → List Nat → List Nat
  | [], js => js
  | is, [] => is
  | i :: is, j :: js =>
    if i < j then i :: mergePlaces is (j :: js)
    else if j < i then j :: mergePlaces (i :: is) js
    else i :: mergePlaces is js
  termination_by is js => is.length + js.length

/-- The places of one ascending list that are not in another. -/
def removePlaces : List Nat → List Nat → List Nat
  | [], _ => []
  | is, [] => is
  | i :: is, j :: js =>
    if i < j then i :: removePlaces is (j :: js)
    else if j < i then removePlaces (i :: is) js
    else removePlaces is js
  termination_by is js => is.length + js.length

/-- What exactly `n` steps make of a value; when a step changes nothing, no further one does. -/
def after {α : Type} [BEq α] (step : α → α) : Nat → α → α
  | 0, x => x
  | n + 1, x =>
    let next := step x
    if next == x then x else after step n next

/-- The places reached by up to `n` steps; `latest` are those that the last step added. -/
def within (step : List Nat → List Nat) : Nat → List Nat → List Nat → List Nat
  | 0, seen, _ => seen
  | n + 1, seen, latest =>
    let next := removePlaces (step latest) seen
    if next.isEmpty then seen else within step n (mergePlaces seen next) next

/-- The places where matches that start at some places can end, in ascending order. -/
def reach (text : Array Char) : Regular → List Nat → List Nat
  | .empty, is => is
  | .one set, is => (is.filter fun i => text[i]?.any set.contains).map (· + 1)
  | .assertion a, is => is.filter fun i => a.holds text i
  | .both p q, is => reach text q (reach text p is)
  | .either p q, is => mergePlaces (reach text p is) (reach text q is)
  | .repeated p least most _, is =>
    let start := after (reach text p) least is
    let more :=
      match most with
      | none => text.size + 1
      | some most => min (most - least) (text.size + 1)
    within (reach text p) more start start

/-- Whether there is a match somewhere in a text. -/
def occurs (r : Regular) (text : Array Char) : Bool :=
  !(r.reach text (List.range (text.size + 1))).isEmpty

/-! ### Places in order of preference -/

/-- The places of a list, without those that stand in it before. -/
def distinct (places : List Nat) : List Nat :=
  (places.foldl (fun acc i => if acc.contains i then acc else i :: acc) []).reverse

def image (step : Nat → List Nat) (places : List Nat) : List Nat :=
  match places with
  | [i] => step i
  | places => distinct (places.flatMap step)

/-- What a walk through repetitions has seen and found: a mark for each place with each number
of steps left, and the places found, latest first. -/
structure Walk where
  seen : Array Bool
  found : List Nat := []

/-- Adds a place that may have been found before. -/
def Walk.find (w : Walk) (i : Nat) : Walk :=
  if w.found.contains i then w else { w with found := i :: w.found }

/-- Walks on from a place by up to `left` steps, or any number of them.  A place counts after
those that are reached from it or, for reluctant repetitions, before; a step that stays where it
is counts in its turn and leads no further. -/
def walk (step : Nat → List Nat) (greedy : Bool) (size : Nat) :
    Nat → Option Nat → Walk → Nat → Walk
  | 0, _, w, _ => w
  | fuel + 1, left, w, i =>
    let key := left.getD 0 * size + i
    if w.seen.getD key true then w
    else
      let w := { w with seen := w.seen.setIfInBounds key true }
      if left == some 0 then w.find i
      else
        let w := if greedy then w else w.find i
        let w := (step i).foldl (fun w j =>
          if j == i then w.find i else walk step greedy size fuel (left.map (· - 1)) w j) w
        if greedy then w.find i else w

/-- The places reached from some places by up to so many steps, or by any number of them. -/
def walkAll (step : Nat → List Nat) (greedy : Bool) (size : Nat) (left : Option Nat)
    (places : List Nat) : List Nat :=
  let left := left.map (min size)
  let blank : Walk := { seen := Array.replicate ((left.getD 0 + 1) * size) false }
  (places.foldl (walk step greedy size (size + 1) left) blank).found.reverse

/-- The places where a match that starts at `i` can end, the preferred one first. -/
def ends (text : Array Char) : Regular → Nat → List Nat
  | .empty, i => [i]
  | .one set, i => if text[i]?.any set.contains then [i + 1] else []
  | .assertion a, i => if a.holds text i then [i] else []
  | .both p q, i => image (ends text q) (ends text p i)
  | .either p q, i => distinct (ends text p i ++ ends text q i)
  | .repeated p least most greedy, i =>
    walkAll (ends text p) greedy (text.size + 1) (most.map (· - least))
      (after (image (ends text p)) least [i])

/-- The preferred end of a match that starts at a place. -/
def firstEnd (r : Regular) (text : Array Char) (i : Nat) : Option Nat :=
  (r.ends text i).head?

/-! ### Building expressions -/

def sequence : List Regular → Regular
  | [] => .empty
  | [r] => r
  | r :: rest => .both r (sequence rest)

def alternatives : List Regular → Regular
  | [] => .empty
  | [r] => r
  | r :: rest => .either r (alternatives rest)

end Regular

end DocSchema.Pattern
