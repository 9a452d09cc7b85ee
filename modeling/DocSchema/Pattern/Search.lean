/-
  DocSchema/Pattern/Search.lean
  =============================
  **Searching by a plan.**

  A search goes through the tasks of a plan from place to place.  Where there are several ways
  it takes the first and keeps the others as choices; at a dead end it takes up the latest of
  them.  After a million dead ends it gives up.
-/
import DocSchema.Pattern.Plan

namespace DocSchema.Pattern

/-! ### The state of a search -/

/-- What is still to be done. -/
inductive Task where
  | run (p : Plan)
  | save (slot : Nat)
  | restore (place : Nat)
  /-- Any number of repetitions. -/
  | star (p : Plan) (greedy : Bool)
  /-- Further repetitions after one. -/
  | plus (p : Plan) (greedy : Bool)
  /-- Repetitions after `done` of them. -/
  | counted (p : Plan) (least : Nat) (most : Option Nat) (greedy : Bool) (done : Nat)
  /-- Repetitions after `done` of them, the last of which began at `last`; one that matches
  nothing is a dead end. -/
  | growing (p : Plan) (least : Nat) (greedy : Bool) (done : Nat) (last : Option Nat)
  /-- What was looked for in vain is there. -/
  | refuse (depth : Nat)
  /-- Drops the choices since the latest mark. -/
  | cut
  deriving Repr, Inhabited

/-- A way through the text: what is to be done, the place, where groups begin and end, and
how many choices there were where atomic parts began. -/
structure Thread where
  tasks : List Task
  place : Nat
  slots : Array (Option Nat)
  marks : List Nat := []

/-- Other ways, the latest first, and how many there are. -/
structure Choices where
  threads : List Thread := []
  depth : Nat := 0

namespace Choices

/-- Adds a way. -/
def push (c : Choices) (t : Thread) : Choices :=
  ⟨t :: c.threads, c.depth + 1⟩

/-- Drops the latest ways until so many are left. -/
def dropTo (c : Choices) (depth : Nat) : Choices :=
  if depth < c.depth then ⟨c.threads.drop (c.depth - depth), depth⟩ else c

end Choices

/-- What a step leads to. -/
inductive Next where
  | go (t : Thread) (c : Choices)
  | deadEnd (c : Choices)
  | found

/-! ### Steps -/

namespace Thread

def withTasks (t : Thread) (tasks : List Task) : Thread :=
  { t with tasks }

/-- Goes on if a condition holds. -/
def goIf (t : Thread) (c : Choices) (condition : Bool) (tasks : List Task) : Next :=
  if condition then .go (t.withTasks tasks) c else .deadEnd c

/-- Goes one of two ways, keeping the other: the first one if greedy. -/
def fork (t : Thread) (c : Choices) (greedy : Bool) (more less : List Task) : Next :=
  let (now, later) := if greedy then (more, less) else (less, more)
  .go (t.withTasks now) (c.push (t.withTasks later))

/-- The text of a group, if it has been matched. -/
def groupText? (t : Thread) (text : Array Char) (number : Nat) : Option (Array Char) := do
  let first ← (t.slots[2 * number]?).join
  let last ← (t.slots[2 * number + 1]?).join
  some (text.extract first last)

/-- Goes back by some characters, if there are so many. -/
def goBack (t : Thread) (c : Choices) (back : Nat) (tasks : List Task) : Next :=
  if t.place < back then .deadEnd c
  else .go { t with place := t.place - back, tasks } c

def beginRepeat (p : Plan) (least : Nat) (most : Option Nat) (greedy nullable : Bool) :
    List Task :=
  match least, most with
  | least, none =>
    if nullable then [.growing p least greedy 0 none]
    else
      match least with
      | 0 => [.star p greedy]
      | 1 => [.run p, .plus p greedy]
      | least => [.counted p least none greedy 0]
  | least, most => [.counted p least most greedy 0]

/-- Begins a part of a plan; `rest` are the tasks after it. -/
def begin (t : Thread) (c : Choices) (text : Array Char) (p : Plan) (rest : List Task) : Next :=
  match p with
  | .nothing => .go (t.withTasks rest) c
  | .whole r =>
    match r.firstEnd text t.place with
    | some place => .go { t with place, tasks := rest } c
    | none => .deadEnd c
  | .one set =>
    if text[t.place]?.any set.contains then
      .go { t with place := t.place + 1, tasks := rest } c
    else .deadEnd c
  | .assertion a => t.goIf c (a.holds text t.place) rest
  | .sequence parts => .go (t.withTasks (parts.map .run ++ rest)) c
  | .alternatives [] => .go (t.withTasks rest) c
  | .alternatives [p] => .go (t.withTasks (.run p :: rest)) c
  | .alternatives (p :: others) =>
    t.fork c true (.run p :: rest) (.run (.alternatives others) :: rest)
  | .group n p => .go (t.withTasks (.save (2 * n) :: .run p :: .save (2 * n + 1) :: rest)) c
  | .repeated p 0 (some 1) greedy _ => t.fork c greedy (.run p :: rest) rest
  | .repeated p least most greedy nullable =>
    .go (t.withTasks (beginRepeat p least most greedy nullable ++ rest)) c
  | .look back p => t.goBack c back (.run p :: .restore t.place :: rest)
  | .lookNot back p =>
    t.goBack (c.push (t.withTasks rest)) back [.run p, .refuse c.depth]
  | .atomic p =>
    .go { t with marks := c.depth :: t.marks, tasks := .run p :: .cut :: rest } c
  | .reference n =>
    match t.groupText? text n with
    | none => .deadEnd c
    | some part =>
      let place := t.place + part.size
      if text.extract t.place place == part then .go { t with place, tasks := rest } c
      else .deadEnd c
  | .entered n => t.goIf c (t.slots[2 * n]?).join.isSome rest
  | .conditional condition yes no =>
    let t := { t with marks := c.depth :: t.marks }
    t.fork c true (.run condition :: .cut :: .run yes :: rest) (.run no :: rest)
  | .searchStart => t.goIf c (t.place == 0) rest

def step (t : Thread) (c : Choices) (text : Array Char) : Next :=
  match t.tasks with
  | [] => .found
  | .run p :: rest => t.begin c text p rest
  | .save slot :: rest =>
    .go { t with slots := t.slots.setIfInBounds slot (some t.place), tasks := rest } c
  | .restore place :: rest => .go { t with place, tasks := rest } c
  | .star p greedy :: rest => t.fork c greedy (.run p :: .star p greedy :: rest) rest
  | .plus p greedy :: rest => t.fork c greedy (.run p :: .plus p greedy :: rest) rest
  | .counted p least most greedy done :: rest =>
    let again := .run p :: .counted p least most greedy (done + 1) :: rest
    if some done == most then .go (t.withTasks rest) c
    else if done < least then .go (t.withTasks again) c
    else t.fork c greedy again rest
  | .growing p least greedy done last :: rest =>
    if 0 < done && last == some t.place then .deadEnd c
    else if done < least then
      .go (t.withTasks (.run p :: .growing p least greedy (done + 1) last :: rest)) c
    else
      t.fork c greedy (.run p :: .growing p least greedy (done + 1) (some t.place) :: rest) rest
  | .refuse depth :: _ => .deadEnd (c.dropTo depth)
  | .cut :: rest =>
    match t.marks with
    | mark :: marks => .go { t with marks, tasks := rest } (c.dropTo mark)
    | [] => .go (t.withTasks rest) c

end Thread

/-! ### Searches -/

/-- What comes of a search. -/
inductive Verdict where
  | found
  | absent
  | givenUp
  deriving DecidableEq, Repr

/-- How many dead ends are met before a search gives up. -/
def deadEndLimit : Nat := 1000000

/-- How many steps a search takes at most: so many between any two dead ends that only a search
without end could need more. -/
def stepLimit : Nat := deadEndLimit * deadEndLimit

/-- Searches on; `ends` counts the dead ends so far. -/
def searchFrom (text : Array Char) : Nat → Nat → Thread → Choices → Verdict
  | 0, _, _, _ => .givenUp
  | fuel + 1, ends, t, c =>
    match t.step c text with
    | .found => .found
    | .go t c => searchFrom text fuel ends t c
    | .deadEnd c =>
      match c.threads with
      | [] => .absent
      | t :: threads =>
        if ends == deadEndLimit then .givenUp
        else searchFrom text fuel (ends + 1) t ⟨threads, c.depth - 1⟩

/-- Searches a text by a plan whose groups are numbered below a bound. -/
def Plan.searchIn (p : Plan) (groups : Nat) (text : Array Char) : Verdict :=
  searchFrom text stepLimit 0 ⟨[.run p], 0, Array.replicate (2 * groups) none, []⟩ {}

end DocSchema.Pattern
