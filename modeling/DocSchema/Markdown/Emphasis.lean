/-
  DocSchema/Markdown/Emphasis.lean
  ================================
  **Inline constructs, and the pairing of delimiter runs.**

  A run of `*`, `_` or `~` that may close looks for the nearest run before it that may open and
  fits; what stands between the two becomes emphasis.  Runs that find no partner are text.  A
  run that may do both fits only where the lengths do not add up to a multiple of three.  Runs
  of `~` pair only with runs of the same length.

  The runs that are still open form a stack, the innermost first, each with the constructs that
  came after it.
-/
import DocSchema.Markdown.Token

namespace DocSchema.Markdown

/-! ### Inline constructs -/

/-- The kinds of emphasis. -/
inductive Stress where
  | emphasis
  | strong
  | strikethrough
  deriving DecidableEq, Repr

/-- A piece of inline content with its bounds in the text. -/
inductive Inline where
  /-- The characters between the bounds. -/
  | text (first last : Nat)
  /-- Other characters in their place. -/
  | replaced (first last : Nat) (chars : List Char)
  | softBreak (first last : Nat)
  | hardBreak (first last : Nat) (backslash : Bool)
  | code (first last : Nat) (chars : List Char)
  | html (first last : Nat) (chars : List Char)
  /-- A delimiter run whose part is not settled yet. -/
  | delimiter (first last : Nat) (mark : Char) (canOpen canClose : Bool)
  | stress (kind : Stress) (first last : Nat) (children : List Inline)
  | link (image : Bool) (first last : Nat) (destination title : List Char)
      (children : List Inline)
  | footnote (first last : Nat) (label : List Char)
  | taskMarker (first last : Nat) (checked : Bool)
  /-- A block among text, by its place. -/
  | block (first last : Nat) (index : Nat)
  deriving Repr

/-! ### Open runs -/

/-- A run that may open emphasis. -/
structure Run where
  mark : Char
  /-- The position of its first mark. -/
  first : Nat
  /-- The marks that are left. -/
  count : Nat
  /-- The marks that it had. -/
  size : Nat
  /-- Whether it might close emphasis too. -/
  both : Bool
  /-- The constructs after it, last first. -/
  content : List Inline

def Run.asText (r : Run) : Inline :=
  .text r.first (r.first + r.count)

/-- The runs that are open. -/
structure Runs where
  /-- The constructs before the first open run, last first. -/
  base : List Inline := []
  /-- The open runs, innermost first. -/
  stack : List Run := []
  /-- A run of `~` finds no partner among this many of the outermost runs. -/
  tildeBound : Nat := 0

namespace Runs

/-- Adds a construct after the innermost run. -/
def add (rs : Runs) (x : Inline) : Runs :=
  match rs.stack with
  | top :: rest => { rs with stack := { top with content := x :: top.content } :: rest }
  | [] => { rs with base := x :: rs.base }

def open' (rs : Runs) (r : Run) : Runs :=
  { rs with
    stack := r :: rs.stack,
    tildeBound := if r.mark == '~' then min rs.tildeBound rs.stack.length else rs.tildeBound }

/-- Whether an open run may pair with a closing run. -/
def fits (mark : Char) (size : Nat) (both : Bool) (r : Run) : Bool :=
  r.mark == mark && (mark != '~' || size == r.size) &&
    ((!both && !r.both) || (size + r.size) % 3 != 0 || size % 3 == 0)

/-- The innermost run that fits: the runs inside it, the run, and the runs around it. -/
def split? (mark : Char) (size : Nat) (both : Bool) : List Run → Option (List Run × Run × List Run)
  | [] => none
  | r :: rest =>
    if fits mark size both r then some ([], r, rest)
    else (split? mark size both rest).map fun (inner, found, outer) => (r :: inner, found, outer)

/-- The constructs inside a run, in order; the runs in between are text. -/
def contentOf (r : Run) (inner : List Run) : List Inline :=
  (inner.foldr (fun i acc => i.content ++ i.asText :: acc) r.content).reverse

/-- Wraps constructs in emphasis for `count` pairs of marks, two at a time from the inside
out. -/
def wrap (mark : Char) (openLast closeFirst : Nat) : Nat → Nat → List Inline → List Inline
  | 0, _, children => children
  | 1, used, children =>
    let kind := if mark == '~' then Stress.strikethrough else .emphasis
    [.stress kind (openLast - (used + 1)) (closeFirst + (used + 1)) children]
  | count + 2, used, children =>
    let kind := if mark == '~' then Stress.strikethrough else .strong
    wrap mark openLast closeFirst count (used + 2)
      [.stress kind (openLast - (used + 2)) (closeFirst + (used + 2)) children]

/-- Pairs a closing run, `count` marks of it from `first` on being left; answers how many
remain, and where. -/
def close (mark : Char) (size : Nat) (both : Bool) :
    Nat → Runs → Nat → Nat → Runs × Nat × Nat
  | 0, rs, first, count => (rs, first, count)
  | fuel + 1, rs, first, count =>
    if count == 0 then (rs, first, count)
    else
      let bound := if mark == '~' then min rs.tildeBound rs.stack.length else 0
      match split? mark size both (rs.stack.take (rs.stack.length - bound)) with
      | none =>
        let tildeBound := if mark == '~' then rs.stack.length else rs.tildeBound
        ({ rs with tildeBound }, first, count)
      | some (inner, r, outer) =>
        let outer := outer ++ rs.stack.drop (rs.stack.length - bound)
        let paired := min count r.count
        let nodes := wrap mark (r.first + r.count) first paired 0 (contentOf r inner)
        let kept : Runs :=
          { rs with stack := outer, tildeBound := min rs.tildeBound outer.length }
        let rs :=
          if paired < r.count then
            kept.open' { r with count := r.count - paired, content := nodes }
          else nodes.foldl add kept
        close mark size both fuel rs (first + paired) (count - paired)

/-- Takes the next construct of a block. -/
def take (rs : Runs) : Inline → Runs
  | .delimiter first last mark canOpen canClose =>
    let size := last - first
    let both := canOpen && canClose
    let (rs, first, count) :=
      if canClose then close mark size both (size + 1) rs first size else (rs, first, size)
    if count == 0 then rs
    else if canOpen then rs.open' ⟨mark, first, count, size, both, []⟩
    else rs.add (.text first (first + count))
  | x => rs.add x

/-- All constructs in order; the runs that are still open are text. -/
def finish (rs : Runs) : List Inline :=
  (rs.stack.foldr (fun r acc => r.content ++ r.asText :: acc) rs.base).reverse

end Runs

/-- Whether a construct is a delimiter run. -/
def Inline.isDelimiter : Inline → Bool
  | .delimiter .. => true
  | _ => false

/-- A backslash at the very end breaks no line: it is text. -/
def settleLastBreak : List Inline → List Inline
  | [] => []
  | [.hardBreak first last true] => [.replaced first last ['\\']]
  | x :: xs => x :: settleLastBreak xs

/-- Settles the delimiter runs among constructs. -/
def emphasize (xs : List Inline) : List Inline :=
  settleLastBreak (xs.foldl Runs.take {}).finish

/-- Settles the delimiter runs inside a link, if there are any. -/
def emphasizeWithin (xs : List Inline) : List Inline :=
  if xs.any Inline.isDelimiter then emphasize xs else xs

end DocSchema.Markdown
