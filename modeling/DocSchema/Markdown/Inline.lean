/-
  DocSchema/Markdown/Inline.lean
  ==============================
  **The inline content of a block.**

  `inlines` reads the tokens of a block from left to right and settles what each one is.  Code
  spans, HTML and addresses in angle brackets take up the tokens they cover.  A closing bracket
  looks for the bracket it closes and for a target: in parentheses after it, in a label after
  it, or in its own text as a label.  A link holds no links: once one is found, the brackets
  before it no longer open any.
-/
import DocSchema.Markdown.Block
import DocSchema.Markdown.Emphasis

namespace DocSchema.Markdown

open DocSchema.Text

/-- What the content of a block refers to. -/
structure References where
  /-- The link references by the key of their label; of several the first counts. -/
  links : List (List Char × LinkTarget)
  /-- The keys of the footnote labels. -/
  notes : List (List Char)

/-- Where a block stands: its text, cut off at its end, the containers around it, and whether
it is the cell of a table. -/
structure Place where
  window : Window
  containers : List Container
  inTable : Bool
  references : References

/-- Where a line that goes on with a block starts, after the marks of the containers. -/
def Place.joinLine (p : Place) (i : Nat) : Nat :=
  (matchContainers p.window p.containers (Cursor.start i)).2.pos

/-! ### Tokens -/

/-- Drops the tokens that end before a position, and what comes before it of the next one. -/
def dropTo (i : Nat) : List Token → List Token
  | [] => []
  | t :: ts => if t.last ≤ i then dropTo i ts else { t with first := max t.first i } :: ts

/-- The first token that ends after a position. -/
def tokenAt (i : Nat) (ts : List Token) : Option Token :=
  ts.find? fun t => i < t.last

/-- Makes the token at a position end no reference; answers the tokens, and those after it. -/
def spendClose (i : Nat) : List Token → Option (List Token × List Token)
  | [] => none
  | t :: ts =>
    if t.last ≤ i then (spendClose i ts).map fun (all, after) => (t :: all, after)
    else some ({ t with kind := .linkClose false } :: ts, ts)

/-! ### Code spans -/

/-- The text of a code span: line breaks are spaces, and pipes in a table are not escaped. -/
def codeChars (p : Place) (stop : Nat) : Nat → Nat → List Char
  | 0, _ => []
  | fuel + 1, i =>
    if stop ≤ i then []
    else
      match p.window.chars[i]? with
      | none => []
      | some c =>
        if isLineEnd c then ' ' :: codeChars p stop fuel (p.joinLine (i + 1))
        else if p.inTable && c == '\\' && p.window.holds (i + 1) '|' then
          '|' :: codeChars p stop fuel (i + 2)
        else c :: codeChars p stop fuel (i + 1)

/-- One space is taken off at both ends, unless there is nothing but spaces. -/
def trimCode (cs : List Char) : List Char :=
  if cs.all (· == ' ') then cs
  else if cs.head? == some ' ' && cs.getLast? == some ' ' then cs.tail.dropLast
  else cs

/-! ### Targets of links -/

/-- Passes whitespace with at most one line break. -/
def linkSpace (p : Place) (i : Nat) : Nat :=
  let i := p.window.skipBlanks i
  let i := match p.window.lineEnd? i with
    | some next => p.joinLine next
    | none => i
  p.window.skipBlanks i

/-- Reads the characters of a title up to its closing mark, last first; `ts` are the tokens
after the link's text. -/
def linkTitleChars? (p : Place) (opening close : Char) (ts : List Token) :
    Nat → List Char → Nat → Option (Nat × List Char)
  | 0, _, _ => none
  | fuel + 1, acc, i =>
    match p.window.get? i with
    | none => none
    | some c =>
      let go := linkTitleChars? p opening close ts fuel
      if c == close then some (i + 1, acc)
      else if c == opening then none
      else if isLineEnd c then
        -- the text goes on where the tokens do
        match tokenAt (i + 1) ts with
        | some t => if i < t.first then go ('\n' :: acc) t.first else go (c :: acc) (i + 1)
        | none => go (c :: acc) (i + 1)
      else if c == '&' then
        match entity? p.window i with
        | some (next, text) => go (text.reverse ++ acc) next
        | none => go (c :: acc) (i + 1)
      else if p.inTable && c == '\\' && p.window.holds (i + 1) '\\' &&
          p.window.holds (i + 2) '|' then
        -- punctuation takes the place of a pipe before it
        if p.window.test (i + 3) isAsciiPunctuation then
          go (p.window.slice (i + 3) (i + 4) ++ acc) (i + 4)
        else go ('|' :: acc) (i + 3)
      else if isEscape p.window i then
        match p.window.get? (i + 1) with
        | some d => go (d :: acc) (i + 2)
        | none => none
      else go (c :: acc) (i + 1)

def linkTitle? (p : Place) (ts : List Token) (i : Nat) : Option (Nat × List Char) :=
  let read (opening close : Char) :=
    (linkTitleChars? p opening close ts (p.window.stop - i + 1) [] (i + 1)).map
      fun (next, acc) => (next, acc.reverse)
  match p.window.get? i with
  | some '"' => read '"' '"'
  | some '\'' => read '\'' '\''
  | some '(' => read '(' ')'
  | _ => none

/-- Reads a target in parentheses at `i`: the position after it, and the target. -/
def inlineTarget? (p : Place) (ts : List Token) (i : Nat) : Option (Nat × LinkTarget) :=
  let w := p.window
  if !w.holds i '(' then none
  else
    match destination? w (linkSpace p (i + 1)) with
    | none => none
    | some (stop, first, last) =>
      let destination := unescape w p.inTable first last
      let next := linkSpace p stop
      let (next, title) := match linkTitle? p ts next with
        | some (after, title) => (linkSpace p after, title)
        | none => (next, [])
      if w.holds next ')' then some (next + 1, ⟨destination, title⟩) else none

/-- A label in brackets. -/
inductive Label where
  | link (label : List Char)
  | footnote (label : List Char)

/-- Reads the label whose bracket stands at `i`. -/
def readLabel? (p : Place) (w : Window) (i : Nat) : Option (Nat × Label) :=
  if !w.holds i '[' || (w.get? (i + 1)).isNone then none
  else
    let note :=
      if w.holds (i + 1) '^' && !w.holds (i + 2) ']' then
        label? w p.inTable (fun _ => none) (i + 2)
      else none
    match note with
    | some (stop, label) => some (stop, .footnote label)
    | none =>
      (label? w p.inTable (fun j => some (p.joinLine j)) (i + 1)).map fun (stop, label) =>
        (stop, .link label)

/-- What follows the text of a link. -/
inductive Reference where
  /-- A label of its own, with the tokens after it. -/
  | full (label : List Char) (last : Nat)
  /-- An empty pair of brackets, with the tokens after it. -/
  | collapsed (after : List Token)
  /-- No label. -/
  | shortcut

/-- Looks for a label after the text of a link. -/
def reference (p : Place) (ts : List Token) : Reference :=
  match ts with
  | [] => .shortcut
  | t :: rest =>
    if p.window.holds t.first '[' && p.window.holds (t.first + 1) ']' then
      .collapsed (rest.drop 1)
    else
      match readLabel? p p.window t.first with
      | some (last, .link label) => .full label last
      | _ => .shortcut

/-! ### Runs of backticks -/

/-- The bounds of the runs of backticks that a search came past without success, last first, but
for the very first, which may open a code span and close none; `none` as long as no run has been
passed.  Once there are such runs, code spans close with one of them only. -/
abbrev PassedRuns := Option (List (Nat × Nat))

/-- Notes a run that has been passed. -/
def PassedRuns.note (passed : PassedRuns) (first last : Nat) : PassedRuns :=
  match passed with
  | none => some []
  | some runs => some ((first, last) :: runs)

/-- Looks for a run of `size` backticks before the next block; answers its bounds, or the runs
that have been passed. -/
def PassedRuns.search (size : Nat) : PassedRuns → List Token → Except PassedRuns (Nat × Nat)
  | passed, [] => .error passed
  | passed, t :: ts =>
    match t.kind with
    | .backticks _ =>
      if t.last - t.first == size then .ok (t.first, t.last)
      else PassedRuns.search size (passed.note t.first t.last) ts
    | .block _ => .error passed
    | _ => PassedRuns.search size passed ts

/-- Finds the run of `size` backticks that closes a code span whose content starts at `i`;
answers its bounds and the runs passed so far. -/
def PassedRuns.closing? (passed : PassedRuns) (size i : Nat) (ts : List Token) :
    Option (Nat × Nat) × PassedRuns :=
  match passed with
  | some (run :: runs) =>
    ((run :: runs).reverse.find? fun (first, last) => i ≤ first && last - first == size, passed)
  | _ =>
    match passed.search size ts with
    | .ok run => (some run, none)
    | .error passed => (none, passed)

/-! ### Brackets -/

/-- A bracket that may open a link or an image. -/
structure Bracket where
  /-- How many constructs stand before it. -/
  index : Nat
  image : Bool
  first : Nat
  last : Nat
  /-- Whether it stands before a link, so that it opens none. -/
  disabled : Bool

/-- The constructs so far, the brackets that are open, innermost first, how many bytes the
targets of link references may still take up, and the runs of backticks that have been passed in
vain. -/
structure InlineState where
  done : Array Inline
  brackets : List Bracket
  allowance : Nat
  passed : PassedRuns

namespace InlineState

def add (s : InlineState) (x : Inline) : InlineState :=
  { s with done := s.done.push x }

/-- Adds a bracket, as text for the time being. -/
def openBracket (s : InlineState) (t : Token) (image : Bool) : InlineState :=
  { s with
    done := s.done.push (.text t.first t.last),
    brackets := ⟨s.done.size, image, t.first, t.last, false⟩ :: s.brackets }

/-- Puts a link in place of its bracket and of all that came after it. -/
def closeLink (s : InlineState) (b : Bracket) (last : Nat) (target : LinkTarget) :
    InlineState :=
  let children := emphasizeWithin (s.done.extract (b.index + 1) s.done.size).toList
  let link := .link b.image b.first last target.destination target.title children
  let brackets :=
    if b.image then s.brackets
    else s.brackets.map fun o => if o.image then o else { o with disabled := true }
  { s with done := (s.done.extract 0 b.index).push link, brackets }

/-- Puts a footnote reference in place of its bracket and of all that came after it. -/
def closeFootnote (s : InlineState) (b : Bracket) (last : Nat) (label : List Char) :
    InlineState :=
  let before := s.done.extract 0 b.index
  if b.image then
    { s with
      done := (before.push (.replaced b.first (b.first + 1) ['!'])).push
        (.footnote (b.first + 1) last label),
      brackets := [] }
  else { s with done := before.push (.footnote b.first last label), brackets := [] }

/-- Settles a closing bracket that is followed by no target in parentheses; `t` is its token
and `ts` those after it. -/
def closeReference (p : Place) (s : InlineState) (b : Bracket) (t : Token) (mayRefer : Bool)
    (ts : List Token) : InlineState × List Token :=
  let plain := s.add (.text t.first t.last)
  let ref := reference p ts
  -- the label, where it ends, the tokens left if it has a target, and those left if not
  let found : Option (Label × Nat × List Token × List Token) :=
    match ref with
    | .full label last =>
      (spendClose (last - 1) ts).map fun (all, after) => (.link label, last, after, all)
    | _ =>
      if mayRefer then
        let after := match ref with
          | .collapsed after => after
          | _ => ts
        match readLabel? p (p.window.upTo t.last) (b.last - 1) with
        | some (last, label) => if last == t.last then some (label, last, after, ts) else none
        | none => none
      else none
  match found with
  | none => (plain, ts)
  | some (.footnote label, last, _, all) =>
    if p.references.notes.contains (labelKey label) then (s.closeFootnote b last label, ts)
    else (plain, all)
  | some (.link label, last, after, all) =>
    let key := labelKey label
    match if s.allowance == 0 then none else p.references.links.find? (fun r => r.1 == key) with
    | some (_, target) =>
      let s := { s with allowance := s.allowance - target.size }
      (s.closeLink b last target, after)
    | none => (plain, all)

end InlineState

/-! ### Blocks -/

/-- The characters of an HTML construct. -/
def htmlChars (w : Window) (pieces : List (Nat × Nat)) : List Char :=
  pieces.flatMap fun (a, b) => w.slice a b

/-- Settles tokens from left to right. -/
def readInlines (p : Place) : Nat → InlineState → List Token → InlineState
  | 0, s, _ => s
  | _ + 1, s, [] => s
  | fuel + 1, s, t :: ts =>
    let go := readInlines p fuel
    let w := p.window
    match t.kind with
    | .text => go (s.add (.text t.first t.last)) ts
    | .replaced chars => go (s.add (.replaced t.first t.last chars)) ts
    | .softBreak => go (s.add (.softBreak t.first t.last)) ts
    | .hardBreak backslash => go (s.add (.hardBreak t.first t.last backslash)) ts
    | .delimiter mark canOpen canClose =>
      go (s.add (.delimiter t.first t.last mark canOpen canClose)) ts
    | .taskMarker checked => go (s.add (.taskMarker t.first t.last checked)) ts
    | .block index => go (s.add (.block t.first t.last index)) ts
    | .lessThan =>
      match ts with
      | [] => go (s.add (.text t.first t.last)) ts
      | next :: _ =>
        match autolink? w next.first with
        | some last =>
          let destination := w.slice next.first (last - 1)
          let text := Inline.text (t.first + 1) (last - 1)
          go (s.add (.link false t.first last destination [] [text])) (dropTo last ts)
        | none =>
          match inlineHtml? w p.containers t.first with
          | some (last, pieces) =>
            go (s.add (.html t.first last (htmlChars w pieces))) (dropTo last ts)
          | none => go (s.add (.text t.first t.last)) ts
    | .backticks escaped =>
      let first := if escaped then t.first + 1 else t.first
      let size := t.last - first
      let (run, passed) :=
        if size == 0 then (none, s.passed) else s.passed.closing? size t.last ts
      let s := { s with passed }
      match run with
      | some (stop, last) =>
        let s := if escaped then s.add (.text t.first first) else s
        let chars := trimCode (codeChars p stop (stop - t.last + 1) t.last)
        go (s.add (.code first last chars)) (dropTo last ts)
      | none => go (s.add (.text t.first t.last)) ts
    | .linkOpen => go (s.openBracket t false) ts
    | .imageOpen => go (s.openBracket t true) ts
    | .linkClose mayRefer =>
      match s.brackets with
      | [] => go (s.add (.text t.first t.last)) ts
      | b :: brackets =>
        let s := { s with brackets }
        if b.disabled then go (s.add (.text t.first t.last)) ts
        else
          match inlineTarget? p ts t.last with
          | some (last, target) => go (s.closeLink b last target) (dropTo last ts)
          | none =>
            let (s, ts) := s.closeReference p b t mayRefer ts
            go s ts

/-- The inline content of a block, and what is left of the allowance for link references. -/
def inlines (p : Place) (allowance : Nat) (tokens : List Token) : List Inline × Nat :=
  let s := readInlines p (tokens.length + 1) ⟨#[], [], allowance, none⟩ tokens
  (emphasize s.done.toList, s.allowance)

end DocSchema.Markdown
