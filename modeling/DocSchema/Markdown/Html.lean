/-
  DocSchema/Markdown/Html.lean
  ============================
  **Recognising HTML: the openings of blocks, and tags and comments inside a line of text.**

  A block of HTML ends either with a line that holds a given text (`htmlEnding?`) or with a
  blank line (`startsBlockTag`, `lonelyTag?`).

  A tag inside a paragraph may go on over a line break.  The marks of the containers that the
  next line starts with are then no part of the tag, so `htmlTag?` answers the stretches of the
  text that are.
-/
import DocSchema.Markdown.Line

namespace DocSchema.Markdown

open DocSchema.Text

/-! ### Openings of blocks -/

/-- Tags whose content is kept up to their closing tag. -/
def rawTags : List (String × String) :=
  [("pre", "</pre>"), ("style", "</style>"), ("script", "</script>"),
    ("textarea", "</textarea>")]

/-- Other openings of HTML that have an ending of their own. -/
def specialOpenings : List (String × String) :=
  [("!--", "-->"), ("?", "?>"), ("![CDATA[", "]]>")]

/-- The text that ends the HTML block whose `<` stands before `i`. -/
def htmlEnding? (w : Window) (i : Nat) : Option String :=
  let raw := rawTags.find? fun (tag, _) =>
    w.startsWithNoCase i tag.toList &&
      match w.get? (i + tag.length) with
      | none => true
      | some c => isAsciiSpace c || c == '>'
  match raw with
  | some (_, ending) => some ending
  | none =>
    match specialOpenings.find? fun (opening, _) => w.startsWith i opening.toList with
    | some (_, ending) => some ending
    | none => if w.holds i '!' && w.test (i + 1) isLetter then some ">" else none

/-- Tags that open a block on their own. -/
def blockTags : List String :=
  ["address", "article", "aside", "base", "basefont", "blockquote", "body", "caption",
    "center", "col", "colgroup", "dd", "details", "dialog", "dir", "div", "dl", "dt",
    "fieldset", "figcaption", "figure", "footer", "form", "frame", "frameset", "h1", "h2",
    "h3", "h4", "h5", "h6", "head", "header", "hr", "html", "iframe", "legend", "li", "link",
    "main", "menu", "menuitem", "nav", "noframes", "ol", "optgroup", "option", "p", "param",
    "search", "section", "summary", "table", "tbody", "td", "tfoot", "th", "thead", "title",
    "tr", "track", "ul"]

/-- Whether the tag whose `<` stands before `i` opens a block on its own. -/
def startsBlockTag (w : Window) (i : Nat) : Bool :=
  let first := if w.holds i '/' then i + 1 else i
  let stop := w.skipWhile isAlphanumeric first
  let name := String.ofList ((w.slice first stop).map lowerAscii)
  blockTags.contains name &&
    match w.get? stop with
    | none => true
    | some c => c == ' ' || c == '\t' || isLineEnd c || c == '>' ||
        (c == '/' && w.holds (stop + 1) '>')

/-! ### Tags -/

/-- How a tag goes on over a line break: `none` if it may not, else the containers to be passed
at the start of the next line. -/
abbrev LineJoin := Option (List Container)

/-- A place inside a tag: the position, where the current stretch of text began, and the
stretches before it, last first. -/
structure TagCursor where
  pos : Nat
  mark : Nat
  pieces : List (Nat × Nat)

def TagCursor.breakLine? (w : Window) (join : LineJoin) (t : TagCursor) (next : Nat) :
    Option TagCursor :=
  match join with
  | none => none
  | some ks =>
    let after := (matchContainers w ks (Cursor.start next)).2.pos
    if next < after then some ⟨after, after, (t.mark, next) :: t.pieces⟩
    else some { t with pos := next }

/-- Passes whitespace and line breaks. -/
def TagCursor.skipSpace? (w : Window) (join : LineJoin) : Nat → TagCursor → Option TagCursor
  | 0, _ => none
  | fuel + 1, t =>
    let i := w.skipBlanks t.pos
    match w.lineEnd? i with
    | some next =>
      if next == i then none
      else ({ t with pos := i }.breakLine? w join next).bind (TagCursor.skipSpace? w join fuel)
    | none => some { t with pos := i }

/-- Passes a quoted value up to its closing quote. -/
def TagCursor.quoted? (w : Window) (join : LineJoin) (quote : Char) :
    Nat → TagCursor → Option TagCursor
  | 0, _ => none
  | fuel + 1, t =>
    match w.get? t.pos with
    | none => none
    | some c =>
      if c == quote then some { t with pos := t.pos + 1 }
      else
        match w.lineEnd? t.pos with
        | some next => (t.breakLine? w join next).bind (TagCursor.quoted? w join quote fuel)
        | none => TagCursor.quoted? w join quote fuel { t with pos := t.pos + 1 }

/-- A character of an unquoted value.  Of whitespace, only spaces and line breaks end one. -/
def isUnquoted (c : Char) : Bool :=
  !(c == ' ' || isLineEnd c || c == '"' || c == '\'' || c == '=' || c == '>' || c == '<' ||
    c == '\x60')

/-- Passes the value of an attribute. -/
def TagCursor.value? (w : Window) (join : LineJoin) (fuel : Nat) (t : TagCursor) :
    Option TagCursor :=
  match w.get? t.pos with
  | some '"' => TagCursor.quoted? w join '"' fuel { t with pos := t.pos + 1 }
  | some '\'' => TagCursor.quoted? w join '\'' fuel { t with pos := t.pos + 1 }
  | some c =>
    if c == ' ' || c == '=' || c == '>' || c == '<' || c == '\x60' || isLineEnd c then none
    else some { t with pos := w.skipWhile isUnquoted t.pos }
  | none => none

/-- Passes an attribute: its name and, if there is one, its value. -/
def TagCursor.attribute? (w : Window) (join : LineJoin) (fuel : Nat) (t : TagCursor) :
    Option TagCursor :=
  if w.test t.pos (fun c => isLetter c || c == '_' || c == ':') then
    let stop := w.skipWhile
      (fun c => isAlphanumeric c || c == '_' || c == '.' || c == ':' || c == '-') t.pos
    let named := { t with pos := stop }
    match TagCursor.skipSpace? w join fuel named with
    | none => none
    | some eq =>
      if w.holds eq.pos '=' then
        (TagCursor.skipSpace? w join fuel { eq with pos := eq.pos + 1 }).bind
          (TagCursor.value? w join fuel)
      else some named
  else none

/-- Passes the attributes of an opening tag, each after whitespace. -/
def TagCursor.attributes? (w : Window) (join : LineJoin) : Nat → TagCursor → Option TagCursor
  | 0, _ => none
  | fuel + 1, t =>
    match TagCursor.skipSpace? w join (fuel + 1) t with
    | none => none
    | some next =>
      if w.holds next.pos '/' || w.holds next.pos '>' then some next
      else if next.pos == t.pos then none
      else (TagCursor.attribute? w join (fuel + 1) next).bind (TagCursor.attributes? w join fuel)

/-- Reads the tag whose `<` stands at `i`: the position after it, and its stretches of text. -/
def htmlTag? (w : Window) (join : LineJoin) (i : Nat) : Option (Nat × List (Nat × Nat)) :=
  let closing := w.holds (i + 1) '/'
  let first := if closing then i + 2 else i + 1
  if !w.test first isLetter then none
  else
    let stop := w.skipWhile (fun c => isAlphanumeric c || c == '-') first
    let fuel := w.stop - i + 2
    let named : TagCursor := ⟨stop, i, []⟩
    let inside := if closing then some named else TagCursor.attributes? w join fuel named
    match inside with
    | none => none
    | some t =>
      let j := w.skipBlanks t.pos
      let j := if !closing && w.holds j '/' then j + 1 else j
      if w.holds j '>' then some (j + 1, ((t.mark, j + 1) :: t.pieces).reverse) else none

/-- Whether a lone tag fills the rest of the line at `i`. -/
def lonelyTag (w : Window) (i : Nat) : Bool :=
  match htmlTag? w none i with
  | some (stop, _) => (w.blankLine? stop).isSome
  | none => false

/-! ### Comments and their like -/

/-- The position after the first `stop` word from `i` on. -/
def afterWord? (w : Window) (word : List Char) (i : Nat) : Option Nat :=
  if i < w.stop then
    if w.startsWith i word then some (i + word.length) else afterWord? w word (i + 1)
  else none
termination_by w.stop - i

/-- Reads what `<!` opens inside a line of text; `i` is the position after the `!`. -/
def htmlBang? (w : Window) (i : Nat) : Option Nat :=
  match w.get? i with
  | some '-' =>
    -- the dashes that open a comment may be those that close it
    if w.holds (i + 1) '-' then afterWord? w ['-', '-', '>'] i else none
  | some '[' =>
    if w.startsWith (i + 1) "CDATA[".toList then
      let j := w.skipWhile (· != ']') (i + 7)
      let k := w.skipRun ']' j
      if j < k && w.holds k '>' then some (k + 1) else none
    else none
  | some c => if isLetter c then afterWord? w ['>'] (i + 1) else none
  | none => none

/-- Reads an HTML construct inside a line of text whose `<` stands at `i`: the position after
it, and the stretches of the text that it holds. -/
def inlineHtml? (w : Window) (ks : List Container) (i : Nat) :
    Option (Nat × List (Nat × Nat)) :=
  match w.get? (i + 1) with
  | some '!' => (htmlBang? w (i + 2)).map fun stop => (stop, [(i, stop)])
  | some '?' => (afterWord? w ['?', '>'] (i + 2)).map fun stop => (stop, [(i, stop)])
  | some _ => htmlTag? w (some ks) i
  | none => none

/-! ### Addresses in angle brackets -/

/-- An absolute address up to `>`: the position after it. -/
def uriLink? (w : Window) (i : Nat) : Option Nat :=
  if w.test i isLetter then
    let colon := w.skipWhile
      (fun c => isAlphanumeric c || c == '.' || c == '-' || c == '+') (i + 1)
    if w.holds colon ':' && 2 ≤ colon - i && colon - i ≤ 32 then
      let stop := w.skipWhile (fun c => c != '>' && c != '<' && ' ' < c) (colon + 1)
      if w.holds stop '>' then some (stop + 1) else none
    else none
  else none

/-- A character of the name part of a mail address. -/
def isMailChar (c : Char) : Bool :=
  isAlphanumeric c || ".!#$%&'*+/=?^_\x60\x7b|\x7d~-".toList.contains c

/-- The labels of a host name: letters, digits and inner hyphens, at most 63, divided by
points. -/
def hostName? (w : Window) : Nat → Nat → Option Nat
  | 0, _ => none
  | fuel + 1, i =>
    let stop := w.skipWhile (fun c => isAlphanumeric c || c == '-') i
    if w.holds i '-' || stop == i || 63 < stop - i || w.holds (stop - 1) '-' then none
    else if w.holds stop '.' then hostName? w fuel (stop + 1)
    else some stop

/-- A mail address up to `>`: the position after it. -/
def mailLink? (w : Window) (i : Nat) : Option Nat :=
  let at' := w.skipWhile isMailChar i
  if i < at' && w.holds at' '@' then
    match hostName? w (w.stop - at' + 1) (at' + 1) with
    | some stop => if w.holds stop '>' then some (stop + 1) else none
    | none => none
  else none

/-- An address whose `<` stands before `i`: the position after its `>`. -/
def autolink? (w : Window) (i : Nat) : Option Nat :=
  (uriLink? w i).or (mailLink? w i)

end DocSchema.Markdown
