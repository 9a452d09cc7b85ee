/-
  DocSchema/Format/Basic.lean
  ===========================
  **The formats that a schema can ask of a string.**

  Later drafts know more formats than earlier ones (`Format.ofName?`).  A format of an unknown
  name asks for nothing.
-/
import DocSchema.Format.Calendar
import DocSchema.Format.Network
import DocSchema.Pattern.Basic
import DocSchema.Schema.Draft
import DocSchema.Uri.Syntax

namespace DocSchema

open DocSchema.Text

/-- A format of strings. -/
inductive Format where
  | date
  | dateTime
  | email
  | hostname
  | idnEmail
  | idnHostname
  | ipv4
  | ipv6
  | iri
  | iriReference
  | jsonPointer
  | regex
  | relativeJsonPointer
  | time
  | uri
  | uriReference
  | uriTemplate
  deriving DecidableEq, Repr

namespace Format

def name : Format → String
  | .date => "date"
  | .dateTime => "date-time"
  | .email => "email"
  | .hostname => "hostname"
  | .idnEmail => "idn-email"
  | .idnHostname => "idn-hostname"
  | .ipv4 => "ipv4"
  | .ipv6 => "ipv6"
  | .iri => "iri"
  | .iriReference => "iri-reference"
  | .jsonPointer => "json-pointer"
  | .regex => "regex"
  | .relativeJsonPointer => "relative-json-pointer"
  | .time => "time"
  | .uri => "uri"
  | .uriReference => "uri-reference"
  | .uriTemplate => "uri-template"

def all : List Format :=
  [.date, .dateTime, .email, .hostname, .idnEmail, .idnHostname, .ipv4, .ipv6, .iri,
    .iriReference, .jsonPointer, .regex, .relativeJsonPointer, .time, .uri, .uriReference,
    .uriTemplate]

/-- The first draft that knows a format. -/
def since : Format → Draft
  | .jsonPointer => .draft6
  | .uriReference => .draft6
  | .uriTemplate => .draft6
  | .idnHostname => .draft7
  | .iri => .draft7
  | .iriReference => .draft7
  | .relativeJsonPointer => .draft7
  | _ => .draft4

def ofName? (draft : Draft) (name : String) : Option Format :=
  all.find? fun f => f.name == name && f.since.le draft

/-! ### Pointers and templates -/

/-- Whether every tilde is part of an escape. -/
def tildesFit : List Char → Bool
  | [] => true
  | '~' :: '0' :: cs => tildesFit cs
  | '~' :: '1' :: cs => tildesFit cs
  | c :: cs => c != '~' && tildesFit cs

/-- A pointer: empty, or with a slash in front. -/
def isJsonPointer (cs : List Char) : Bool :=
  match cs with
  | [] => true
  | '/' :: rest => tildesFit rest
  | _ => false

/-- A pointer that first goes up some levels. -/
def isRelativeJsonPointer (cs : List Char) : Bool :=
  let digits := cs.takeWhile isDigit
  let rest := cs.drop digits.length
  !digits.isEmpty && (digits.length == 1 || digits.head? != some '0') &&
    (rest == ['#'] || isJsonPointer rest)

/-- A character that a template cannot hold outside braces. -/
def isForbiddenInTemplate (c : Char) : Bool :=
  c.toNat ≤ 0x20 ||
    ['"', '\'', '<', '>', '%', '\\', '^', '\x60', '\x7b', '|', '\x7d'].contains c

/-- A character of the name of a variable. -/
def isVariableChar (c : Char) : Bool :=
  ('a' ≤ c && c ≤ 'z') || isDigit c || c == '_'

/-- A digit of an escape; templates have them in lower case. -/
def isLowerHexDigit (c : Char) : Bool :=
  isDigit c || ('a' ≤ c && c ≤ 'f')

/-- Where a template has been read up to. -/
inductive TemplatePlace where
  | outside
  /-- Right behind an opening brace. -/
  | opened
  /-- In front of the name of a variable. -/
  | beforeName
  | inName
  /-- Behind the colon of a length. -/
  | beforeLength
  /-- In a length, which may have so many more digits. -/
  | inLength (more : Nat)
  | afterStar
  deriving DecidableEq, Repr

/-- Whether the name and what follows it can end at a place. -/
def TemplatePlace.isComplete : TemplatePlace → Bool
  | .inName => true
  | .inLength _ => true
  | .afterStar => true
  | _ => false

/-- Where a character leads to, in braces. -/
def TemplatePlace.next? (p : TemplatePlace) (c : Char) : Option TemplatePlace :=
  if p.isComplete && c == '\x7d' then some .outside
  else if p.isComplete && c == ',' then some .beforeName
  else
    match p with
    | .opened =>
      if isVariableChar c then some .inName
      else if "+#./;?&=,!@|".toList.contains c then some .beforeName
      else none
    | .beforeName => if isVariableChar c then some .inName else none
    | .inName =>
      if isVariableChar c then some .inName
      else if c == ':' then some .beforeLength
      else if c == '*' then some .afterStar
      else none
    | .beforeLength => if isDigit c && c != '0' then some (.inLength 3) else none
    | .inLength (more + 1) => if isDigit c then some (.inLength more) else none
    | _ => none

/-- Whether a place admits an escape, and where that leads to. -/
def TemplatePlace.afterEscape? : TemplatePlace → Option TemplatePlace
  | .outside => some .outside
  | .opened => some .inName
  | .beforeName => some .inName
  | .inName => some .inName
  | _ => none

/-- Whether a text, read on from a place, is a template: outside braces no character that a
reference cannot hold, and in each pair of braces a list of variables. -/
def isTemplate : TemplatePlace → List Char → Bool
  | p, [] => p = .outside
  | p, '%' :: a :: b :: cs =>
    match p.afterEscape? with
    | some q => isLowerHexDigit a && isLowerHexDigit b && isTemplate q cs
    | none => false
  | .outside, c :: cs =>
    if c == '\x7b' then isTemplate .opened cs
    else !isForbiddenInTemplate c && isTemplate .outside cs
  | p, c :: cs =>
    match p.next? c with
    | some q => isTemplate q cs
    | none => false

def accepts (f : Format) (text : String) : Bool :=
  let cs := text.toList
  match f with
  | .date => isDate cs
  | .dateTime => isDateTime cs
  | .email => isEmail isHostname cs
  | .hostname => isHostname cs
  | .idnEmail => isEmail isInternationalHostname cs
  | .idnHostname => isInternationalHostname cs
  | .ipv4 => Uri.isIPv4 cs
  | .ipv6 => Uri.isIPv6 cs
  | .iri => Uri.isUri true cs
  | .iriReference => Uri.isReference true cs
  | .jsonPointer => isJsonPointer cs
  | .regex => (Pattern.read? text).isSome
  | .relativeJsonPointer => isRelativeJsonPointer cs
  | .time => isTime cs
  | .uri => Uri.isUri false cs
  | .uriReference => Uri.isReference false cs
  | .uriTemplate => isTemplate .outside cs

end Format

end DocSchema
