/-
  DocSchema/CommandLine/Arguments.lean
  ====================================
  **Arguments of a command.**

  A command has one operand and some options, each a flag or an option with a value.  Options
  are written `--name`, `--name value` or `--name=value`, flags also by one letter; after `--`
  everything is an operand.  Each option may be given once.

  `Command.read` finds what was given or the first mistake.
-/
namespace DocSchema.CommandLine

/-! ### Commands -/

/-- An option of a command. -/
structure Switch where
  name : String
  letter : Option Char := none
  /-- What its value is called, if it has one. -/
  valueName : Option String := none
  help : String
  deriving DecidableEq, Repr

/-- A command with its operand and options. -/
structure Command where
  name : String
  about : String
  operand : String
  operandHelp : String
  switches : List Switch

/-- The option as it is written, with the name of its value. -/
def Switch.text (s : Switch) : String :=
  match s.valueName with
  | none => s!"--{s.name}"
  | some v => s!"--{s.name} <{v}>"

/-- What was given to a command. -/
structure Given where
  operand : Option String := none
  /-- The options with their values, in order. -/
  switches : List (String × Option String) := []

namespace Given

def has (g : Given) (name : String) : Bool :=
  g.switches.any fun e => e.1 == name

def value? (g : Given) (name : String) : Option String :=
  (g.switches.find? fun e => e.1 == name).bind (·.2)

end Given

/-! ### Mistakes -/

/-- What is wrong with arguments. -/
inductive UsageError where
  | unknownCommand (name : String)
  | unexpected (argument : String)
  | valueMissing (place : String)
  | valueUnexpected (value place : String)
  | repeated (place : String)
  | conflict (place other : String)
  | conflicts (place : String)
  | operandMissing
  deriving DecidableEq, Repr

/-- The wording of a mistake. -/
def UsageError.message : UsageError → String
  | .unknownCommand name => s!"unrecognized subcommand '{name}'"
  | .unexpected argument => s!"unexpected argument '{argument}' found"
  | .valueMissing place => s!"a value is required for '{place}' but none was supplied"
  | .valueUnexpected value place =>
    s!"unexpected value '{value}' for '{place}' found; no more were expected"
  | .repeated place => s!"the argument '{place}' cannot be used multiple times"
  | .conflict place other => s!"the argument '{place}' cannot be used with '{other}'"
  | .conflicts place => s!"the argument '{place}' cannot be used with:"
  | .operandMissing => "the following required arguments were not provided:"

/-- What comes of reading arguments, short of what was given. -/
inductive Refusal where
  | help
  | mistake (e : UsageError)

/-! ### Reading -/

/-- What was taken last and is not yet added. -/
inductive Pending where
  | nothing
  | operand (text : String)
  /-- An option with its value, which may still be to come. -/
  | valued (s : Switch) (value : Option String)

def Pending.isOperand : Pending → Bool
  | .operand _ => true
  | _ => false

namespace Command

def named? (c : Command) (name : String) : Option Switch :=
  c.switches.find? fun s => s.name == name

def lettered? (c : Command) (letter : Char) : Option Switch :=
  c.switches.find? fun s => s.letter == some letter

def addSwitch (s : Switch) (value : Option String) (g : Given) : Except Refusal Given :=
  if g.has s.name then .error (.mistake (.repeated s.text))
  else if value == some "" then .error (.mistake (.valueMissing s.text))
  else .ok { g with switches := g.switches ++ [(s.name, value)] }

def settle (c : Command) (p : Pending) (g : Given) : Except Refusal Given :=
  match p with
  | .nothing => .ok g
  | .operand text =>
    if text.isEmpty then .error (.mistake (.valueMissing s!"<{c.operand}>"))
    else .ok { g with operand := some text }
  | .valued s none => .error (.mistake (.valueMissing s.text))
  | .valued s (some v) => addSwitch s (some v) g

def settleAndAdd (c : Command) (p : Pending) (s : Switch) (value : Option String) (g : Given) :
    Except Refusal Given := do
  addSwitch s value (← c.settle p g)

def addLetters (c : Command) : List Char → Pending → Given → Except Refusal Given
  | [], p, g => c.settle p g
  | letter :: rest, p, g =>
    if letter == 'h' then (c.settle p g).bind fun _ => .error .help
    else
      match c.lettered? letter with
      | some s => (c.settleAndAdd p s none g).bind fun g => c.addLetters rest .nothing g
      | none => .error (.mistake (.unexpected ("-" ++ String.singleton letter)))

def takeOperand (c : Command) (argument : String) (p : Pending) (g : Given) :
    Except Refusal (Pending × Given) :=
  if g.operand.isSome || p.isOperand then .error (.mistake (.unexpected argument))
  else (c.settle p g).map fun g => (.operand argument, g)

/-- Takes operands alone. -/
def addOperands (c : Command) : List String → Pending → Given → Except Refusal Given
  | [], p, g => c.settle p g
  | argument :: rest, p, g => do
    let (p, g) ← c.takeOperand argument p g
    c.addOperands rest p g

/-- The name and the value of a long option. -/
def splitLong (cs : List Char) : String × Option String :=
  let name := cs.takeWhile (· != '=')
  match cs.drop name.length with
  | _ :: value => (String.ofList name, some (String.ofList value))
  | [] => (String.ofList name, none)

/-- Takes a long option, its hyphens taken. -/
def takeLong (c : Command) (long : List Char) (p : Pending) (g : Given) :
    Except Refusal (Pending × Given) :=
  let (name, value) := splitLong long
  match c.named? name with
  | none =>
    if name != "help" then .error (.mistake (.unexpected s!"--{name}"))
    else
      match value with
      | none => (c.settle p g).bind fun _ => .error .help
      | some v => .error (.mistake (.valueUnexpected v "--help"))
  | some s =>
    match s.valueName, value with
    | none, some v => .error (.mistake (.valueUnexpected v s.text))
    | some _, none => (c.settle p g).map fun g => (.valued s none, g)
    | _, value => (c.settleAndAdd p s value g).map fun g => (.nothing, g)

/-- Reads arguments.  What an argument stands for is added when the next one is understood, so
that a mistake in the next one is found first. -/
def addAll (c : Command) : List String → Pending → Given → Except Refusal Given
  | [], p, g => c.settle p g
  | argument :: rest, p, g =>
    match argument.toList with
    | ['-', '-'] => c.addOperands rest p g
    | '-' :: '-' :: long => do
      let (p, g) ← c.takeLong long p g
      c.addAll rest p g
    | '-' :: letter :: letters => do
      let g ← c.addLetters (letter :: letters) p g
      c.addAll rest .nothing g
    | _ =>
      match p with
      | .valued s none => c.addAll rest (.valued s (some argument)) g
      | p => do
        let (p, g) ← c.takeOperand argument p g
        c.addAll rest p g

/-- Options that exclude each other: the first one given is blamed. -/
def checkConflicts (c : Command) (pairs : List (String × String)) (g : Given) :
    Except Refusal Unit :=
  let others (name : String) : List Switch :=
    (pairs.filterMap fun (a, b) =>
      if a == name then some b else if b == name then some a else none).filterMap fun other =>
        if g.has other then c.named? other else none
  let blamed := g.switches.findSome? fun (name, _) =>
    match c.named? name, others name with
    | some s, [other] => some (UsageError.conflict s.text other.text)
    | some s, _ :: _ => some (UsageError.conflicts s.text)
    | _, _ => none
  match blamed with
  | some e => .error (.mistake e)
  | none => .ok ()

/-- Reads the arguments of a command: its operand, and all that was given.  `pairs` lists the
options that exclude each other. -/
def read (c : Command) (pairs : List (String × String)) (arguments : List String) :
    Except Refusal (String × Given) := do
  let g ← c.addAll arguments .nothing {}
  c.checkConflicts pairs g
  match g.operand with
  | some operand => return (operand, g)
  | none => .error (.mistake .operandMissing)

end Command

/-! ### Help -/

/-- A text filled up with spaces. -/
def padded (width : Nat) (text : String) : String :=
  text ++ String.ofList (List.replicate (width - text.length) ' ')

def columns (rows : List (String × String)) : String :=
  let width := rows.foldl (fun n r => max n r.1.length) 0
  String.join (rows.map fun (left, right) => s!"  {padded width left}  {right}\n")

/-- An option as help shows it. -/
def Switch.label (s : Switch) : String :=
  match s.letter with
  | some c => "-" ++ String.singleton c ++ ", " ++ s.text
  | none => "    " ++ s.text

def helpOfHelp (about : String) : String :=
  s!"{about}\n\nUsage: md-schema help [COMMAND]...\n\nArguments:\n" ++
    columns [("[COMMAND]...", "Print help for the subcommand(s)")]

def Command.help (c : Command) : String :=
  let rows := c.switches.map fun s => (s.label, s.help)
  s!"{c.about}\n\nUsage: md-schema {c.name} [OPTIONS] <{c.operand}>\n\nArguments:\n" ++
    columns [(s!"<{c.operand}>", c.operandHelp)] ++ "\nOptions:\n" ++
    columns (rows ++ [("-h, --help", "Print help")])

end DocSchema.CommandLine
