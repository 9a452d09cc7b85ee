/-
  DocSchema/CommandLine/Options.lean
  ==================================
  **The commands of the program.**

  There are three commands: to check documents, to print the tree of a document, and to derive
  a schema skeleton.  `Request.read` turns arguments into what is to be done, or into a text to
  be shown.
-/
import DocSchema.CommandLine.Arguments
import DocSchema.Path

namespace DocSchema.CommandLine

/-! ### Commands -/

def schemaRootSwitch : Switch :=
  { name := "schema-root", valueName := some "SCHEMA_ROOT",
    help := "Directory that $schema values are resolved against" }

def configSwitch : Switch :=
  { name := "config", valueName := some "CONFIG", help := "Settings file (JSON)" }

/-- The option for indented output. -/
def prettySwitch : Switch :=
  { name := "pretty", help := "Pretty-print JSON output" }

/-- The command that validates documents. -/
def checkCommand : Command :=
  { name := "check"
    about := "Validate documents against the schema named in their header"
    operand := "PATH"
    operandHelp := "File or directory to check"
    switches := [schemaRootSwitch, configSwitch,
      { name := "json", help := "Output results as JSON (for automation)" },
      { name := "quiet", letter := some 'q',
        help := "Suppress progress output, only show failures" }] }

def treeCommand : Command :=
  { name := "tree"
    about := "Print the positioned tree of a document"
    operand := "DOCUMENT"
    operandHelp := "Document to parse"
    switches := [
      { name := "instance", help := "Print the validation instance (no positions) instead" },
      prettySwitch] }

/-- The command that derives a skeleton. -/
def synthesizeCommand : Command :=
  { name := "synthesize"
    about := "Derive a schema skeleton from an example document"
    operand := "DOCUMENT"
    operandHelp := "Example document"
    switches := [
      { name := "metadata", help := "Describe only the header data" },
      { name := "write", help := "Write the skeleton to the document's $schema path" },
      schemaRootSwitch, configSwitch,
      { name := "output", valueName := some "OUTPUT",
        help := "Output file (stdout if not specified)" },
      prettySwitch] }

def commands : List Command :=
  [checkCommand, treeCommand, synthesizeCommand]

def command? (name : String) : Option Command :=
  commands.find? fun c => c.name == name

def helpAbout : String :=
  "Print this message or the help of the given subcommand(s)"

def programHelp : String :=
  "Validate markdown documents against JSON Schemas\n\nUsage: md-schema <COMMAND>\n\nCommands:\n" ++
    columns (commands.map (fun c => (c.name, c.about)) ++
      [("help", helpAbout)]) ++
    "\nOptions:\n" ++
    columns [("-h, --help", "Print help"), ("-V, --version", "Print version")]

def versionText : String :=
  "md-schema 0.1.0\n"

/-! ### What is to be done -/

/-- Where settings come from. -/
structure SettingsSource where
  config : Option Path
  schemaRoot : Option Path

/-- What is to be done. -/
inductive Job where
  | check (path : Path) (settings : SettingsSource) (json quiet : Bool)
  | tree (document : Path) (isInstance pretty : Bool)
  | synthesize (document : Path) (settings : SettingsSource) (metadata write : Bool)
      (output : Option Path) (pretty : Bool)

/-- What comes of the arguments. -/
inductive Reading where
  | job (j : Job)
  /-- A text that was asked for. -/
  | show (text : String)
  /-- The help, for want of arguments. -/
  | remind
  | mistake (e : UsageError)

def settingsOf (g : Given) : SettingsSource :=
  ⟨(g.value? "config").map Path.mk, (g.value? "schema-root").map Path.mk⟩

def ofCommand (c : Command) (pairs : List (String × String)) (arguments : List String)
    (job : Path → Given → Job) : Reading :=
  match c.read pairs arguments with
  | .ok (operand, g) => .job (job ⟨operand⟩ g)
  | .error .help => .show c.help
  | .error (.mistake e) => .mistake e

def readCheck (arguments : List String) : Reading :=
  ofCommand checkCommand [] arguments fun p g =>
    .check p (settingsOf g) (g.has "json") (g.has "quiet")

def readTree (arguments : List String) : Reading :=
  ofCommand treeCommand [] arguments fun p g => .tree p (g.has "instance") (g.has "pretty")

def readSynthesize (arguments : List String) : Reading :=
  ofCommand synthesizeCommand [("write", "output"), ("write", "metadata")] arguments fun p g =>
    .synthesize p (settingsOf g) (g.has "metadata") (g.has "write")
      ((g.value? "output").map Path.mk) (g.has "pretty")

/-- What comes of the arguments of the command `help`: no command has commands of its own. -/
def readHelp : List String → Reading
  | [] => .show programHelp
  | name :: rest =>
    let page :=
      if name == "help" then some (helpOfHelp helpAbout) else (command? name).map (·.help)
    match page, rest with
    | some page, [] => .show page
    | some _, extra :: _ => .mistake (.unknownCommand extra)
    | none, _ => .mistake (.unknownCommand name)

/-- What comes of an option in the place of a command. -/
def readTopOption (argument : String) (rest : List String) : Reading :=
  match argument.toList with
  | ['-', '-'] =>
    match rest with
    | [] => .remind
    | name :: _ =>
      if name == "help" || (command? name).isSome then .mistake (.unexpected name)
      else .mistake (.unknownCommand name)
  | '-' :: '-' :: long =>
    match Command.splitLong long with
    | ("help", none) => .show programHelp
    | ("version", none) => .show versionText
    | ("help", some v) => .mistake (.valueUnexpected v "--help")
    | ("version", some v) => .mistake (.valueUnexpected v "--version")
    | (name, _) => .mistake (.unexpected s!"--{name}")
  | '-' :: 'h' :: _ => .show programHelp
  | '-' :: 'V' :: _ => .show versionText
  | '-' :: letter :: _ => .mistake (.unexpected ("-" ++ String.singleton letter))
  | _ => .mistake (.unknownCommand argument)

/-- What comes of the arguments of the program. -/
def readArguments : List String → Reading
  | [] => .remind
  | "check" :: rest => readCheck rest
  | "tree" :: rest => readTree rest
  | "synthesize" :: rest => readSynthesize rest
  | "help" :: rest => readHelp rest
  | argument :: rest => readTopOption argument rest

end DocSchema.CommandLine
