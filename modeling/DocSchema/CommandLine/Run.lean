/-
  DocSchema/CommandLine/Run.lean
  ==============================
  **What the program prints.**

  A run of the program ends with an exit code and with the texts for its two streams.  Exit
  codes are 0 for success, 1 for documents that break their schema, 2 for schemas, settings or
  arguments that cannot be used, and 3 for files that cannot be read or written.
-/
import DocSchema.CommandLine.Options
import DocSchema.Report
import DocSchema.Settings.File
import DocSchema.Skeleton.File

namespace DocSchema.CommandLine

open DocSchema.Json

/-- What a run of the program leaves behind. -/
structure Output where
  exitCode : Nat
  stdout : String
  stderr : String
  deriving DecidableEq, Repr

namespace Output

def success (lines : List String) : Output :=
  ⟨0, String.join (lines.map (· ++ "\n")), ""⟩

def failure (exitCode : Nat) (line : String) : Output :=
  ⟨exitCode, "", line ++ "\n"⟩

end Output

/-! ### Checking -/

def coloured (code text : String) : String :=
  s!"\x1b[{code}m{text}\x1b[0m"

def green (text : String) : String :=
  coloured "32" text

def yellow (text : String) : String :=
  coloured "33" text

def red (text : String) : String :=
  coloured "31" text

def isFailing (status : FileStatus) : Bool :=
  status == .invalid || status == .error

def statusMark (status : FileStatus) : String :=
  match status with
  | .valid => green "✓"
  | .skipped => yellow "-"
  | _ => red "✗"

def fileLine (r : FileReport) : String :=
  let line := s!"  {statusMark r.status} {r.file.text}"
  if r.status == .skipped then line ++ " (no schema)" else line

def failureLine (message : String) : String :=
  "    " ++ red "error" ++ ": " ++ message

def errorLine (e : ErrorReport) : String :=
  let place := e.location.elim "document" (·.start.text)
  "    " ++ red s!"{place}[{e.keyword}]" ++ s!": {e.pointer} - {e.message}"

/-- The lines of a document and its errors. -/
def reportLines (quiet : Bool) (r : FileReport) : List String :=
  (if !quiet || isFailing r.status then [fileLine r] else []) ++
    r.failure.toList.map failureLine ++ r.errors.map errorLine

/-- The line that sums up. -/
def summaryLine (r : CheckReport) : String :=
  if r.isOk then
    green s!"✓ {r.checked} files checked, all passed ({r.skipped} without schema)"
  else
    red (s!"✗ {r.checked} files checked: {r.passed} passed, {r.failed} failed, " ++
      s!"{r.skipped} without schema ({r.errors} errors)")

def checkLines (quiet : Bool) (r : CheckReport) : List String :=
  (if quiet then [] else [s!"Checking {r.path.text} ...", ""]) ++
    r.results.flatMap (reportLines quiet) ++ ["", summaryLine r]

def runCheck [Retrieval] (path : Path) (settings : Settings) (json quiet : Bool) :
    Program Workspace Output := do
  if ← Program.request (.exists path) then
    Program.change fun _ => .ofSettings settings
    let report ← check path
    let lines := if json then [report.toJson.pretty] else checkLines quiet report
    return { Output.success lines with exitCode := report.exitCode }
  else return .failure 3 s!"Error: path not found: {path.text}"

/-! ### Single documents -/

/-- Reads a document, and goes on with its text. -/
def withDocument {σ : Type} (path : Path) (next : Document → Program σ Output) :
    Program σ Output := do
  match ← Program.request (.readText path) with
  | .error e => return .failure 3 s!"Error reading {path.text}: {e.message}"
  | .ok text => next (Document.parse text)

/-- Prints the tree of a document. -/
def runTree {σ : Type} (path : Path) (isInstance pretty : Bool) : Program σ Output :=
  withDocument path fun d =>
    let v := if isInstance then d.root.toInstance else d.root.toJson
    return .success [v.render pretty]

/-- Writes a text to a file, or prints it. -/
def deliver {σ : Type} (output : Option Path) (text : String) : Program σ Output := do
  match output with
  | none => return .success [text]
  | some p =>
    match ← Program.request (.writeFile p text) with
    | .ok () => return .success []
    | .error e => return .failure 3 s!"Error writing to {p.text}: {e.message}"

/-- Derives the skeleton of a document. -/
def runSynthesize {σ : Type} (path : Path) (settings : Settings) (metadata write : Bool)
    (output : Option Path) (pretty : Bool) : Program σ Output :=
  withDocument path fun d => do
    if write then
      match ← writeSkeleton d settings.schemaRoot with
      | .ok p => return .success [s!"Wrote {p.text}"]
      | .error e => return .failure e.exitCode s!"Error: {e.message}"
    else if metadata then
      match d.metadata with
      | none => return .failure 2 s!"Error: {path.text} has no header data"
      | some m => deliver output ((synthesizeMetadata m).render pretty)
    else deliver output ((synthesize d.root).render pretty)

/-! ### The program -/

/-- Settings from a file, if one is named; a schema root that is given by itself comes first. -/
def findSettings {σ : Type} (source : SettingsSource) :
    Program σ (Except SettingsError Settings) := do
  let settings ←
    match source.config with
    | none => pure (.ok {})
    | some p => loadSettings p
  return settings.map fun s =>
    match source.schemaRoot with
    | some schemaRoot => { s with schemaRoot }
    | none => s

/-- Finds the settings, and goes on with them. -/
def withSettings {σ : Type} (source : SettingsSource) (next : Settings → Program σ Output) :
    Program σ Output := do
  match ← findSettings source with
  | .ok settings => next settings
  | .error e => return .failure e.exitCode s!"Error: {e.message}"

def runJob [Retrieval] : Job → Program Workspace Output
  | .check path source json quiet =>
    withSettings source fun settings => runCheck path settings json quiet
  | .tree document isInstance pretty => runTree document isInstance pretty
  | .synthesize document source metadata write output pretty =>
    withSettings source fun settings =>
      runSynthesize document settings metadata write output pretty

def run [Retrieval] (arguments : List String) : Program Workspace Output :=
  match readArguments arguments with
  | .job j => runJob j
  | .show text => return ⟨0, text, ""⟩
  | .remind => return ⟨2, "", programHelp⟩
  | .mistake e => return .failure 2 s!"error: {e.message}"

end DocSchema.CommandLine
