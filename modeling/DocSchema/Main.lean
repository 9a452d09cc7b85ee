/-
  DocSchema/Main.lean
  ===================
  **The program.**

  The host of a program run is the file system, and the state is kept in a reference.  Schemas have
  nothing from elsewhere there (`Retrieval.offline`).
-/
import DocSchema.CommandLine.Run
import DocSchema.Disk

namespace DocSchema.Host

/-- An error of the file system in the words of the system. -/
def errorOf (e : IO.Error) : HostError :=
  match e with
  | .noFileOrDirectory _ _ _ => DiskError.notFound.toHost
  | .alreadyExists _ _ _ => DiskError.exists.toHost
  | .inappropriateType _ code _ =>
    if code == 20 then DiskError.notDirectory.toHost
    else if code == 21 then DiskError.isDirectory.toHost
    else ⟨toString e⟩
  | .invalidArgument _ code _ =>
    if code == 36 then DiskError.nameTooLong.toHost else ⟨toString e⟩
  | e => ⟨toString e⟩

def told {α : Type} (action : IO α) : IO (Except HostError α) := do
  match ← action.toBaseIO with
  | .ok a => return .ok a
  | .error e => return .error (errorOf e)

/-- The text of a file, `none` if it is not text. -/
def textOf (p : Path) : IO (Option String) := do
  return String.fromUTF8? (← IO.FS.readBinFile p.text)

def readText (p : Path) : IO (Except HostError String) := do
  match ← told (textOf p) with
  | .ok (some text) => return .ok text
  | .ok none => return .error DiskError.notText.toHost
  | .error e => return .error e

/-- A path in the form that the system library takes. -/
def place (p : Path) : IO.FS.DirEntry :=
  { root := p.text, fileName := "" }

/-- What kind of thing there is at a path. -/
def kind? (p : Path) : IO (Option IO.FS.FileType) := do
  match ← (place p).root.metadata.toBaseIO with
  | .ok data => return some data.type
  | .error _ => return none

/-- What a directory holds; nothing if it does not tell. -/
def listing (p : Path) : IO (Array IO.FS.DirEntry) := do
  match ← (place p).root.readDir.toBaseIO with
  | .ok found => return found
  | .error _ => return #[]

/-- Everything that is seen at a path and below it. -/
partial def entryAt (p : Path) : IO (Option Entry) := do
  match ← kind? p with
  | none => return none
  | some .dir =>
    let mut entries := []
    for e in ← listing p do
      let entry ← entryAt (p.join ⟨e.fileName⟩)
      entries := (e.fileName, entry.getD .other) :: entries
    return some (.directory entries)
  | some .file => return some (.file none)
  | some _ => return some .other

def createFile (p : Path) (text : String) : IO Creation := do
  match ← (IO.FS.Handle.mk p.text .writeNew).toBaseIO with
  | .ok handle =>
    match ← told (handle.putStr text) with
    | .ok () => return .created
    | .error e => return .failed e
  | .error e =>
    if errorOf e == DiskError.exists.toHost then return .alreadyExists
    else return .failed (errorOf e)

def serve (q : Request) : IO q.Reply :=
  match q with
  | .isFile p => do return (← kind? p) == some .file
  | .exists p => do return (← kind? p).isSome
  | .readText p => readText p
  | .tree p => entryAt p
  | .createDirectories p => told (IO.FS.createDirAll p.text)
  | .createFile p text => createFile p text
  | .writeFile p text => told (IO.FS.writeFile p.text text)

end DocSchema.Host

/-- Runs the program on the arguments of the command line. -/
def main (arguments : List String) : IO UInt32 := do
  let state ← IO.mkRef (DocSchema.Workspace.ofSettings {})
  let output ← (DocSchema.CommandLine.run arguments).run
    (fun change => state.modifyGet fun w => (w, change w)) DocSchema.Host.serve
  (← IO.getStdout).putStr output.stdout
  (← IO.getStderr).putStr output.stderr
  return output.exitCode.toUInt32
