/-
  DocSchema/Disk.lean
  ===================
  **A file system in memory.**

  A disk holds everything from the root of the file system on, and a process that works in one of
  its directories.  It replies to all requests, with the errors of a Linux system, so that a
  program can be run from beginning to end as a function (`Disk.run`).

  A path leads to its place in steps: from the root if it is absolute, else from the working
  directory.  `..` leads up, and from the root to the root.  What is neither a file nor a directory
  is a socket here, which can be found but not opened.
-/
import DocSchema.Program

namespace DocSchema

/-! ### Entries -/

namespace Entry

def named? : List (String × Entry) → String → Option Entry
  | [], _ => none
  | (k, e) :: rest, name => if k = name then some e else named? rest name

/-- Sets the entry of a name; a new name goes to the end. -/
def putNamed : List (String × Entry) → String → Entry → List (String × Entry)
  | [], name, e => [(name, e)]
  | (k, f) :: rest, name, e =>
    if k = name then (k, e) :: rest else (k, f) :: putNamed rest name e

def entries : Entry → List (String × Entry)
  | .directory es => es
  | _ => []

def isDirectory : Entry → Bool
  | .directory _ => true
  | _ => false

/-- The entry that names lead to. -/
def at? : Entry → List String → Option Entry
  | e, [] => some e
  | .directory es, name :: rest => (named? es name).bind fun e => e.at? rest
  | _, _ :: _ => none

/-- Puts an entry where names lead to, and makes directories on the way. -/
def put (new : Entry) : List String → Entry → Entry
  | [], _ => new
  | name :: rest, e =>
    let inner := (named? e.entries name).getD (.directory [])
    .directory (putNamed e.entries name (put new rest inner))

end Entry

/-! ### Errors -/

/-- What the file system may object to. -/
inductive DiskError where
  | notFound
  | noDevice
  | exists
  | notDirectory
  | isDirectory
  | nameTooLong
  | notText
  | badPath
  deriving DecidableEq, Repr

def DiskError.message : DiskError → String
  | .notFound => "No such file or directory (os error 2)"
  | .noDevice => "No such device or address (os error 6)"
  | .exists => "File exists (os error 17)"
  | .notDirectory => "Not a directory (os error 20)"
  | .isDirectory => "Is a directory (os error 21)"
  | .nameTooLong => "File name too long (os error 36)"
  | .notText => "stream did not contain valid UTF-8"
  | .badPath => "file name contained an unexpected NUL byte"

def DiskError.toHost (e : DiskError) : HostError :=
  ⟨e.message⟩

/-! ### Paths -/

/-- The bytes of a path that the system still takes. -/
def pathLimit : Nat := 4095

/-- The bytes of a name that the system still takes. -/
def nameLimit : Nat := 255

def Path.pieces (p : Path) : List String :=
  (Text.splitAt '/' p.text.toList).map String.ofList

/-- The pieces that lead somewhere. -/
def Path.steps (p : Path) : List String :=
  p.pieces.filter fun s => s != "" && s != "."

def Path.endsInSlash (p : Path) : Bool :=
  p.pieces.getLast? == some ""

def Path.endsInDot (p : Path) : Bool :=
  p.pieces.getLast? == some "."

/-- Whether the path can only name a directory. -/
def Path.asksForDirectory (p : Path) : Bool :=
  p.endsInSlash || p.endsInDot

/-- What is wrong with the path wherever it leads. -/
def Path.flaw? (p : Path) : Option DiskError :=
  if p.text.toList.contains '\x00' then some .badPath
  else if p.text.isEmpty then some .notFound
  else if pathLimit < p.text.utf8ByteSize then some .nameTooLong
  else none

/-- The path, the path of the directory that it lies in, and so on as far as the path tells. -/
def Path.ancestorsUpTo : Nat → Path → List Path
  | 0, _ => []
  | n + 1, p =>
    if p.text.isEmpty then []
    else p :: (p.parent?.elim [] (ancestorsUpTo n))

def Path.ancestors (p : Path) : List Path :=
  ancestorsUpTo (p.components.length + 1) p

/-! ### Disks -/

structure Disk where
  /-- The root of the file system. -/
  top : Entry
  /-- The names that lead to the working directory. -/
  here : List String

namespace Disk

/-- An empty working directory. -/
def empty : Disk :=
  ⟨.directory [("work", .directory [])], ["work"]⟩

/-- The names that lead to where a path starts. -/
def origin (d : Disk) (p : Path) : List String :=
  if p.isAbsolute then [] else d.here

/-- Goes steps from a directory; the last step may lead to nothing.  `names` leads to where the
walk has come. -/
def walk (d : Disk) : List String → List String → Except DiskError (List String)
  | names, [] => .ok names
  | names, step :: rest =>
    match d.top.at? names with
    | none => .error .notFound
    | some (.directory _) =>
      if step == ".." then d.walk names.dropLast rest
      else if nameLimit < step.utf8ByteSize then .error .nameTooLong
      else d.walk (names ++ [step]) rest
    | some _ => .error .notDirectory

/-- The names that a path leads through. -/
def locate (d : Disk) (p : Path) : Except DiskError (List String) :=
  match p.flaw? with
  | some e => .error e
  | none => d.walk (d.origin p) p.steps

def find (d : Disk) (p : Path) : Except DiskError Entry := do
  match d.top.at? (← d.locate p) with
  | none => .error .notFound
  | some e => if p.asksForDirectory && !e.isDirectory then .error .notDirectory else .ok e

def isDirectoryAt (d : Disk) (p : Path) : Bool :=
  (d.find p).toOption.any (·.isDirectory)

/-- Puts an entry where names lead to from the root. -/
def place (d : Disk) (names : List String) (e : Entry) : Disk :=
  { d with top := Entry.put e names d.top }

/-- Puts an entry where names lead to from the working directory. -/
def put (d : Disk) (names : List String) (e : Entry) : Disk :=
  d.place (d.here ++ names) e

/-! ### Requests -/

def readText (d : Disk) (p : Path) : Except DiskError String := do
  match ← d.find p with
  | .directory _ => .error .isDirectory
  | .other => .error .noDevice
  | .file none => .error .notText
  | .file (some text) => .ok text

mutual

/-- What is seen of an entry at a path: what is listed but not found is there, and no more is
known of it. -/
def view (d : Disk) (p : Path) : Entry → Entry
  | .directory es => .directory (d.viewAll p es)
  | e => e

def viewAll (d : Disk) (p : Path) : List (String × Entry) → List (String × Entry)
  | [] => []
  | (name, e) :: es =>
    let q := p.join ⟨name⟩
    (name, if (d.find q).toBool then d.view q e else .other) :: d.viewAll p es

end

/-- Makes one directory. -/
def makeDirectory (d : Disk) (p : Path) : Except DiskError Disk := do
  let names ← d.locate p
  match d.top.at? names with
  | some _ => .error .exists
  | none => if p.endsInDot then .error .notFound else .ok (d.place names (.directory []))

/-- Makes the directory at the first of the paths.  The others lead to the directories that it
lies in, which are made if that is what is missing.  They stay if the directory cannot be made
after all. -/
def makeDirectories (d : Disk) : List Path → Except DiskError Unit × Disk
  | [] => (.ok (), d)
  | p :: outer =>
    match d.makeDirectory p with
    | .ok d' => (.ok (), d')
    | .error .notFound =>
      match d.makeDirectories outer with
      | (.error e, d') => (.error e, d')
      | (.ok (), d') =>
        match d'.makeDirectory p with
        | .ok d'' => (.ok (), d'')
        | .error e => (if d'.isDirectoryAt p then .ok () else .error e, d')
    | .error e => (if d.isDirectoryAt p then .ok () else .error e, d)

/-- What is in the way of writing a file at a path, or the names that lead to it. -/
def target (d : Disk) (p : Path) : Except DiskError (List String) := do
  let names ← d.locate p
  if p.endsInSlash then .error .isDirectory
  else if p.asksForDirectory then
    let _ ← d.find p
    .ok names
  else .ok names

def createFile (d : Disk) (p : Path) (text : String) : Creation × Disk :=
  match d.target p with
  | .error e => (.failed e.toHost, d)
  | .ok names =>
    match d.top.at? names with
    | some _ => (.alreadyExists, d)
    | none => (.created, d.place names (.file (some text)))

def writeFile (d : Disk) (p : Path) (text : String) : Except DiskError Disk := do
  let names ← d.target p
  match d.top.at? names with
  | some (.directory _) => .error .isDirectory
  | some .other => .error .noDevice
  | _ => .ok (d.place names (.file (some text)))

def reply (q : Request) (d : Disk) : q.Reply × Disk :=
  match q with
  | .isFile p =>
    (match d.find p with
     | .ok (.file _) => true
     | _ => false, d)
  | .exists p => ((d.find p).toBool, d)
  | .readText p => ((d.readText p).mapError DiskError.toHost, d)
  | .tree p => ((d.find p).toOption.map (d.view p), d)
  | .createDirectories p =>
    let (made, d') := d.makeDirectories p.ancestors
    (made.mapError DiskError.toHost, d')
  | .createFile p text => d.createFile p text
  | .writeFile p text =>
    match d.writeFile p text with
    | .ok d' => (.ok (), d')
    | .error e => (.error e.toHost, d)

/-! ### Programs -/

/-- Changes the state that is kept beside a disk. -/
def transact {σ : Type} (change : σ → σ) : StateM (σ × Disk) σ :=
  modifyGet fun (s, d) => (s, change s, d)

def serve {σ : Type} (q : Request) : StateM (σ × Disk) q.Reply :=
  modifyGet fun (s, d) => ((reply q d).1, s, (reply q d).2)

def run {σ α : Type} (p : Program σ α) (s : σ) (d : Disk) : α × σ × Disk :=
  (p.run transact serve).run (s, d)

end Disk

end DocSchema
