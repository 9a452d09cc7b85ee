/-
  DocSchema/Store.lean
  ====================
  **Schemas by path, read once and kept current.**

  A store reads schema files below its root and keeps what it has read.  `Store.get` reads a
  file on first use; events about files make the store read them again or drop them.  When a
  file cannot be read again, what is known of it stays: an old schema is better than none.

  Each reading that enters the store gets a handle of its own, so that it can be told whether
  two answers are the same reading.
-/
import DocSchema.Json.Reader
import DocSchema.Path.Map
import DocSchema.Program

namespace DocSchema

open DocSchema.Json

/-! ### Reading schema files -/

/-- Why a schema file could not be loaded. -/
inductive LoadError where
  | notFound (p : Path)
  | unreadable (p : Path) (e : HostError)
  | invalidJson (p : Path) (e : ReadError)
  | outsideRoot (p root : Path)

namespace LoadError

/-- The wording of a refusal. -/
def message : LoadError → String
  | .notFound p => s!"file not found: {p.text}"
  | .unreadable p e => s!"cannot read {p.text}: {e.message}"
  | .invalidJson p e => s!"invalid JSON in {p.text}: {e.message}"
  | .outsideRoot p root => s!"{p.text} is outside the schema root {root.text}"

/-- The exit code of a refusal: 3 where files are the trouble, else 2. -/
def exitCode : LoadError → Nat
  | .notFound _ => 3
  | .unreadable _ _ => 3
  | _ => 2

end LoadError

/-- Reads a schema file. -/
def loadSchema {σ : Type} (p : Path) : Program σ (Except LoadError Value) := do
  if ← Program.request (.isFile p) then
    match ← Program.request (.readText p) with
    | .error e => return .error (.unreadable p e)
    | .ok text => return (Json.read text).mapError (.invalidJson p)
  else return .error (.notFound p)

/-! ### The store -/

/-- A schema that the store has read. -/
structure Cached where
  handle : Nat
  schema : Value

/-- The schemas read so far, under one root. -/
structure Store where
  root : Path
  cache : PathMap Cached := []
  /-- The handle of the next reading. -/
  nextHandle : Nat := 0

/-- Something that happened to a file. -/
inductive FileEvent where
  | created (p : Path)
  | modified (p : Path)
  | renamed (source target : Path)
  | deleted (p : Path)
  deriving DecidableEq, Repr

def FileEvent.path : FileEvent → Path
  | .created p => p
  | .modified p => p
  | .renamed _ target => target
  | .deleted p => p

/-- What an event did to the store. -/
inductive StoreUpdate where
  /-- The path is not below the root, or nothing was known of it. -/
  | ignored
  | reloaded
  /-- The file could not be read; what was known of it stays. -/
  | reloadFailed
  | evicted
  deriving DecidableEq, Repr

namespace Store

def ofRoot (root : Path) : Store :=
  { root }

/-- Whether a path is below the root and does not climb. -/
def isSchemaFile (s : Store) (p : Path) : Bool :=
  !p.climbs && p.startsWith s.root

/-- The paths of the known schemas, sorted. -/
def cachedPaths (s : Store) : List Path :=
  s.cache.paths

/-- Puts a reading into the store, in place of any other. -/
def put (p : Path) (v : Value) (s : Store) : Store :=
  { s with cache := s.cache.insert p ⟨s.nextHandle, v⟩, nextHandle := s.nextHandle + 1 }

/-- Puts a reading into the store unless the path is known. -/
def putNew (p : Path) (v : Value) (s : Store) : Store :=
  if s.cache.contains p then s else s.put p v

/-- What is known of a path after a reading has been offered. -/
def settled (p : Path) (v : Value) (s : Store) : Cached :=
  (s.cache.get? p).getD ⟨s.nextHandle, v⟩

def drop (p : Path) (s : Store) : Store :=
  { s with cache := s.cache.erase p }

/-- Changes the root.  What is known belongs to the old root, and goes in a second step. -/
def setRoot (root : Path) : Program Store Unit := do
  Program.change fun s => { s with root }
  Program.change fun s => { s with cache := [] }

/-- Loads a schema file below the root. -/
def load (p : Path) : Program Store (Except LoadError Value) := do
  if ← Program.look (isSchemaFile · p) then loadSchema p
  else return .error (.outsideRoot p (← Program.look (·.root)))

/-- The schema of a path, read on first use. -/
def get (p : Path) : Program Store (Option Cached) := do
  match ← Program.look (·.cache.get? p) with
  | some c => return some c
  | none =>
    match ← load p with
    | .error _ => return none
    | .ok v => return some (← Program.exchange (putNew p v) (settled p v))

/-- Reads a schema file again. -/
def reload (p : Path) : Program Store StoreUpdate := do
  if ← Program.look (isSchemaFile · p) then
    match ← loadSchema p with
    | .error _ => return .reloadFailed
    | .ok v =>
      Program.change (put p v)
      return .reloaded
  else return .ignored

/-- Drops a schema. -/
def evict (p : Path) : Program Store StoreUpdate := do
  if ← Program.look (isSchemaFile · p) then
    if ← Program.exchange (drop p) (·.cache.contains p) then return .evicted
    else return .ignored
  else return .ignored

def handleEvent : FileEvent → Program Store StoreUpdate
  | .created p => reload p
  | .modified p => reload p
  | .deleted p => evict p
  | .renamed source target => do
    let dropped ← evict source
    match ← reload target with
    | .ignored => return dropped
    | update => return update

end Store

end DocSchema
