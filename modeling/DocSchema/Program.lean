/-
  DocSchema/Program.lean
  ======================
  **Programs that work on shared state and ask a host for files.**

  A program is a tree of actions.  A step changes the state and hands the state before the
  change to the rest of the program, at once and undivided.  A request goes to the host, and
  the rest of the program depends on the reply.  Nothing else happens between two actions, so
  that other programs may run there; an order in which several programs take turns is a fact
  about lists of actions and not about the programs.

  `Program.run` gives a program to any host and any keeper of the state.
-/
import DocSchema.Path

namespace DocSchema

/-! ### Requests -/

/-- Why the host could not do something, in its own words. -/
structure HostError where
  message : String
  deriving DecidableEq, Repr, Inhabited

/-- What a directory holds. -/
inductive Entry where
  /-- A file, with its text if it is text. -/
  | file (text : Option String)
  | directory (entries : List (String × Entry))
  /-- What is neither: a pipe, a socket or a device, or something that cannot be looked at. -/
  | other
  deriving Inhabited

/-- What a program can ask of the host. -/
inductive Request where
  | isFile (p : Path)
  | exists (p : Path)
  | readText (p : Path)
  /-- Everything that is seen at a path and below it. -/
  | tree (p : Path)
  | createDirectories (p : Path)
  /-- Writes a file that must not be there yet. -/
  | createFile (p : Path) (text : String)
  | writeFile (p : Path) (text : String)

/-- What became of a file that was to be created. -/
inductive Creation where
  | created
  | alreadyExists
  | failed (e : HostError)

/-- What the host replies to a request. -/
abbrev Request.Reply : Request → Type
  | .isFile _ => Bool
  | .exists _ => Bool
  | .readText _ => Except HostError String
  | .tree _ => Option Entry
  | .createDirectories _ => Except HostError Unit
  | .createFile _ _ => Creation
  | .writeFile _ _ => Except HostError Unit

/-! ### Programs -/

/-- A program on a state `σ` with a result in `α`. -/
inductive Program (σ α : Type) where
  | done (a : α)
  | step (change : σ → σ) (rest : σ → Program σ α)
  | ask (q : Request) (rest : q.Reply → Program σ α)

namespace Program

variable {σ τ α β : Type}

/-- One program after the other. -/
def bind : Program σ α → (α → Program σ β) → Program σ β
  | .done a, next => next a
  | .step change rest, next => .step change fun s => (rest s).bind next
  | .ask q rest, next => .ask q fun r => (rest r).bind next

instance : Monad (Program σ) where
  pure := .done
  bind := bind

def look (f : σ → α) : Program σ α :=
  .step id fun s => .done (f s)

def change (f : σ → σ) : Program σ Unit :=
  .step f fun _ => .done ()

/-- Changes the state and looks at it as it was before. -/
def exchange (f : σ → σ) (view : σ → α) : Program σ α :=
  .step f fun s => .done (view s)

/-- Asks the host. -/
def request (q : Request) : Program σ q.Reply :=
  .ask q .done

def onPart (get : τ → σ) (set : σ → τ → τ) : Program σ α → Program τ α
  | .done a => .done a
  | .step change rest =>
    .step (fun t => set (change (get t)) t) fun t => (rest (get t)).onPart get set
  | .ask q rest => .ask q fun r => (rest r).onPart get set

/-- Runs a program: `transact` changes the state and answers the state before, `host` replies to
requests. -/
def run {m : Type → Type} [Monad m] (transact : (σ → σ) → m σ)
    (host : (q : Request) → m q.Reply) : Program σ α → m α
  | .done a => pure a
  | .step change rest => do (rest (← transact change)).run transact host
  | .ask q rest => do (rest (← host q)).run transact host

/-- The programs of a list, one after the other. -/
def forEach (f : α → Program σ β) : List α → Program σ (List β)
  | [] => .done []
  | a :: as => do
    let b ← f a
    let bs ← forEach f as
    return b :: bs

theorem bind_done (p : Program σ α) : p.bind .done = p := by
  induction p with
  | done a => rfl
  | step change rest ih => simp only [bind, ih]
  | ask q rest ih => simp only [bind, ih]

theorem bind_assoc {γ : Type} (p : Program σ α) (f : α → Program σ β) (g : β → Program σ γ) :
    (p.bind f).bind g = p.bind fun a => (f a).bind g := by
  induction p with
  | done a => rfl
  | step change rest ih => simp only [bind, ih]
  | ask q rest ih => simp only [bind, ih]

end Program

end DocSchema
