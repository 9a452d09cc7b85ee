/-
  DocSchema/Proofs/Store/Access.lean
  ==================================
  **How the entries of a store come and go.**

  What clients do to the store of a workspace is made of four operations (`Access`): to get a
  schema, to read one again, to drop one, and to set the root.  An operation checks the path, finds
  the file, reads it and puts the reading into the store, each in a world of its own
  (`Reading`, `Puts`); an entry is dropped by an operation of its own (`Drops`).

  These are the only actions that change an entry (`puts_of_acts`, `drops_of_acts`).
-/
import DocSchema.Proofs.SchemaRef
import DocSchema.Proofs.Store
import DocSchema.Proofs.World

namespace DocSchema.Store

open DocSchema.Json DocSchema.Program DocSchema.Workspace

/-! ### Operations -/

/-- What is done to a store at a time. -/
inductive Access where
  | get (p : Path)
  | reload (p : Path)
  | evict (p : Path)
  | setRoot (root : Path)

namespace Access

abbrev Result : Access → Type
  | .get _ => Option Cached
  | .reload _ => StoreUpdate
  | .evict _ => StoreUpdate
  | .setRoot _ => Unit

def program : (a : Access) → Program Store a.Result
  | .get p => Store.get p
  | .reload p => Store.reload p
  | .evict p => Store.evict p
  | .setRoot root => Store.setRoot root

end Access

/-- What clients ask of a store, and of the workspace that it belongs to. -/
inductive Client [Retrieval] : Program Workspace Unit → Prop
  | get (p : Path) : Client ((onStore (Store.get p)).bind fun _ => .done ())
  | handleEvent (e : FileEvent) : Client ((onStore (Store.handleEvent e)).bind fun _ => .done ())
  | setRoot (root : Path) : Client ((onStore (Store.setRoot root)).bind fun _ => .done ())
  | revalidate (d : Path) : Client ((Workspace.revalidate d).bind fun _ => .done ())
  | forget (d : Path) : Client (Workspace.forget d)
  | routeEvent (e : FileEvent) : Client ((Workspace.handleEvent e).bind fun _ => .done ())
  | sweep (ds : List Path) : Client ((Workspace.sweep ds).bind fun _ => .done ())
  | validateText (d : Path) (text : String) :
      Client ((Workspace.validateText d text).bind fun _ => .done ())

/-- The operations on the store of a workspace; outside of them the store is left alone. -/
def accesses [Retrieval] : Repertoire Workspace where
  Operation := Access
  Result := Access.Result
  program a := onStore a.program
  Idle change := ∀ w, (change w).store = w.store
  Client := Client

theorem onStore_bind {α β : Type} (p : Program Store α) (f : α → Program Store β) :
    onStore (p.bind f) = (onStore p).bind fun a => onStore (f a) :=
  onPart_bind p f

/-- A program that comes at the store and at schema files through these operations only: outside of
them it leaves the store alone, and asks the host for the texts of documents. -/
inductive ThroughAccess {α : Type} : Program Workspace α → Prop
  | done (a : α) : ThroughAccess (.done a)
  | step {change : Workspace → Workspace} {rest : Workspace → Program Workspace α}
      (h : ∀ w, (change w).store = w.store) (hrest : ∀ w, ThroughAccess (rest w)) :
      ThroughAccess (.step change rest)
  | readDocument (d : Path) {rest : Except HostError String → Program Workspace α}
      (hrest : ∀ r, ThroughAccess (rest r)) : ThroughAccess (.ask (.readText d) rest)
  | access (a : Access) {rest : a.Result → Program Workspace α}
      (hrest : ∀ r, ThroughAccess (rest r)) : ThroughAccess ((onStore a.program).bind rest)

namespace ThroughAccess

theorem bind {α β : Type} {p : Program Workspace α} {f : α → Program Workspace β}
    (h : ThroughAccess p) (hf : ∀ a, ThroughAccess (f a)) : ThroughAccess (p.bind f) := by
  induction h with
  | done a => exact hf a
  | step hchange _ ih => exact .step hchange ih
  | readDocument d _ ih => exact .readDocument d ih
  | access a _ ih =>
    rw [Program.bind_assoc]
    exact .access a ih

theorem call (a : Access) : ThroughAccess (onStore a.program) := by
  have h : ThroughAccess ((onStore a.program).bind .done) := .access a fun r => .done r
  rwa [bind_done] at h

theorem composes [Retrieval] {α : Type} {p : Program Workspace α} (h : ThroughAccess p) :
    accesses.Composes p := by
  induction h with
  | done a => exact .done a
  | step hchange _ ih => exact .step hchange ih
  | readDocument d _ ih => exact .ask ih
  | access a _ ih => exact .call (R := accesses) a ih

theorem storeEvent (e : FileEvent) : ThroughAccess (onStore (Store.handleEvent e)) := by
  cases e with
  | created p => exact call (.reload p)
  | modified p => exact call (.reload p)
  | deleted p => exact call (.evict p)
  | renamed source target =>
    refine (onStore_bind _ _).symm ▸ (call (.evict source)).bind fun dropped => ?_
    refine (onStore_bind _ _).symm ▸ (call (.reload target)).bind fun update => ?_
    cases update with
    | ignored | reloaded | reloadFailed | evicted => exact .done _

theorem validateParsed [Retrieval] (document : Path) (n : Nat) (d : Document) :
    ThroughAccess (Workspace.validateParsed document n d) := by
  refine .step (fun _ => rfl) fun w => ?_
  dsimp only [Program.bind]
  cases DocSchema.schemaRef? d.metadata w.store.root with
  | none => exact .done _
  | some schema =>
    refine (call (.get schema)).bind fun found => ?_
    cases found with
    | none => exact .done _
    | some c =>
      dsimp only
      cases validateLocated document d.root c.schema with
      | error e => exact .done _
      | ok errors => exact .done _

/-- Outside of the work on the store, an operation of the workspace leaves the store alone. -/
theorem operation [Retrieval] (o : Operation) : ThroughAccess o.program := by
  rw [Operation.program_eq]
  refine .step (fun _ => rfl) fun w => bind ?_ fun r => ?_
  · cases o with
    | revalidate d =>
      refine .readDocument d fun reply => ?_
      cases reply with
      | error e => exact .done _
      | ok text => exact validateParsed _ _ _
    | forget d => exact .done _
    | validateText d text => exact validateParsed _ _ _
  · unfold Operation.conclude
    split
    · exact .step (fun _ => rfl) fun _ => .done _
    · exact .done _

theorem suffices_throughAccess [Retrieval] : Suffices ThroughAccess where
  done := .done
  bind := bind
  look _ := .step (fun _ => rfl) fun _ => .done _
  revalidate d := operation (.revalidate d)
  forget d := operation (.forget d)
  store := storeEvent

theorem of_client [Retrieval] {p : Program Workspace Unit} (h : Client p) : ThroughAccess p := by
  have hP := suffices_throughAccess
  cases h with
  | get p => exact (call (.get p)).bind fun _ => .done ()
  | handleEvent e => exact (storeEvent e).bind fun _ => .done ()
  | setRoot root => exact (call (.setRoot root)).bind fun _ => .done ()
  | revalidate d => exact (hP.revalidate d).bind fun _ => .done ()
  | forget d => exact hP.forget d
  | routeEvent e => exact (hP.handleEvent e).bind fun _ => .done ()
  | sweep ds => exact (hP.sweep ds).bind fun _ => .done ()
  | validateText d text => exact (operation (.validateText d text)).bind fun _ => .done ()

end ThroughAccess

/-- Everything that clients ask for is made of these operations. -/
theorem composes_of_client [Retrieval] (p : Program Workspace Unit) (h : Client p) :
    accesses.Composes p :=
  (ThroughAccess.of_client h).composes

/-- Whatever order the actions of clients come in, and however files change, they do so in a
session. -/
theorem exists_session_of_interleaves [Retrieval] {init : World Workspace}
    {c : World Workspace × List (Program (World Workspace) Unit)}
    (h : Relation.ReflTransGen (Interleaves accesses.inWorld) (init, []) c) :
    ∃ S : Session accesses.inWorld, S.Reachable init ∧ S.state = c.1 ∧ S.programs = c.2 := by
  have hR := Repertoire.composes_of_visits (R := accesses) (fun _ => rfl) composes_of_client
  obtain ⟨S, hreach, hstate, hprograms, -⟩ := Session.exists_session hR h
  exact ⟨S, hreach, hstate, hprograms⟩

/-! ### Readings -/

/-- A schema file that an operation has read.  It accepted the path, found the file and read it,
each in a world of its own. -/
structure Reading where
  path : Path
  value : Value
  accepted : World Workspace
  found : World Workspace
  read : World Workspace
  isSchemaFile : accepted.state.store.isSchemaFile path = true
  isFile : found.host (.isFile path) = true
  readText : ∃ text, read.host (.readText path) = .ok text ∧ Json.read text = .ok value

namespace Reading

def seen (r : Reading) : List (Observation (World Workspace)) :=
  [.saw r.accepted, .saw r.found, .saw r.read]

/-- The entry that a reading makes in a world. -/
def entry (r : Reading) (w : World Workspace) : Cached :=
  ⟨w.state.store.nextHandle, r.value⟩

end Reading

/-- `Puts b r w`: the operation `b` put the reading `r` into the store of the world `w`. -/
inductive Puts [Retrieval] : Progress accesses.inWorld → Reading → World Workspace → Prop
  | get {r : Reading} {w₀ w : World Workspace} {later : List (Observation (World Workspace))}
      (hunknown : w₀.state.store.cache.get? r.path = none)
      (hnew : w.state.store.cache.get? r.path = none) :
      Puts ⟨Access.get r.path, .saw w₀ :: (r.seen ++ .saw w :: later)⟩ r w
  | reload {r : Reading} {w : World Workspace} {later : List (Observation (World Workspace))} :
      Puts ⟨Access.reload r.path, r.seen ++ .saw w :: later⟩ r w

/-- `Drops b q w`: the operation `b` dropped whatever the store of the world `w` had for `q`. -/
inductive Drops [Retrieval] : Progress accesses.inWorld → Path → World Workspace → Prop
  | evict {p q : Path} {w₀ w : World Workspace} {later : List (Observation (World Workspace))}
      (haccept : w₀.state.store.isSchemaFile p = true) (hp : p.same q = true) :
      Drops ⟨Access.evict p, .saw w₀ :: .saw w :: later⟩ q w
  | setRoot {root q : Path} {w₀ w : World Workspace}
      {later : List (Observation (World Workspace))} :
      Drops ⟨Access.setRoot root, .saw w₀ :: .saw w :: later⟩ q w

/-! ### What an operation does to the store -/

/-- The world after an action on the store. -/
def actOn (f : Store → Store) : World Workspace → World Workspace :=
  World.next fun s => { s with store := f s.store }

/-- A program on the store, in a world. -/
abbrev visit {α : Type} (p : Program Store α) : Program (World Workspace) α :=
  (onStore p).inWorld

/-- `Does a seen f`: when the operation `a` has observed `seen`, its next action does `f` to the
store. -/
inductive Does : Access → List (Observation (World Workspace)) → (Store → Store) → Prop
  | look (a : Access) (seen : List (Observation (World Workspace))) : Does a seen id
  | putNew {r : Reading} {w₀ : World Workspace}
      (hunknown : w₀.state.store.cache.get? r.path = none) :
      Does (.get r.path) (.saw w₀ :: r.seen) (putNew r.path r.value)
  | put (r : Reading) : Does (.reload r.path) r.seen (put r.path r.value)
  | drop {p : Path} {w₀ : World Workspace} (haccept : w₀.state.store.isSchemaFile p = true) :
      Does (.evict p) [.saw w₀] (drop p)
  | reroot (root : Path) : Does (.setRoot root) [] fun s => { s with root }
  | clear (root : Path) (w₀ : World Workspace) :
      Does (.setRoot root) [.saw w₀] fun s => { s with cache := [] }

section Leads

variable {p : Path} {seen : List (Observation (World Workspace))}

/-- To read a file is to look twice and to fail, or to have found the file and read it. -/
theorem leads_loadSchema {α : Type} {left : Program (World Workspace) α}
    {k : Except LoadError Value → Program Store α}
    (h : (visit ((loadSchema p).bind k)).Leads seen left) :
    (∃ rest, left = .step (actOn id) rest) ∨
      (∃ e w later, .saw w ∈ seen ∧ (∀ v, ¬ Serves w.host p v) ∧
        (visit (k (.error e))).Leads later left) ∨
      ∃ found read v later, found.host (.isFile p) = true ∧
        (∃ text, read.host (.readText p) = .ok text ∧ Json.read text = .ok v) ∧
        seen = .saw found :: .saw read :: later ∧ (visit (k (.ok v))).Leads later left := by
  obtain ⟨rfl, rfl⟩ | ⟨found, later, rfl, hfound⟩ := h.of_step
  · exact .inl ⟨_, rfl⟩
  cases hfile : found.host (.isFile p) with
  | false =>
    -- the host has said that there is no such file
    rw [hfile] at hfound
    exact .inr (.inl ⟨_, found, later, List.mem_cons_self, fun v hv => by simp [hv.1] at hfile,
      hfound⟩)
  | true =>
    rw [hfile] at hfound
    obtain ⟨rfl, rfl⟩ | ⟨read, later, rfl, hread⟩ := hfound.of_step
    · exact .inl ⟨_, rfl⟩
    have hmem : .saw read ∈ Observation.saw found :: .saw read :: later := by simp
    cases htext : read.host (.readText p) with
    | error e =>
      -- the file has gone since then, or is not to be read
      rw [htext] at hread
      refine .inr (.inl ⟨_, read, later, hmem, fun v hv => ?_, hread⟩)
      obtain ⟨-, text, htext', -⟩ := hv
      rw [htext] at htext'
      cases htext'
    | ok text =>
      rw [htext] at hread
      cases hvalue : Json.read text with
      | error e =>
        -- the reply decides what the host serves, so this host serves nothing
        refine .inr (.inl ⟨.invalidJson p e, read, later, hmem, fun v hv => ?_, ?_⟩)
        · obtain ⟨-, text', htext', hvalue'⟩ := hv
          cases htext.symm.trans htext'
          rw [hvalue] at hvalue'
          cases hvalue'
        · simp only [Program.bind, hvalue] at hread
          exact hread
      | ok v =>
        simp only [Program.bind, hvalue] at hread
        exact .inr (.inr ⟨found, read, v, later, hfile, ⟨text, htext, hvalue⟩, rfl, hread⟩)

/-- To read a schema again is to look, to give up, or to read it and to put the reading into the
store. -/
theorem leads_reload {left : Program (World Workspace) StoreUpdate}
    (h : (visit (reload p)).Leads seen left) :
    (∃ rest, left = .step (actOn id) rest) ∨
      (∃ update, left = .done update ∧
        ((∃ w later, seen = .saw w :: later ∧ w.state.store.isSchemaFile p = false) ∨
          ∃ w, .saw w ∈ seen ∧ ∀ v, ¬ Serves w.host p v)) ∨
      ∃ r : Reading, r.path = p ∧
        ((seen = r.seen ∧ ∃ rest, left = .step (actOn (put p r.value)) rest) ∨
          ∃ w, seen = r.seen ++ [.saw w] ∧ left = .done .reloaded) := by
  obtain ⟨rfl, rfl⟩ | ⟨accepted, later, rfl, haccepted⟩ := h.of_step
  · exact .inl ⟨_, rfl⟩
  cases haccept : accepted.state.store.isSchemaFile p with
  | false =>
    simp only [haccept] at haccepted
    obtain ⟨rfl, rfl⟩ := haccepted.of_done
    exact .inr (.inl ⟨_, rfl, .inl ⟨accepted, [], rfl, haccept⟩⟩)
  | true =>
    simp only [haccept] at haccepted
    obtain ⟨rest, rfl⟩ | ⟨e, w, later', hmem, hserves, hdone⟩ |
      ⟨found, read, v, later, hfile, htext, rfl, hput⟩ := leads_loadSchema haccepted
    · exact .inl ⟨rest, rfl⟩
    · obtain ⟨-, rfl⟩ := hdone.of_done
      exact .inr (.inl ⟨_, rfl, .inr ⟨w, List.mem_cons_of_mem _ hmem, hserves⟩⟩)
    · refine .inr (.inr ⟨⟨p, v, accepted, found, read, haccept, hfile, htext⟩, rfl, ?_⟩)
      obtain ⟨rfl, rfl⟩ | ⟨w, last, rfl, hdone⟩ := hput.of_step
      · exact .inl ⟨rfl, _, rfl⟩
      · obtain ⟨rfl, rfl⟩ := hdone.of_done
        exact .inr ⟨w, rfl, rfl⟩

/-- To get a schema is to look, to fail, to find it known, or to read it and to put the reading into
the store. -/
theorem leads_get {left : Program (World Workspace) (Option Cached)}
    (h : (visit (Store.get p)).Leads seen left) :
    (∃ rest, left = .step (actOn id) rest) ∨ left = .done none ∨
      (∃ w c, seen = [.saw w] ∧ w.state.store.cache.get? p = some c ∧ left = .done (some c)) ∨
      ∃ (r : Reading) (w₀ : World Workspace), r.path = p ∧
        w₀.state.store.cache.get? p = none ∧
        ((seen = .saw w₀ :: r.seen ∧ ∃ rest, left = .step (actOn (putNew p r.value)) rest) ∨
          ∃ w, seen = .saw w₀ :: (r.seen ++ [.saw w]) ∧
            left = .done (some (w.state.store.settled p r.value))) := by
  obtain ⟨rfl, rfl⟩ | ⟨w₀, later, rfl, hlook⟩ := h.of_step
  · exact .inl ⟨_, rfl⟩
  cases hcache : w₀.state.store.cache.get? p with
  | some c =>
    simp only [hcache] at hlook
    obtain ⟨rfl, rfl⟩ := hlook.of_done
    exact .inr (.inr (.inl ⟨w₀, c, rfl, hcache, rfl⟩))
  | none =>
    simp only [hcache] at hlook
    obtain ⟨rfl, rfl⟩ | ⟨accepted, later, rfl, haccepted⟩ := hlook.of_step
    · exact .inl ⟨_, rfl⟩
    cases haccept : accepted.state.store.isSchemaFile p with
    | false =>
      simp only [haccept] at haccepted
      obtain ⟨rfl, rfl⟩ | ⟨w, later, rfl, hroot⟩ := haccepted.of_step
      · exact .inl ⟨_, rfl⟩
      · obtain ⟨-, rfl⟩ := hroot.of_done
        exact .inr (.inl rfl)
    | true =>
      simp only [haccept] at haccepted
      obtain ⟨rest, rfl⟩ | ⟨e, w, later', -, -, hdone⟩ |
        ⟨found, read, v, later, hfile, htext, rfl, hput⟩ := leads_loadSchema haccepted
      · exact .inl ⟨rest, rfl⟩
      · obtain ⟨-, rfl⟩ := hdone.of_done
        exact .inr (.inl rfl)
      · refine .inr (.inr (.inr ⟨⟨p, v, accepted, found, read, haccept, hfile, htext⟩, w₀, rfl,
          hcache, ?_⟩))
        obtain ⟨rfl, rfl⟩ | ⟨w, last, rfl, hdone⟩ := hput.of_step
        · exact .inl ⟨rfl, _, rfl⟩
        · obtain ⟨rfl, rfl⟩ := hdone.of_done
          exact .inr ⟨w, rfl, rfl⟩

/-- The actions of an operation that come to a reading. -/
theorem leads_put (r : Reading) :
    (visit (reload r.path)).Leads r.seen
      (.step (actOn (put r.path r.value)) fun _ => .done .reloaded) := by
  obtain ⟨p, v, accepted, found, read, haccept, hfile, text, htext, hread⟩ := r
  refine .step ?_
  simp only [haccept]
  refine .step ?_
  simp only [hfile]
  refine .step ?_
  simp only [htext, Program.bind, hread]
  exact .refl _

/-- The actions of an operation that come to a new reading. -/
theorem leads_putNew (r : Reading) {w₀ : World Workspace}
    (hunknown : w₀.state.store.cache.get? r.path = none) :
    (visit (Store.get r.path)).Leads (.saw w₀ :: r.seen)
      (.step (actOn (putNew r.path r.value)) fun u =>
        .done (some (u.state.store.settled r.path r.value))) := by
  obtain ⟨p, v, accepted, found, read, haccept, hfile, text, htext, hread⟩ := r
  refine .step ?_
  simp only [hunknown]
  refine .step ?_
  simp only [haccept]
  refine .step ?_
  simp only [hfile]
  refine .step ?_
  simp only [htext, Program.bind, hread]
  exact .refl _

theorem leads_drop {w₀ : World Workspace} (haccept : w₀.state.store.isSchemaFile p = true) :
    (visit (evict p)).Leads [.saw w₀] (.step (actOn (drop p)) fun w =>
      visit (if w.state.store.cache.contains p then .done .evicted else .done .ignored)) := by
  refine .step ?_
  simp only [haccept]
  exact .refl _

/-- Every action of an operation is one of those. -/
theorem does_of_leads {a : Access} {change : World Workspace → World Workspace}
    {rest : World Workspace → Program (World Workspace) a.Result}
    (h : (visit a.program).Leads seen (.step change rest)) : ∃ f, change = actOn f ∧ Does a seen f := by
  cases a with
  | get p =>
    obtain ⟨rest', hleft⟩ | hleft | ⟨_, _, -, -, hleft⟩ |
      ⟨r, w₀, rfl, hunknown, ⟨rfl, rest', hleft⟩ | ⟨_, -, hleft⟩⟩ := leads_get h
    · cases hleft
      exact ⟨id, rfl, .look _ _⟩
    · cases hleft
    · cases hleft
    · cases hleft
      exact ⟨_, rfl, .putNew hunknown⟩
    · cases hleft
  | reload p =>
    obtain ⟨rest', hleft⟩ | ⟨c, hleft, -⟩ | ⟨r, rfl, ⟨rfl, rest', hleft⟩ | ⟨w, -, hleft⟩⟩ :=
      leads_reload h
    · cases hleft
      exact ⟨id, rfl, .look _ _⟩
    · cases hleft
    · cases hleft
      exact ⟨_, rfl, .put r⟩
    · cases hleft
  | evict p =>
    obtain ⟨rfl, hleft⟩ | ⟨w₀, later, rfl, hlook⟩ := h.of_step
    · cases hleft
      exact ⟨id, rfl, .look _ _⟩
    cases haccept : w₀.state.store.isSchemaFile p with
    | false =>
      simp only [haccept] at hlook
      obtain ⟨-, hleft⟩ := hlook.of_done
      cases hleft
    | true =>
      simp only [haccept] at hlook
      obtain ⟨rfl, hleft⟩ | ⟨w, later, rfl, hdrop⟩ := hlook.of_step
      · cases hleft
        exact ⟨_, rfl, .drop haccept⟩
      · cases hcontains : w.state.store.cache.contains p with
        | false | true =>
          simp only [hcontains] at hdrop
          obtain ⟨-, hleft⟩ := hdrop.of_done
          cases hleft
  | setRoot root =>
    obtain ⟨rfl, hleft⟩ | ⟨w₀, later, rfl, hreroot⟩ := h.of_step
    · cases hleft
      exact ⟨_, rfl, .reroot root⟩
    obtain ⟨rfl, hleft⟩ | ⟨w, later, rfl, hclear⟩ := hreroot.of_step
    · cases hleft
      exact ⟨_, rfl, .clear root w₀⟩
    · obtain ⟨-, hleft⟩ := hclear.of_done
      cases hleft

end Leads

/-! ### Actions on entries -/

variable {w : World Workspace} {x : Workspace} {p q : Path} {s : Store} {r : Reading} {c : Cached}

/-- Where a reading is put, an entry stays what it is or becomes that of the reading. -/
theorem get?_put_eq_some {v : Value} (hbefore : s.cache.get? q ≠ some c)
    (hafter : (s.put p v).cache.get? q = some c) : p.same q = true ∧ c = ⟨s.nextHandle, v⟩ := by
  by_cases hp : p.same q = true
  · rw [get?_put_of_same v hp] at hafter
    exact ⟨hp, (Option.some.inj hafter).symm⟩
  · rw [get?_put_of_not_same v hp] at hafter
    exact absurd hafter hbefore

section Acts

variable [Retrieval] {b : Progress accesses.inWorld}

theorem does_of_acts (h : Acts b w x) : ∃ before later f, b.seen = before ++ .saw w :: later ∧
    Does b.operation before f ∧ x.store = f w.state.store := by
  obtain ⟨before, later, change, rest, hseen, hleads, rfl⟩ := h
  obtain ⟨f, rfl, hdoes⟩ := does_of_leads hleads
  exact ⟨before, later, f, hseen, hdoes, rfl⟩

/-- An entry comes of a reading that an operation puts into the store. -/
theorem puts_of_acts (h : Acts b w x) (hbefore : w.state.store.cache.get? q ≠ some c)
    (hafter : x.store.cache.get? q = some c) :
    ∃ r, Puts b r w ∧ r.path.same q = true ∧ c = r.entry w := by
  obtain ⟨o, seen⟩ := b
  obtain ⟨before, later, f, rfl, hdoes, hx⟩ := does_of_acts h
  rw [hx] at hafter
  -- what leaves the entries alone, or only takes some away, cannot make this one
  cases hdoes with
  | look | reroot => exact absurd hafter hbefore
  | @putNew r w₀ hunknown =>
    unfold putNew at hafter
    split at hafter
    · exact absurd hafter hbefore
    · rename_i hnew
      have hnone : w.state.store.cache.get? r.path = none := by
        simpa [PathMap.contains] using hnew
      obtain ⟨hr, rfl⟩ := get?_put_eq_some hbefore hafter
      exact ⟨r, .get hunknown hnone, hr, rfl⟩
  | put r =>
    obtain ⟨hr, rfl⟩ := get?_put_eq_some hbefore hafter
    exact ⟨r, .reload, hr, rfl⟩
  | @drop p w₀ haccept =>
    by_cases hp : p.same q = true
    · rw [get?_drop_of_same hp] at hafter
      cases hafter
    · rw [get?_drop_of_not_same hp] at hafter
      exact absurd hafter hbefore
  | clear => cases hafter

/-- An entry goes with an operation that drops it. -/
theorem drops_of_acts (h : Acts b w x) (hbefore : w.state.store.cache.get? q ≠ none)
    (hafter : x.store.cache.get? q = none) : Drops b q w := by
  obtain ⟨c, hc⟩ := Option.ne_none_iff_exists'.1 hbefore
  obtain ⟨o, seen⟩ := b
  obtain ⟨before, later, f, rfl, hdoes, hx⟩ := does_of_acts h
  rw [hx] at hafter
  -- what puts a reading leaves all other entries as they are
  cases hdoes with
  | look | reroot => exact absurd hafter hbefore
  | @putNew r w₀ hunknown =>
    rw [keepsEntries_putNew _ _ _ _ _ hc] at hafter
    cases hafter
  | put r =>
    by_cases hr : r.path.same q = true
    · rw [get?_put_of_same _ hr] at hafter
      cases hafter
    · rw [get?_put_of_not_same _ hr] at hafter
      exact absurd hafter hbefore
  | @drop p w₀ haccept =>
    by_cases hp : p.same q = true
    · exact .evict haccept hp
    · rw [get?_drop_of_not_same hp] at hafter
      exact absurd hafter hbefore
  | clear root w₀ => exact .setRoot

/-- The root becomes another with the operation that sets it. -/
theorem setRoot_of_acts (h : Acts b w x) (hroot : x.store.root ≠ w.state.store.root) :
    ∃ later, b = ⟨Access.setRoot x.store.root, .saw w :: later⟩ := by
  obtain ⟨o, seen⟩ := b
  obtain ⟨before, later, f, rfl, hdoes, hx⟩ := does_of_acts h
  rw [hx] at hroot ⊢
  cases hdoes with
  | look | put | drop | clear => exact absurd rfl hroot
  | putNew =>
    refine absurd ?_ hroot
    unfold putNew
    split <;> rfl
  | reroot root => exact ⟨later, rfl⟩

theorem acts_of_drops (h : Drops b q w) : ∃ x, Acts b w x ∧ x.store.cache.get? q = none := by
  cases h with
  | @evict p q w₀ w later haccept hp =>
    exact ⟨_, ⟨[.saw w₀], later, _, _, rfl, leads_drop haccept, rfl⟩, get?_drop_of_same hp⟩
  | @setRoot root q w₀ w later =>
    exact ⟨_, ⟨[.saw w₀], later, _, _, rfl, .step (.refl _), rfl⟩, rfl⟩

theorem acts_of_reload (r : Reading) (w : World Workspace)
    (later : List (Observation (World Workspace))) :
    ∃ x, Acts (R := accesses) ⟨Access.reload r.path, r.seen ++ .saw w :: later⟩ w x ∧
      x.store.cache.get? r.path = some (r.entry w) :=
  ⟨_, ⟨r.seen, later, _, _, rfl, leads_put r, rfl⟩, PathMap.get?_insert_self _ _ _⟩

end Acts

/-! ### Operations on their own -/

/-- Clients may call any of the operations by itself. -/
theorem client_access [Retrieval] (a : Access) :
    accesses.inWorld.Client ((accesses.inWorld.program a).bind fun _ => .done ()) := by
  have h : Client ((onStore a.program).bind fun _ => .done ()) := by
    cases a with
    | get p => exact .get p
    | reload p => exact .handleEvent (.modified p)
    | evict p => exact .handleEvent (.deleted p)
    | setRoot root => exact .setRoot root
  exact Repertoire.visits_call (R := accesses) (f := fun _ => .done ()) h

section Advances

variable {w : World Workspace} {p : Path} {v : Value}

/-- A reading that nothing interrupts. -/
def Reading.ofServes (haccept : w.state.store.isSchemaFile p = true) (hserves : Serves w.host p v) :
    Reading where
  path := p
  value := v
  accepted := w
  found := w.later 1
  read := w.later 2
  isSchemaFile := haccept
  isFile := hserves.1
  readText := hserves.2

theorem advances_load {α : Type} {k : Except LoadError Value → Program Store α}
    (hserves : Serves w.host p v) :
    Advances (visit ((loadSchema p).bind k)) w [.saw w, .saw (w.later 1)] (visit (k (.ok v)))
      (w.later 2) := by
  obtain ⟨hfile, text, htext, hread⟩ := hserves
  refine .step ?_
  simp only [hfile]
  refine .step ?_
  have htext' : (World.next id w).host (.readText p) = .ok text := htext
  simp only [htext', Program.bind, hread]
  exact .refl _ _

theorem advances_reload (haccept : w.state.store.isSchemaFile p = true)
    (hserves : Serves w.host p v) :
    Advances (visit (reload p)) w (Reading.ofServes haccept hserves).seen
      (.step (actOn (put p v)) fun _ => .done .reloaded) (w.later 3) := by
  refine .step ?_
  simp only [haccept]
  exact advances_load (w := w.later 1) hserves

theorem advances_get (hunknown : w.state.store.cache.get? p = none)
    (haccept : w.state.store.isSchemaFile p = true) (hserves : Serves w.host p v) :
    Advances (visit (Store.get p)) w
      (.saw w :: (Reading.ofServes (w := w.later 1) haccept hserves).seen)
      (.step (actOn (putNew p v)) fun w => .done (some (w.state.store.settled p v))) (w.later 4) := by
  refine .step ?_
  simp only [hunknown]
  refine .step ?_
  have haccept' : (World.next (fun t => { t with store := id t.store }) w).state.store.isSchemaFile p
    = true := haccept
  simp only [Program.bind, haccept']
  exact advances_load (w := w.later 2) hserves

theorem advances_evict (haccept : w.state.store.isSchemaFile p = true) :
    Advances (visit (evict p)) w [.saw w, .saw (w.later 1)]
      (.done (if w.state.store.cache.contains p then .evicted else .ignored))
      (actOn (drop p) (w.later 1)) := by
  refine .step ?_
  simp only [haccept]
  refine .step ?_
  have hsame : (World.next (fun t => { t with store := id t.store }) w).state.store = w.state.store :=
    rfl
  simp only [hsame]
  cases w.state.store.cache.contains p with
  | false | true => exact .refl _ _

theorem advances_setRoot (root : Path) :
    Advances (visit (setRoot root)) w [.saw w, .saw (actOn (fun s => { s with root }) w)]
      (.done ()) (actOn (fun s => { s with cache := [] }) (actOn (fun s => { s with root }) w)) :=
  .step (.step (.refl _ _))

end Advances

end DocSchema.Store
