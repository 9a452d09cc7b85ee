/-
  DocSchema/Proofs/Workspace/Alone.lean
  =====================================
  **What a validation comes to when nothing interrupts it.**

  What a validation finds is told without the program that does it (`resultOf`): it depends on
  what the host has of the document, and on what the store knows of the schema that the header
  names, or else the host has.  The store comes to know that schema and no other (`learned`).  For
  the rest an operation takes the next number and reports what it has found
  (`alone_revalidate_eq`, `Operation.alone_program`).

  Under a host that has a schema for a document, this is the answer by that schema, or by the one
  that the store knows already (`resultOf_of_serves`).  So a session comes to a board with an
  outcome on it (`exists_reachable_afterRun`).
-/
import DocSchema.Proofs.SchemaRef
import DocSchema.Proofs.Skeleton.Compile
import DocSchema.Proofs.Store.Growth

namespace DocSchema.Workspace

open DocSchema.Json DocSchema.Program DocSchema.Skeleton DocSchema.Store

variable {host : (q : Request) → q.Reply} {w : Workspace} {d p : Path} {n : Nat} {s s' : Store}
  {text : String} {v : Value}

/-! ### What a validation finds -/

/-- What becomes of a text in the place of a document, as run `n`. -/
def resultOfText [Retrieval] (host : (q : Request) → q.Reply) (s : Store) (d : Path) (n : Nat)
    (text : String) : RunResult :=
  match DocSchema.schemaRef? (Document.parse text).metadata s.root with
  | none => .ok none
  | some schema =>
    match s.known? host schema with
    | none => .ok none
    | some v => answer d n (Document.parse text) schema v

/-- What becomes of a document that the host has, as run `n`. -/
def resultOf [Retrieval] (host : (q : Request) → q.Reply) (s : Store) (d : Path) (n : Nat) :
    RunResult :=
  match host (.readText d) with
  | .error e => .error (.documentRead d e)
  | .ok text => resultOfText host s d n text

theorem resultOf_of_grown [Retrieval] (hhost : Uniform host) (h : Grown host s s') (d : Path)
    (n : Nat) : resultOf host s' d n = resultOf host s d n := by
  unfold resultOf resultOfText
  simp only [h.root, known?_of_grown hhost h]

/-- The store once a text has been validated. -/
def learnedText (host : (q : Request) → q.Reply) (text : String) (s : Store) : Store :=
  match DocSchema.schemaRef? (Document.parse text).metadata s.root with
  | none => s
  | some schema => s.asked host schema

theorem grown_learnedText (text : String) (s : Store) :
    Grown host s (learnedText host text s) := by
  unfold learnedText
  split
  · exact .refl host s
  · exact .asked host s _

/-- The schema that the header of a document names. -/
def namedSchema? (host : (q : Request) → q.Reply) (root d : Path) : Option Path :=
  (host (.readText d)).toOption.bind fun text =>
    DocSchema.schemaRef? (Document.parse text).metadata root

/-- The store once a document has been validated. -/
def learned (host : (q : Request) → q.Reply) (d : Path) (s : Store) : Store :=
  match namedSchema? host s.root d with
  | none => s
  | some schema => s.asked host schema

theorem grown_learned (d : Path) (s : Store) : Grown host s (learned host d s) := by
  unfold learned
  split
  · exact .refl host s
  · exact .asked host s _

/-- A validation does to the store what it takes to get the schema. -/
theorem alone_validateParsed_store [Retrieval] {parsed : Document}
    (h : DocSchema.schemaRef? parsed.metadata w.store.root = some p) :
    ((validateParsed d n parsed).alone host w).2 =
      { w with store := ((Store.get p).alone host w.store).2 } := by
  simp only [validateParsed, Program.look, Bind.bind, Pure.pure, Program.bind, alone, h, id,
    alone_bind, alone_onStore]
  cases ((Store.get p).alone host w.store).1 with
  | none => rfl
  | some c =>
    dsimp only
    cases validateLocated d parsed.root c.schema with
    | error e => rfl
    | ok errors => rfl

theorem alone_validateParsed_eq [Retrieval] (text : String) :
    (validateParsed d n (Document.parse text)).alone host w =
      (resultOfText host w.store d n text,
        { w with store := learnedText host text w.store }) := by
  unfold resultOfText learnedText
  cases href : DocSchema.schemaRef? (Document.parse text).metadata w.store.root with
  | none =>
    simp [validateParsed, Program.look, Bind.bind, Pure.pure, Program.bind, alone, href]
  | some schema =>
    obtain ⟨hfound, hasked⟩ := alone_get_eq host w.store schema
    refine Prod.ext ?_ ?_
    · rw [alone_validateParsed href]
      dsimp only
      rw [← hfound]
      cases ((Store.get schema).alone host w.store).1 with
      | none => rfl
      | some c => rfl
    · rw [alone_validateParsed_store href, hasked]

/-! ### Operations -/

theorem alone_work_revalidate [Retrieval] (d : Path) (n : Nat) (w : Workspace) :
    ((Operation.revalidate d).work n).alone host w =
      (resultOf host w.store d n, { w with store := learned host d w.store }) := by
  unfold resultOf learned namedSchema?
  cases htext : host (.readText d) with
  | error e =>
    simp only [Operation.work, judge, alone, htext]
    rfl
  | ok text =>
    have hwork : ((Operation.revalidate d).work n).alone host w =
        (validateParsed d n (Document.parse text)).alone host w := by
      simp only [Operation.work, judge, alone, htext]
    rw [hwork, alone_validateParsed_eq]
    rfl

theorem alone_revalidate_eq [Retrieval] (d : Path) (w : Workspace) :
    (Workspace.revalidate d).alone host w =
      let result := resultOf host w.store d (w.runs + 1)
      (result, reported d (w.runs + 1) result.verdict
        { countRun w with store := learned host d w.store }) := by
  change (Operation.revalidate d).program.alone host w = _
  rw [Operation.program_eq, alone, alone_bind, alone_work_revalidate]
  rfl

namespace Operation

/-- What an operation finds, as run `n`. -/
def found [Retrieval] (host : (q : Request) → q.Reply) (s : Store) (n : Nat) : Operation → Verdict
  | .revalidate d => (resultOf host s d n).verdict
  | .forget _ => .cleared
  | .validateText d text => (resultOfText host s d n text).verdict

theorem alone_work [Retrieval] (host : (q : Request) → q.Reply) (o : Operation) (n : Nat)
    (w : Workspace) :
    o.verdict ((o.work n).alone host w).1 = o.found host w.store n ∧
      ∃ s, ((o.work n).alone host w).2 = { w with store := s } ∧ Grown host w.store s := by
  cases o with
  | forget d => exact ⟨rfl, w.store, rfl, .refl host w.store⟩
  | validateText d text =>
    have hrun : (validateParsed d n (Document.parse text)).alone host w =
        (resultOfText host w.store d n text,
          { w with store := learnedText host text w.store }) := alone_validateParsed_eq text
    refine ⟨?_, learnedText host text w.store, ?_, grown_learnedText text w.store⟩
    · exact congrArg (fun run => run.1.verdict) hrun
    · exact congrArg Prod.snd hrun
  | revalidate d =>
    rw [alone_work_revalidate]
    exact ⟨rfl, learned host d w.store, rfl, grown_learned d w.store⟩

/-- An operation that runs alone takes the next number and reports what it finds. -/
theorem alone_program [Retrieval] (host : (q : Request) → q.Reply) {o : Operation}
    (hp : o.subject? = some p) :
    ∃ s, (o.program.alone host w).2 =
      reported p (w.runs + 1) (o.found host w.store (w.runs + 1)) { countRun w with store := s } ∧
      Grown host w.store s := by
  obtain ⟨hverdict, s, hstate, hgrown⟩ := alone_work host o (w.runs + 1) (countRun w)
  refine ⟨s, ?_, hgrown⟩
  have hfound : o.found host (countRun w).store (w.runs + 1) = o.found host w.store (w.runs + 1) :=
    rfl
  rw [program_eq, alone, alone_bind, hstate]
  unfold conclude
  rw [hp, ← hfound, ← hverdict]
  rfl

end Operation

/-- What an event does to the store is what it tells. -/
theorem store_alone_handleEvent [Retrieval] (e : FileEvent) :
    ((Workspace.handleEvent e).alone host w).1.store =
      ((Store.handleEvent e).alone host w.store).1 := by
  simp only [Workspace.handleEvent, Bind.bind, Pure.pure, alone_bind, alone_onStore, alone]

/-! ### Schemas that the host has -/

section Serves

variable (haccept : s.isSchemaFile p = true) (hserves : Serves host p v)

include haccept hserves

theorem known?_of_serves : s.known? host p = some (s.settled p v).schema := by
  rw [← (alone_get_eq host s p).1, Store.alone_get haccept hserves]
  rfl

theorem asked_of_serves : s.asked host p = s.putNew p v := by
  rw [← (alone_get_eq host s p).2, Store.alone_get haccept hserves]

variable (htext : host (.readText d) = .ok text)
  (hnames : DocSchema.schemaRef? (Document.parse text).metadata s.root = some p)

include htext hnames

/-- A document is answered by what the store knows of its schema, or else by what the host has. -/
theorem resultOf_of_serves [Retrieval] (n : Nat) :
    resultOf host s d n = answer d n (Document.parse text) p (s.settled p v).schema := by
  simp only [resultOf, resultOfText, htext, hnames, known?_of_serves haccept hserves]

theorem learned_of_serves : learned host d s = s.putNew p v := by
  simp only [learned, namedSchema?, htext, Except.toOption, Option.bind_some, hnames,
    asked_of_serves haccept hserves]

end Serves

/-! ### A board with an outcome -/

/-- A schema that no document fits: the kind of its root is another. -/
def listSchema : Value :=
  .object (rootMembers "note" [("type", .const (.string "list"))])

/-- A host with a note, and with that schema for it. -/
def listHost : (q : Request) → q.Reply :=
  hostOf [(⟨"a.md"⟩, "---\n$schema: note.json\n---\n"),
    (⟨"schemas/note.json"⟩, "\x7b\"$schema\":\"http://json-schema.org/draft-07/schema#\"," ++
      "\"type\":\"object\",\"title\":\"note\",\"properties\":\x7b\"type\":" ++
      "\x7b\"const\":\"list\",\"type\":\"string\"\x7d\x7d\x7d")]

theorem serves_listSchema : Serves listHost ⟨"schemas/note.json"⟩ listSchema :=
  serves_hostOf rfl (by cbv)

theorem validateLocated_listSchema :
    ∃ e, validateLocated ⟨"a.md"⟩ (Document.parse "---\n$schema: note.json\n---\n").root
      listSchema = .ok [e] := by
  have hlength : (validateLocated ⟨"a.md"⟩ (Document.parse "---\n$schema: note.json\n---\n").root
      listSchema).toOption.map List.length = some 1 := by
    unfold validateLocated validate validateInstance listSchema
    rw [compile_rootMembers]
    decide +kernel
  generalize validateLocated _ _ _ = r at hlength
  cases r with
  | error e => cases hlength
  | ok errors =>
    obtain ⟨e, rfl⟩ := List.length_eq_one_iff.1 (Option.some.inj hlength)
    exact ⟨e, rfl⟩

/-- The note after its first run, which came to an outcome with an error. -/
def afterRun (e : LocatedError) : Workspace :=
  { settings := {}
    store := (Store.ofRoot ⟨"schemas"⟩).putNew ⟨"schemas/note.json"⟩ listSchema
    board := ⟨[(⟨"a.md"⟩, ⟨1, .validated ⟨⟨"a.md"⟩, 1, ⟨"schemas/note.json"⟩, [e]⟩⟩)]⟩
    runs := 1 }

theorem isSchemaFile_afterRun (e : LocatedError) (p : Path) :
    (afterRun e).store.isSchemaFile p = (Store.ofRoot ⟨"schemas"⟩).isSchemaFile p :=
  isSchemaFile_congr (Path.same_refl p) rfl

theorem reachable_revalidate [Retrieval] (settings : Settings) (host : (q : Request) → q.Reply)
    (d : Path) : ∃ S : Session repertoire, S.Reachable (.ofSettings settings) ∧
      S.state = ((Workspace.revalidate d).alone host (.ofSettings settings)).2 :=
  ⟨_, Session.Leads.call (R := repertoire) (S := ⟨.ofSettings settings, [], []⟩) .refl host
    (Operation.revalidate d) (Client.revalidate d), rfl⟩

theorem exists_reachable_afterRun :
    ∃ (S : Session repertoire) (e : LocatedError), S.Reachable (.ofSettings {}) ∧
      S.state = afterRun e := by
  obtain ⟨e, he⟩ := validateLocated_listSchema
  obtain ⟨S, hS, hstate⟩ := reachable_revalidate {} listHost ⟨"a.md"⟩
  refine ⟨S, e, hS, ?_⟩
  have haccept : (Store.ofRoot ⟨"schemas"⟩).isSchemaFile ⟨"schemas/note.json"⟩ = true := by decide
  have hnames : DocSchema.schemaRef? (Document.parse "---\n$schema: note.json\n---\n").metadata
      ⟨"schemas"⟩ = some ⟨"schemas/note.json"⟩ := by decide +kernel
  have hresult : resultOf listHost (Store.ofRoot ⟨"schemas"⟩) ⟨"a.md"⟩ 1 =
      .ok (some ⟨⟨"a.md"⟩, 1, ⟨"schemas/note.json"⟩, [e]⟩) :=
    (resultOf_of_serves haccept serves_listSchema rfl hnames 1).trans (answer_of_ok he)
  have hlearned := learned_of_serves haccept serves_listSchema (d := ⟨"a.md"⟩) rfl hnames
  change S.state = ((Workspace.revalidate ⟨"a.md"⟩).alone listHost
    ⟨{}, Store.ofRoot ⟨"schemas"⟩, {}, 0⟩).2 at hstate
  rw [hstate, alone_revalidate_eq]
  dsimp only [Nat.zero_add]
  rw [hresult, hlearned]
  rfl

end DocSchema.Workspace
