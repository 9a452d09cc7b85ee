/-
  DocSchema/Proofs/Workspace/Reload.lean
  ======================================
  **Which documents an event validates again when it reloads a schema.**

  A board remembers the schema of a document only with an outcome.  When a schema is read again,
  the documents that are validated again are therefore exactly those whose last run named it and
  came to an outcome (`reloaded_schema_reaches_outcomes`); a document that is a schema file itself
  is one more.  All others keep what the board has of them.

  In particular a failure stays when its schema is repaired: the last run has named the schema,
  but the board has forgotten which one it was (`failure_outlives_repair`).
-/
import DocSchema.Proofs.Workspace.Event

namespace DocSchema.Workspace

open DocSchema.Json DocSchema.Program

variable {w w' : Workspace} {d p schema : Path} {ds : List Path}

/-! ### The schema of a run -/

/-- The operation read a document whose header names a schema, below the root that was in force
when it looked. -/
inductive NamesSchema [Retrieval] : Progress repertoire → Path → Prop
  | intro {p schema : Path} {w w' : Workspace} {text : String} {later : List (Observation Workspace)}
      (h : DocSchema.schemaRef? (Document.parse text).metadata w'.store.root = some schema) :
      NamesSchema ⟨Operation.revalidate p,
        .saw w :: .heard (.readText p) (.ok text) :: .saw w' :: later⟩ schema

/-- An operation names one schema at most. -/
theorem NamesSchema.unique [Retrieval] {b : Progress repertoire} {schema' : Path}
    (h : NamesSchema b schema) (h' : NamesSchema b schema') : schema = schema' := by
  cases h with
  | intro h =>
    cases h' with
    | intro h' => exact Option.some.inj (h.symm.trans h')

/-- An outcome is one against the schema that the header names. -/
theorem schemaRef?_of_leads [Retrieval] {document : Path} {n : Nat} {parsed : Document}
    {o : Outcome} {seen : List (Observation Workspace)}
    (h : (validateParsed document n parsed).Leads seen (.done (.ok (some o)))) :
    ∃ w later, seen = .saw w :: later ∧
      DocSchema.schemaRef? parsed.metadata w.store.root = some o.schema := by
  obtain ⟨w, later, schema, c, errors, rfl, href, -, rfl⟩ := outcome_of_leads h
  exact ⟨w, later, rfl, href⟩

theorem namesSchema_of_records [Retrieval] {b : Progress repertoire} {n : Nat} {o : Outcome}
    (h : Records b d n (.validated o)) : NamesSchema b o.schema := by
  obtain ⟨op, seen⟩ := b
  generalize hv : Verdict.validated o = v at h
  cases h with
  | forget hd => cases hv
  | @revalidate p d w w' reply work result hd hwork =>
    have hresult : result = .ok (some o) := eq_of_verdict hv.symm
    subst hresult
    cases reply with
    | error e =>
      obtain ⟨-, hdone⟩ := hwork.of_done
      cases hdone
    | ok text =>
      obtain ⟨w'', later, rfl, href⟩ := schemaRef?_of_leads hwork
      exact .intro href

/-- The last run that the board has recorded for a document, and what it came to. -/
def LastRecorded [Retrieval] (S : Session repertoire) (d : Path) (b : Progress repertoire)
    (v : Verdict) : Prop :=
  b ∈ S.begun ∧ ∃ n, S.state.board.slots.get? d = some ⟨n, v⟩ ∧ Records b d n v

/-- Of a document with an outcome, the last run has named the schema of the outcome. -/
theorem validatedAgainst_iff [Retrieval] {settings : Settings} {S : Session repertoire}
    (hS : S.Reachable (.ofSettings settings)) :
    ValidatedAgainst S.state d p ↔ ∃ b o schema, LastRecorded S d b (.validated o) ∧
      NamesSchema b schema ∧ schema.same p = true := by
  constructor
  · rintro ⟨o, ho, hschema⟩
    obtain ⟨⟨n, v⟩, hslot, hout⟩ := Option.bind_eq_some_iff.1 ho
    obtain ⟨b, hb, hrec⟩ := (consistent_of_reachable hS).recorded d _ hslot
    have hv : v = .validated o := by
      cases v with
      | validated o' => simpa [Board.outcomeOf?] using hout
      | cleared => cases hout
      | failed message => cases hout
    subst hv
    exact ⟨b, o, o.schema, ⟨hb, n, hslot, hrec⟩, namesSchema_of_records hrec, hschema⟩
  · rintro ⟨b, o, schema, ⟨-, n, hslot, hrec⟩, hnames, hschema⟩
    refine ⟨o, by simp [Board.outcome?, hslot, Board.outcomeOf?], ?_⟩
    rwa [(namesSchema_of_records hrec).unique hnames]

/-! ### The documents that are validated again -/

theorem distinct_of_reachable [Retrieval] {settings : Settings} {S : Session repertoire}
    (hS : S.Reachable (.ofSettings settings)) : S.state.board.slots.Distinct := by
  refine Session.Reachable.induct (P := fun w _ => w.board.slots.Distinct) (fun _ h => h)
    List.Pairwise.nil (fun heffect h => ?_) hS
  have hstoreOnly : ∀ {w change}, StoreOnly change → w.board.slots.Distinct →
      (change w).board.slots.Distinct := by
    intro w change hchange hw
    obtain ⟨store, heq⟩ := hchange w
    rwa [heq]
  cases heffect with
  | none | enter _ | hear _ _ => exact h
  | idle hidle => exact hstoreOnly hidle h
  | change hleads =>
    obtain ⟨-, rfl⟩ | ⟨-, hstore, -⟩ | ⟨n, p, r, -, -, rfl, -⟩ := Operation.change_cases hleads
    · exact h
    · exact hstoreOnly hstore h
    · exact Board.distinct_apply h _ _ _

/-- An event that reloads the one schema that it names lists the documents of that schema, and the
document that it is about. -/
theorem revalidated_of_reloaded [Retrieval] {e : FileEvent} {out : EventOutcome} (hw : Bounded w)
    (hauto : w.settings.autolint = true) (he : affectedSchemas e = [p])
    (h : Executes (Workspace.handleEvent e) w out w') (hout : out.store = .reloaded) :
    out.revalidated = w.board.dependents p ++ refreshed true e := by
  obtain ⟨update, v, hstore, hrest⟩ := h.of_bind
  obtain ⟨store, -, rfl⟩ := executes_onStore hstore
  obtain ⟨ds, v, hdependents, hrest⟩ := hrest.of_bind
  obtain ⟨u, v', hsource, hrest⟩ := hrest.of_bind
  obtain ⟨own, v'', hdocument, hanswer⟩ := hrest.of_bind
  obtain ⟨rfl, rfl⟩ := hanswer.of_done
  have hstart : Bounded { w with store } := hw
  obtain ⟨hrenews, -, -⟩ := of_updateDependents hstart hdependents
  have hmoved := renews_of_forgetSource hrenews.bounded hsource
  obtain ⟨rfl, -⟩ := of_updateDocument hmoved.bounded hdocument
  rw [hmoved.settings, hrenews.settings, hauto]
  refine congrArg (· ++ refreshed true e) ?_
  -- the store tells of the reload, so that the one schema's documents are swept
  obtain ⟨autolint, x, hlook, hsweep⟩ := hdependents.of_bind
  obtain ⟨rfl, rfl⟩ := hlook.of_step.of_done
  change update = .reloaded at hout
  subst hout
  simp only [id, hauto, he, beq_self_eq_true, Bool.true_or, Bool.and_true, if_true] at hsweep
  obtain ⟨dss, y, hall, hlist⟩ := hsweep.of_bind
  obtain ⟨rfl, rfl⟩ := hlist.of_done
  obtain ⟨ds, z, hfirst, hnone⟩ := hall.of_bind
  obtain ⟨rest, z', hempty, hlist⟩ := hnone.of_bind
  obtain ⟨rfl, rfl⟩ := hempty.of_done
  obtain ⟨rfl, rfl⟩ := hlist.of_done
  obtain ⟨rfl, -⟩ := of_revalidateDependents hstart hfirst
  simp

/-! ### A failure that outlives its schema -/

section Failure

variable {settings : Settings} {host : (q : Request) → q.Reply} {text : String} {v : Value}
  {e : SchemaError}

/-- The host has a document whose header names the schema `p`, and there a value that is no
schema. -/
structure NoSchema [Retrieval] (settings : Settings) (host : (q : Request) → q.Reply) (d p : Path)
    (text : String) (v : Value) (e : SchemaError) : Prop where
  below : settings.schemaRoot.climbs = false
  document : host (.readText d) = .ok text
  names : DocSchema.schemaRef? (Document.parse text).metadata settings.schemaRoot = some p
  serves : Serves host p v
  refused : ∀ tree, validateLocated d tree v = .error e

/-- What a board has of a document whose schema is refused. -/
def refusal (p : Path) (e : SchemaError) : Verdict :=
  .failed (ValidateError.invalidSchema (some p) e).message

theorem trace_revalidate [Retrieval] (htext : host (.readText d) = .ok text) :
    ∃ later, (Operation.revalidate d).program.trace host w =
      .saw w :: .heard (.readText d) (.ok text) :: .saw (countRun w) :: later := by
  rw [Operation.program_eq]
  simp only [trace, Operation.work, Program.bind]
  rw [htext]
  exact ⟨_, rfl⟩

/-- A run of such a document is refused, as long as the store knows nothing of its schema. -/
theorem alone_revalidate_of_refused [Retrieval] (h : NoSchema settings host d p text v e)
    (hroot : w.store.root = settings.schemaRoot) (hunknown : w.store.cache.get? p = none) :
    (Operation.revalidate d).program.alone host w = (.error (.invalidSchema (some p) e),
      reported d (w.runs + 1) (refusal p e)
        { countRun w with store := w.store.putNew p v }) := by
  have haccept : w.store.isSchemaFile p = true := by
    rw [isSchemaFile_of_schemaRef? h.names hroot, h.below]
    rfl
  have hsettled : w.store.settled p v = ⟨w.store.nextHandle, v⟩ := by
    simp [Store.settled, hunknown]
  have hnames : DocSchema.schemaRef? (Document.parse text).metadata w.store.root = some p :=
    hroot ▸ h.names
  change (Workspace.revalidate d).alone host w = _
  rw [alone_revalidate_eq, resultOf_of_serves haccept h.serves h.document hnames,
    learned_of_serves haccept h.serves h.document hnames, hsettled]
  simp only [answer, h.refused]
  rfl

/-- The first run of a document whose schema is refused. -/
theorem exists_refused [Retrieval] (h : NoSchema settings host d p text v e) :
    ∃ S : Session repertoire, S.Reachable (.ofSettings settings) ∧ S.state.settings = settings ∧
      S.state.store.isSchemaFile p = true ∧ S.state.board.slots = [(d, ⟨1, refusal p e⟩)] ∧
      ∃ b, LastRecorded S d b (refusal p e) ∧ NamesSchema b p := by
  let w : Workspace := .ofSettings settings
  have hrun := alone_revalidate_of_refused (w := w) h rfl rfl
  obtain ⟨later, htrace⟩ := trace_revalidate (w := w) h.document
  have hreach := Session.Leads.call (R := repertoire) (S := ⟨w, [], []⟩) .refl host
    (Operation.revalidate d) (Client.revalidate d)
  have hstate : ((Operation.revalidate d).program.alone host w).2 = _ := congrArg Prod.snd hrun
  have hended : (Operation.revalidate d).program.Leads _ (.done _) :=
    (Session.Reachable.faithful hreach).ended _ List.mem_cons_self
  obtain ⟨n, hn, hrec⟩ := records_of_leads hended ⟨d, rfl, Path.same_refl d⟩
  simp only [repertoire] at hreach hn hrec
  rw [htrace] at hn hrec
  rw [hrun] at hrec
  cases hn
  refine ⟨_, hreach, ?_, ?_, ?_, _, ⟨?_, 1, ?_, hrec⟩, .intro h.names⟩
  · rw [hstate]
    rfl
  · rw [hstate]
    refine (isSchemaFile_of_schemaRef? h.names ?_).trans ?_
    · rfl
    · rw [h.below]
      rfl
  · rw [hstate]
    rfl
  · refine List.mem_append_right _ (List.mem_map.2 ⟨_, List.mem_cons_self, ?_⟩)
    rw [htrace]
    rfl
  · rw [hstate]
    exact PathMap.get?_insert_self [] d _

/-- Its schema is repaired, and read again: the failure stays on the board. -/
theorem exists_kept_failure [Retrieval] (h : NoSchema settings host d p text v e)
    (hauto : settings.autolint = true) (hp : p.isDocument = false)
    {host' : (q : Request) → q.Reply} {v' : Value} (hserves : Serves host' p v') :
    ∃ (S : Session repertoire) (out : EventOutcome) (w' : Workspace),
      S.Reachable (.ofSettings settings) ∧ S.state.settings.autolint = true ∧
      Executes (Workspace.handleEvent (.modified p)) S.state out w' ∧ out.store = .reloaded ∧
      out.revalidated = [] ∧ ∃ b, LastRecorded S d b (refusal p e) ∧ NamesSchema b p := by
  obtain ⟨S, hS, hsettings, haccept, hslots, b, hlast, hnames⟩ := exists_refused h
  have hauto' : S.state.settings.autolint = true := by
    rw [hsettings, hauto]
  have hrun := executes_alone host' (Workspace.handleEvent (.modified p)) S.state
  have hout : ((Workspace.handleEvent (.modified p)).alone host' S.state).1.store = .reloaded := by
    rw [store_alone_handleEvent]
    exact congrArg Prod.fst (Store.alone_reload haccept hserves)
  refine ⟨S, _, _, hS, hauto', hrun, hout, ?_, b, hlast, hnames⟩
  rw [revalidated_of_reloaded (p := p) (bounded_of_reachable hS) hauto' rfl hrun hout]
  have hrefreshed : refreshed true (.modified p) = [] := by
    refine refreshed_of_not ?_
    simp [FileEvent.path, hp]
  have hdependents : S.state.board.dependents p = [] := by
    unfold Board.dependents
    rw [hslots]
    simp [Path.sort, Board.dependsOn, Board.outcomeOf?, refusal]
  rw [hrefreshed, hdependents]
  rfl

end Failure

/-- A document whose schema is of a draft that there is not. -/
theorem noSchema_note : NoSchema {}
    (hostOf [(⟨"a.md"⟩, "---\n$schema: note.json\n---\n\nText\n"),
      (⟨"schemas/note.json"⟩, "\x7b\"$schema\": \"nope\"\x7d")])
    ⟨"a.md"⟩ ⟨"schemas/note.json"⟩ "---\n$schema: note.json\n---\n\nText\n"
    (.object [("$schema", .string "nope")]) (.lookup (.unknownDraft "nope")) where
  below := by decide
  document := by rfl
  names := by decide +kernel
  serves := serves_hostOf (by rfl) (by cbv)
  refused _ := rfl

/-- Its schema has been repaired. -/
theorem serves_repaired_note :
    Serves (hostOf [(⟨"schemas/note.json"⟩, "\x7b\x7d")]) ⟨"schemas/note.json"⟩ (.object []) :=
  serves_hostOf (by rfl) (by cbv)

/-! ### Documents of a reloaded schema -/

/-- What becomes of the documents when an event reloads the schema `p`: those whose last run named
it and came to an outcome are validated again, with the file `p` itself if it is a document, and
the others keep what the board has of them. -/
def ReachesOutcomes [Retrieval] (S : Session repertoire) (e : FileEvent) (p : Path) : Prop :=
  ∀ out w', Executes (Workspace.handleEvent e) S.state out w' → out.store = .reloaded → ∀ d,
    ((∃ q ∈ out.revalidated, q.same d = true) ↔
      (∃ b o schema, LastRecorded S d b (.validated o) ∧ NamesSchema b schema ∧
        schema.same p = true) ∨ p.isDocument = true ∧ p.same d = true) ∧
    ((∃ q ∈ out.revalidated, q.same d = true) → ∃ slot, w'.board.slots.get? d = some slot ∧
      S.state.runs < slot.runId ∧ FromStore w'.store slot) ∧
    ((¬ ∃ q ∈ out.revalidated, q.same d = true) →
      w'.board.slots.get? d = S.state.board.slots.get? d)

/-- An event that reloads a schema validates again the documents whose last run named that schema
and came to an outcome, and leaves all others alone. -/
theorem reloaded_schema_reaches_outcomes [Retrieval] {settings : Settings} {S : Session repertoire}
    (hS : S.Reachable (.ofSettings settings)) (hauto : S.state.settings.autolint = true)
    {e : FileEvent} (he : e = .created p ∨ e = .modified p) : ReachesOutcomes S e p := by
  intro out w' h hout d
  have hw := bounded_of_reachable hS
  have hschemas : affectedSchemas e = [p] := by
    rcases he with rfl | rfl <;> rfl
  have hrefreshed : refreshed true e = if p.isDocument then [p] else [] := by
    rw [← Bool.and_true p.isDocument]
    rcases he with rfl | rfl <;> rfl
  have hforgotten : forgotten e = [] := by
    rcases he with rfl | rfl <;> rfl
  have hlist := revalidated_of_reloaded hw hauto hschemas h hout
  obtain ⟨store, -, hrenews, -⟩ := renews_of_handleEvent hw h
  rw [hforgotten, List.append_nil] at hrenews
  refine ⟨?_, fun hd => hrenews.renewed d hd, fun hd => hrenews.frame d hd⟩
  have hown : (∃ q ∈ refreshed true e, q.same d = true) ↔ p.isDocument = true ∧ p.same d = true := by
    rw [hrefreshed]
    by_cases hp : p.isDocument = true <;> simp [hp]
  rw [hlist, ← validatedAgainst_iff hS, ← hown]
  simp only [List.mem_append, or_and_right, exists_or]
  exact or_congr_left (Board.mem_dependents_iff (distinct_of_reachable hS))

/-- A session in which the event reloads the schema of `a.md`. -/
structure Reloads [Retrieval] (S : Session repertoire) (out : EventOutcome) (w' : Workspace) :
    Prop where
  reachable : S.Reachable (.ofSettings {})
  autolint : S.state.settings.autolint = true
  executes : Executes (Workspace.handleEvent (.modified ⟨"schemas/note.json"⟩)) S.state out w'
  reloaded : out.store = .reloaded

/-- After a run that came to an outcome. -/
theorem exists_reloads_afterRun : ∃ S out w' e, Reloads S out w' ∧ S.state = afterRun e := by
  obtain ⟨S, e, hS, hstate⟩ := exists_reachable_afterRun
  have hrun := executes_alone listHost
    (Workspace.handleEvent (.modified ⟨"schemas/note.json"⟩)) S.state
  refine ⟨S, _, _, e, ⟨hS, by rw [hstate]; rfl, hrun, ?_⟩, hstate⟩
  have haccept : S.state.store.isSchemaFile ⟨"schemas/note.json"⟩ = true := by
    rw [hstate, isSchemaFile_afterRun]
    decide
  rw [store_alone_handleEvent]
  exact congrArg Prod.fst (Store.alone_reload haccept serves_listSchema)

/-- The event leaves alone the document of a schema that was refused and has been repaired, and
validates a document again that had an outcome. -/
theorem repaired_note_keeps_failure :
    (∃ S out w', Reloads S out w' ∧
      ReachesOutcomes S (.modified ⟨"schemas/note.json"⟩) ⟨"schemas/note.json"⟩ ∧
      (∃ message, S.state.board.failure? ⟨"a.md"⟩ = some message) ∧
      w'.board.slots.get? ⟨"a.md"⟩ = S.state.board.slots.get? ⟨"a.md"⟩) ∧
    ∃ S out w', Reloads S out w' ∧
      ReachesOutcomes S (.modified ⟨"schemas/note.json"⟩) ⟨"schemas/note.json"⟩ ∧
      (∃ o, S.state.board.outcome? ⟨"a.md"⟩ = some o) ∧
      ∃ slot, w'.board.slots.get? ⟨"a.md"⟩ = some slot ∧ 1 < slot.runId ∧
        FromStore w'.store slot := by
  constructor
  · obtain ⟨S, out, w', hS, hauto, hrun, hout, hlist, b, ⟨-, n, hslot, -⟩, -⟩ :=
      exists_kept_failure noSchema_note rfl (by decide) serves_repaired_note
    have h := reloaded_schema_reaches_outcomes (p := ⟨"schemas/note.json"⟩) hS hauto (.inr rfl)
    refine ⟨S, out, w', ⟨hS, hauto, hrun, hout⟩, h, ?_, (h out w' hrun hout ⟨"a.md"⟩).2.2 ?_⟩
    · rw [Board.failure?, hslot]
      exact ⟨_, rfl⟩
    · simp [hlist]
  · obtain ⟨S, out, w', e, ⟨hS, hauto, hrun, hout⟩, hstate⟩ := exists_reloads_afterRun
    have h := reloaded_schema_reaches_outcomes (p := ⟨"schemas/note.json"⟩) hS hauto (.inr rfl)
    have houtcome : ∃ o, S.state.board.outcome? ⟨"a.md"⟩ = some o ∧
        o.schema.same ⟨"schemas/note.json"⟩ = true := by
      rw [hstate]
      exact ⟨_, rfl, Path.same_refl _⟩
    obtain ⟨hlisted, hrenewed, -⟩ := h out w' hrun hout ⟨"a.md"⟩
    obtain ⟨slot, hslot, hlater, hstore⟩ :=
      hrenewed (hlisted.2 (.inl ((validatedAgainst_iff hS).1 houtcome)))
    obtain ⟨o, ho, -⟩ := houtcome
    rw [hstate] at hlater
    exact ⟨S, out, w', ⟨hS, hauto, hrun, hout⟩, h, ⟨o, ho⟩, slot, hslot, hlater, hstore⟩

/-- The last runs of all documents that use a schema would be repeated when it is reloaded. -/
def ReachesUsers [Retrieval] (S : Session repertoire) (e : FileEvent) (p : Path) : Prop :=
  ∀ out w', Executes (Workspace.handleEvent e) S.state out w' → out.store = .reloaded →
    ∀ d b v schema, LastRecorded S d b v → NamesSchema b schema → schema.same p = true →
      ∃ q ∈ out.revalidated, q.same d = true

/-- They are not: a failure outlives the repair of its schema. -/
theorem failure_outlives_repair :
    ¬ ∀ (settings : Settings) (S : Session repertoire), S.Reachable (.ofSettings settings) →
      S.state.settings.autolint = true → ∀ e p, (e = .created p ∨ e = .modified p) →
        ReachesUsers S e p := by
  intro h
  obtain ⟨S, out, w', hS, hauto, hrun, hout, hlist, b, hlast, hnames⟩ :=
    exists_kept_failure noSchema_note rfl (by decide) serves_repaired_note
  obtain ⟨q, hq, -⟩ := h _ S hS hauto _ _ (.inr rfl) out w' hrun hout _ b _ _ hlast hnames
    (Path.same_refl _)
  rw [hlist] at hq
  exact absurd hq List.not_mem_nil

end DocSchema.Workspace
