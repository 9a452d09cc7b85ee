/-
  DocSchema/Proofs/SchemaRef.lean
  ===============================
  **The store accepts the schemas that headers name.**

  Two checks confine schemas to their root: `schemaRef?` looks at the header's value alone, and
  `Store.isSchemaFile` at the path that comes of it.  They agree as long as the root itself
  does not climb (`isSchemaFile_of_schemaRef?`).  Below a root with `..` in it the store accepts
  nothing at all, and documents that name a schema there are passed over.
-/
import DocSchema.Proofs.Path
import DocSchema.Proofs.Workspace.Operation

namespace DocSchema

open DocSchema.Json DocSchema.Program

/-! ### The path that a header names -/

theorem not_climbs_of_staysBelow {p : Path}
    (h : p.components.all Component.staysBelow = true) : p.climbs = false := by
  unfold Path.climbs
  rw [List.any_eq_false]
  intro c hc hparent
  have hbelow := List.all_eq_true.1 h c hc
  rw [beq_iff_eq.1 hparent] at hbelow
  exact absurd hbelow (by decide)

/-- What follows the slashes in front is a relative path that does not climb. -/
theorem relative_of_relativeRef? {value : String} {p : Path} (h : relativeRef? value = some p) :
    p.isAbsolute = false ∧ p.climbs = false := by
  unfold relativeRef? at h
  dsimp only at h
  split at h
  · cases h
  · split at h
    · rename_i hbelow
      cases h
      refine ⟨?_, not_climbs_of_staysBelow hbelow⟩
      simp only [Path.isAbsolute, String.toList_ofList, beq_eq_false_iff_ne, ne_eq]
      intro hhead
      have hslash := List.head?_dropWhile_not (· == '/') value.toList
      rw [hhead] at hslash
      exact absurd hslash (by decide)
    · cases h

theorem exists_relativeRef? {metadata : Option Object} {root p : Path}
    (h : schemaRef? metadata root = some p) :
    ∃ value rest, relativeRef? value = some rest ∧ p = root.join rest := by
  unfold schemaRef? at h
  obtain ⟨value, -, hvalue⟩ := Option.bind_eq_some_iff.1 h
  obtain ⟨rest, hrest, hp⟩ := Option.map_eq_some_iff.1 hvalue
  exact ⟨value, rest, hrest, hp.symm⟩

/-- A store accepts what a header names, unless the root climbs. -/
theorem isSchemaFile_of_schemaRef? {metadata : Option Object} {root p : Path}
    (h : schemaRef? metadata root = some p) {s : Store} (hs : s.root = root) :
    s.isSchemaFile p = !root.climbs := by
  obtain ⟨value, rest, hrest, rfl⟩ := exists_relativeRef? h
  obtain ⟨hrelative, hclimbs⟩ := relative_of_relativeRef? hrest
  unfold Store.isSchemaFile
  rw [hs, Path.startsWith_join hrelative, Path.climbs_join hrelative, hclimbs]
  simp

/-! ### Reading it -/

/-- The host has a file with a JSON value. -/
def Serves (host : (q : Request) → q.Reply) (p : Path) (v : Value) : Prop :=
  host (.isFile p) = true ∧ ∃ text, host (.readText p) = .ok text ∧ Json.read text = .ok v

/-- A host that has some text files, and lets nothing be written. -/
def hostOf (files : PathMap String) : (q : Request) → q.Reply
  | .isFile p => files.contains p
  | .exists p => files.contains p
  | .readText p => (files.get? p).elim (.error ⟨"no such file"⟩) .ok
  | .tree _ => none
  | .createDirectories _ => .error ⟨"read-only"⟩
  | .createFile _ _ => .failed ⟨"read-only"⟩
  | .writeFile _ _ => .error ⟨"read-only"⟩

variable {host : (q : Request) → q.Reply} {p : Path} {v : Value} {s : Store}

theorem serves_hostOf {files : PathMap String} {text : String} (hfile : files.get? p = some text)
    (hread : Json.read text = .ok v) : Serves (hostOf files) p v :=
  ⟨by simp [hostOf, PathMap.contains, hfile], text, by simp [hostOf, hfile], hread⟩

theorem Store.alone_loadSchema (hserves : Serves host p v) :
    (loadSchema p).alone host s = (.ok v, s) := by
  obtain ⟨hfile, text, htext, hread⟩ := hserves
  simp only [loadSchema, Program.request, Bind.bind, Pure.pure, Program.bind, alone, hfile, if_true,
    htext, hread]
  rfl

/-- A store that accepts a path answers what it knows of it, or else what the host has. -/
theorem Store.alone_get (haccept : s.isSchemaFile p = true) (hserves : Serves host p v) :
    (Store.get p).alone host s = (some (s.settled p v), s.putNew p v) := by
  cases hcache : s.cache.get? p with
  | some c =>
    simp [Store.get, Program.look, Bind.bind, Pure.pure, Program.bind, alone, hcache, settled,
      putNew, PathMap.contains]
  | none =>
    simp [Store.get, load, Program.look, exchange, Bind.bind, Pure.pure, Program.bind, alone, hcache,
      haccept, Store.alone_loadSchema hserves]

theorem Store.alone_reload (haccept : s.isSchemaFile p = true) (hserves : Serves host p v) :
    (Store.reload p).alone host s = (.reloaded, s.put p v) := by
  simp [Store.reload, Program.look, Program.change, Bind.bind, Pure.pure, Program.bind, alone,
    haccept, Store.alone_loadSchema hserves]

/-- A store that refuses a path, and knows nothing of it, answers nothing. -/
theorem Store.alone_get_of_refused (hrefuse : s.isSchemaFile p = false)
    (hcache : s.cache.get? p = none) : (Store.get p).alone host s = (none, s) := by
  simp [Store.get, load, Program.look, Bind.bind, Pure.pure, Program.bind, alone, hcache, hrefuse]

namespace Workspace

/-- What a validation answers once it has its schema. -/
def answer [Retrieval] (document : Path) (runId : Nat) (d : Document) (schema : Path) (v : Value) :
    RunResult :=
  match validateLocated document d.root v with
  | .error e => .error (.invalidSchema (some schema) e)
  | .ok errors => .ok (some { document, runId, schema, errors })

variable {w : Workspace} {document : Path} {n : Nat} {d : Document}

theorem answer_of_ok [Retrieval] {errors : List LocatedError}
    (h : validateLocated document d.root v = .ok errors) :
    answer document n d p v = .ok (some ⟨document, n, p, errors⟩) := by
  simp only [answer, h]

/-- A validation gets the schema that the header names from the store. -/
theorem alone_validateParsed [Retrieval] (h : schemaRef? d.metadata w.store.root = some p) :
    ((validateParsed document n d).alone host w).1 =
      match ((Store.get p).alone host w.store).1 with
      | none => .ok none
      | some c => answer document n d p c.schema := by
  simp only [validateParsed, Program.look, Bind.bind, Pure.pure, Program.bind, alone, h, id,
    alone_bind, alone_onStore]
  cases ((Store.get p).alone host w.store).1 with
  | none => rfl
  | some c =>
    dsimp only [answer]
    cases validateLocated document d.root c.schema with
    | error e => rfl
    | ok errors => rfl

/-- Under a root that does not climb, the schema that a header names is accepted, got from the
store and used; under a root that climbs it is refused, and the document is passed over. -/
theorem schema_of_header [Retrieval] {metadata : Option Object} {root p : Path}
    (h : schemaRef? metadata root = some p) :
    (∀ s : Store, s.root = root → s.isSchemaFile p = !root.climbs) ∧
    (root.climbs = false → ∀ host v, Serves host p v →
      (∀ s : Store, s.root = root → ((Store.get p).alone host s).1 = some (s.settled p v)) ∧
      ∀ (w : Workspace) document n d, w.store.root = root → d.metadata = metadata →
        ((validateParsed document n d).alone host w).1 =
          answer document n d p (w.store.settled p v).schema) ∧
    (root.climbs = true → ∀ (host : (q : Request) → q.Reply) (w : Workspace) document n d,
      w.store.root = root → d.metadata = metadata → w.store.cache.get? p = none →
        ((validateParsed document n d).alone host w).1 = .ok none) := by
  have haccept : ∀ s : Store, s.root = root → s.isSchemaFile p = !root.climbs := fun s hs =>
    isSchemaFile_of_schemaRef? h hs
  refine ⟨haccept, fun hclimbs host v hserves => ?_, fun hclimbs host w document n d hw hd hc => ?_⟩
  · have hget : ∀ s : Store, s.root = root →
        ((Store.get p).alone host s).1 = some (s.settled p v) := by
      intro s hs
      rw [Store.alone_get (by rw [haccept s hs, hclimbs]; rfl) hserves]
    refine ⟨hget, fun w document n d hw hd => ?_⟩
    rw [alone_validateParsed (by rw [hd, hw]; exact h), hget w.store hw]
  · have hrefuse : w.store.isSchemaFile p = false := by
      rw [haccept w.store hw, hclimbs]
      rfl
    rw [alone_validateParsed (by rw [hd, hw]; exact h), Store.alone_get_of_refused hrefuse hc]

/-- Below `schemas` the schema of a header is accepted, answered and used, and found to be of a draft
that there is not.  Below `../schemas` the document is passed over, though the host has the schema. -/
theorem schema_of_header_below_schemas :
    let header : Object := [("$schema", .string "a.json")]
    let d : Document := ⟨⟨"root", [], [], ⟨.start, .start, 0, 0⟩⟩, some header⟩
    let text := "\x7b\"$schema\": \"nope\"\x7d"
    let files : PathMap String := [(⟨"schemas/a.json"⟩, text), (⟨"../schemas/a.json"⟩, text)]
    (Store.ofRoot ⟨"schemas"⟩).isSchemaFile ⟨"schemas/a.json"⟩ = true ∧
      ((Store.get ⟨"schemas/a.json"⟩).alone (hostOf files) (Store.ofRoot ⟨"schemas"⟩)).1 =
        some ⟨0, .object [("$schema", .string "nope")]⟩ ∧
      ((validateParsed ⟨"a.md"⟩ 1 d).alone (hostOf files) (.ofSettings {})).1 =
        .error (.invalidSchema (some ⟨"schemas/a.json"⟩) (.lookup (.unknownDraft "nope"))) ∧
      (Store.ofRoot ⟨"../schemas"⟩).isSchemaFile ⟨"../schemas/a.json"⟩ = false ∧
      ((validateParsed ⟨"a.md"⟩ 1 d).alone (hostOf files)
        (.ofSettings { schemaRoot := ⟨"../schemas"⟩ })).1 = .ok none := by
  intro header d text files
  have hall : Json.readAll text.toList = .ok (.object [("$schema", .string "nope")]) := by
    unfold text
    cbv
  have hread : Json.read text = .ok (.object [("$schema", .string "nope")]) := by
    rw [Json.read, hall]
    rfl
  have h : schemaRef? (some header) ⟨"schemas"⟩ = some ⟨"schemas/a.json"⟩ := by decide
  have hclimb : schemaRef? (some header) ⟨"../schemas"⟩ = some ⟨"../schemas/a.json"⟩ := by decide
  obtain ⟨haccept, hserved, -⟩ := schema_of_header h
  obtain ⟨hrefuse, -, hpass⟩ := schema_of_header hclimb
  obtain ⟨hget, hvalidate⟩ := hserved (by decide) (hostOf files)
    (.object [("$schema", .string "nope")]) (serves_hostOf rfl hread)
  refine ⟨?_, ?_, ?_, ?_, hpass (by decide) _ _ _ _ _ rfl rfl rfl⟩
  · rw [haccept _ rfl]
    decide
  · exact hget _ rfl
  · exact hvalidate _ _ _ _ rfl rfl
  · rw [hrefuse _ rfl]
    decide

/-- Nothing below a root that climbs is accepted, though headers name paths there. -/
theorem climbing_root_refuses :
    ¬ ∀ metadata root p, schemaRef? metadata root = some p →
      (Store.ofRoot root).isSchemaFile p = true := by
  intro h
  have haccept := h (some [("$schema", .string "a.json")]) ⟨"../schemas"⟩ ⟨"../schemas/a.json"⟩
    (by decide)
  exact absurd haccept (by decide)

end Workspace

end DocSchema
