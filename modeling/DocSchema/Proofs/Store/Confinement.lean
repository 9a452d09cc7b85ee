/-
  DocSchema/Proofs/Store/Confinement.lean
  =======================================
  **No document and no event leads a store out of its root.**

  An operation on a store asks the host about its own path only, and only after a look at the
  store that found the path below the root and free of `..` (`Confined`).  Between that look and
  the request nothing but replies of the host is learnt.

  All other requests of clients are for the texts of documents (`ReadsOnly`).  And a header
  names a path at all only when its value stays below (`isSome_schemaRef?`).
-/
import DocSchema.Proofs.Store.Access

namespace DocSchema

open DocSchema.Json DocSchema.Program DocSchema.Workspace

/-! ### Checks on components -/

theorem Path.hasComponents_iff_prefix {cs ds : List Component} :
    hasComponents cs ds = true ↔ ds <+: cs := by
  induction ds generalizing cs with
  | nil => cases cs <;> simp [hasComponents]
  | cons d ds ih =>
    cases cs with
    | nil => simp [hasComponents]
    | cons c cs =>
      rw [hasComponents, Bool.and_eq_true, beq_iff_eq, ih, List.cons_prefix_cons]
      exact and_congr_left fun _ => eq_comm

theorem Path.not_climbs_iff {p : Path} : p.climbs = false ↔ .parent ∉ p.components := by
  rw [climbs, ← Bool.not_eq_true, List.any_eq_true]
  refine not_congr ⟨fun ⟨c, hc, hparent⟩ => ?_, fun h => ⟨_, h, beq_self_eq_true _⟩⟩
  rwa [beq_iff_eq.1 hparent] at hc

theorem Store.isSchemaFile_iff {s : Store} {p : Path} : s.isSchemaFile p = true ↔
    s.root.components <+: p.components ∧ .parent ∉ p.components := by
  rw [isSchemaFile, Bool.and_eq_true, Bool.not_eq_true', Path.not_climbs_iff, Path.startsWith,
    Path.hasComponents_iff_prefix]
  exact and_comm

/-! ### Which headers name a schema -/

/-- What a value of the header says below the root: slashes in front do not count. -/
def relativeOf (value : String) : Path :=
  ⟨String.ofList (value.toList.dropWhile (· == '/'))⟩

theorem staysBelow_iff {c : Component} : c.staysBelow = true ↔ c = .current ∨ ∃ n, c = .normal n := by
  cases c <;> simp [Component.staysBelow]

theorem root_notMem_partsOf (cs : List Char) : .root ∉ Path.partsOf cs := by
  intro h
  obtain ⟨piece, -, hpiece⟩ := List.mem_filterMap.1 h
  unfold pieceComponent? at hpiece
  split at hpiece
  · cases hpiece
  · split at hpiece <;> cases hpiece

/-- Without slashes in front no component is the root of the file system. -/
theorem root_notMem_relativeOf (value : String) : .root ∉ (relativeOf value).components := by
  rw [Path.components, Path.componentsOf_eq, List.mem_append]
  rintro (h | h)
  · have hslash := List.head?_dropWhile_not (· == '/') value.toList
    unfold Path.leadOf at h
    split at h
    · rename_i hhead
      rw [relativeOf, String.toList_ofList, beq_iff_eq] at hhead
      rw [hhead] at hslash
      exact absurd hslash (by decide)
    · split at h <;> simp at h
  · exact root_notMem_partsOf _ h

theorem all_staysBelow_iff {p : Path} (hroot : .root ∉ p.components) :
    p.components.all Component.staysBelow = true ↔ .parent ∉ p.components := by
  rw [List.all_eq_true]
  constructor
  · intro h hparent
    exact absurd (h _ hparent) (by decide)
  · intro h c hc
    cases c with
    | root => exact absurd hc hroot
    | parent => exact absurd hc h
    | current | normal _ => rfl

theorem isSome_relativeRef? (value : String) : (relativeRef? value).isSome = true ↔
    (relativeOf value).text ≠ "" ∧ .parent ∉ (relativeOf value).components := by
  rw [← all_staysBelow_iff (root_notMem_relativeOf value)]
  change (if (relativeOf value).text.isEmpty then none
    else if (relativeOf value).components.all Component.staysBelow then some (relativeOf value)
    else none).isSome = true ↔ _
  by_cases hempty : (relativeOf value).text = ""
  · simp [hempty]
  · by_cases hbelow : (relativeOf value).components.all Component.staysBelow = true
    · simp [hempty, hbelow]
    · simp [hempty, hbelow]

theorem isSome_schemaRef? (metadata : Option Object) (root : Path) :
    (schemaRef? metadata root).isSome = true ↔
      ∃ m value, metadata = some m ∧ m.get? "$schema" = some (.string value) ∧
        (relativeOf value).text ≠ "" ∧ .parent ∉ (relativeOf value).components := by
  have hstring : ∀ value, (metadata.bind fun m => (m.get? schemaKey).bind Value.asString?) =
      some value ↔ ∃ m, metadata = some m ∧ m.get? "$schema" = some (.string value) := by
    intro value
    rw [Option.bind_eq_some_iff]
    refine exists_congr fun m => and_congr_right fun _ => ?_
    rw [Option.bind_eq_some_iff]
    constructor
    · rintro ⟨v, hv, hvalue⟩
      cases v <;> cases hvalue
      exact hv
    · exact fun h => ⟨_, h, rfl⟩
  rw [Option.isSome_iff_exists]
  constructor
  · rintro ⟨p, hp⟩
    obtain ⟨value, hvalue, hmap⟩ := Option.bind_eq_some_iff.1 hp
    obtain ⟨m, hm, hget⟩ := (hstring value).1 hvalue
    obtain ⟨rest, hrest, -⟩ := Option.map_eq_some_iff.1 hmap
    exact ⟨m, value, hm, hget, (isSome_relativeRef? value).1 (Option.isSome_of_eq_some hrest)⟩
  · rintro ⟨m, value, hm, hget, hbelow⟩
    obtain ⟨rest, hrest⟩ := Option.isSome_iff_exists.1 ((isSome_relativeRef? value).2 hbelow)
    refine ⟨root.join rest, Option.bind_eq_some_iff.2 ⟨value, (hstring value).2 ⟨m, hm, hget⟩, ?_⟩⟩
    rw [hrest]
    rfl

/-- What follows the root in the path that a header names does not lead out of it. -/
theorem components_of_schemaRef? {metadata : Option Object} {root p : Path}
    (h : schemaRef? metadata root = some p) : ∃ rest, p.components = root.components ++ rest ∧
      ∀ c ∈ rest, c = .current ∨ ∃ n, c = .normal n := by
  obtain ⟨value, relative, hrelative, rfl⟩ := exists_relativeRef? h
  have hbelow : relative.components.all Component.staysBelow = true := by
    unfold relativeRef? at hrelative
    dsimp only at hrelative
    split at hrelative
    · cases hrelative
    · split at hrelative
      · cases hrelative
        assumption
      · cases hrelative
  have hstays : ∀ c ∈ relative.components, c = .current ∨ ∃ n, c = .normal n :=
    fun c hc => staysBelow_iff.1 (List.all_eq_true.1 hbelow c hc)
  rw [Path.components_join (relative_of_relativeRef? hrelative).1]
  split
  · rename_i hempty
    rw [Path.components_of_isEmpty hempty]
    exact ⟨_, rfl, hstays⟩
  · refine ⟨_, rfl, fun c hc => hstays c ?_⟩
    rw [Path.components, Path.componentsOf_eq]
    exact List.mem_append_right _ hc

end DocSchema

namespace DocSchema.Store

open DocSchema.Json DocSchema.Program DocSchema.Workspace

variable {α : Type} {p : Path} {seen : List (Observation Workspace)} {q : Request} {w : Workspace}

/-! ### Requests -/

/-- A program that does not ask the host for anything. -/
def Silent (p : Program Workspace α) : Prop :=
  ∀ seen q (rest : q.Reply → Program Workspace α), ¬ p.Leads seen (.ask q rest)

theorem silent_done (a : α) : Silent (.done a : Program Workspace α) := by
  intro seen q rest h
  obtain ⟨-, hask⟩ := h.of_done
  cases hask

theorem silent_step {change : Workspace → Workspace} {rest : Workspace → Program Workspace α}
    (h : ∀ w, Silent (rest w)) : Silent (.step change rest) := by
  intro seen q next hleads
  obtain ⟨-, hask⟩ | ⟨w, later, -, hrest⟩ := hleads.of_step
  · cases hask
  · exact h w later q next hrest

theorem silent_evict (p : Path) : Silent (onStore (evict p)) := by
  refine silent_step fun w => ?_
  dsimp only [Program.bind]
  split
  · refine silent_step fun w => ?_
    dsimp only [Program.bind]
    split
    · exact silent_done _
    · exact silent_done _
  · exact silent_done _

theorem silent_setRoot (root : Path) : Silent (onStore (setRoot root)) :=
  silent_step fun _ => silent_step fun _ => silent_done _

/-- What an operation has observed when it asks `q`: the root of `w` was in force when it last looked
at the store, and its path `p` was below that root. -/
structure Confined (a : Access) (seen : List (Observation Workspace)) (q : Request) (p : Path)
    (w : Workspace) : Prop where
  operation : a = .get p ∨ a = .reload p
  request : q = .isFile p ∨ q = .readText p
  lastLook : ∃ earlier replies, seen = earlier ++ .saw w :: replies ∧
    ∀ x ∈ replies, ∃ (q : Request) (r : q.Reply), x = .heard q r
  below : w.store.root.components <+: p.components
  not_climbs : .parent ∉ p.components

/-- To read a file is to ask whether it is there, and for its text. -/
theorem leads_ask_loadSchema {rest : q.Reply → Program Workspace α}
    {k : Except LoadError Value → Program Store α} (hk : ∀ r, Silent (onStore (k r)))
    (h : (onStore ((loadSchema p).bind k)).Leads seen (.ask q rest)) :
    (q = .isFile p ∨ q = .readText p) ∧ ∀ x ∈ seen, ∃ (q : Request) (r : q.Reply), x = .heard q r := by
  obtain ⟨rfl, hask⟩ | ⟨found, later, rfl, hfound⟩ := h.of_ask
  · cases hask
    exact ⟨.inl rfl, by simp⟩
  cases found with
  | false => exact absurd hfound (hk _ _ _ _)
  | true =>
    obtain ⟨rfl, hask⟩ | ⟨text, later, rfl, htext⟩ := hfound.of_ask
    · cases hask
      exact ⟨.inr rfl, fun x hx => ⟨_, _, List.mem_singleton.1 hx⟩⟩
    · cases text with
      | error e => exact absurd htext (hk _ _ _ _)
      | ok text => exact absurd htext (hk _ _ _ _)

/-- What an operation asks for after a look at the store that has accepted its path. -/
theorem confined_of_leads {a : Access} (ha : a = .get p ∨ a = .reload p)
    (haccept : w.store.isSchemaFile p = true) {k : Except LoadError Value → Program Store α}
    (hk : ∀ r, Silent (onStore (k r))) {rest : q.Reply → Program Workspace α}
    (h : (onStore ((loadSchema p).bind k)).Leads seen (.ask q rest))
    (earlier : List (Observation Workspace)) :
    Confined a (earlier ++ .saw w :: seen) q p w := by
  obtain ⟨hrequest, hreplies⟩ := leads_ask_loadSchema hk h
  obtain ⟨hbelow, hclimbs⟩ := isSchemaFile_iff.1 haccept
  exact ⟨ha, hrequest, ⟨earlier, seen, rfl, hreplies⟩, hbelow, hclimbs⟩

/-- Whatever it has observed, an operation asks only for what is below the root. -/
theorem exists_confined_of_leads {a : Access} {rest : q.Reply → Program Workspace a.Result}
    (h : (onStore a.program).Leads seen (.ask q rest)) : ∃ p w, Confined a seen q p w := by
  cases a with
  | get p =>
    obtain ⟨-, hask⟩ | ⟨w₀, later, rfl, hlook⟩ := h.of_step
    · cases hask
    cases hcache : w₀.store.cache.get? p with
    | some c =>
      simp only [hcache] at hlook
      exact absurd hlook (silent_done _ _ _ _)
    | none =>
      simp only [hcache] at hlook
      obtain ⟨-, hask⟩ | ⟨w, later, rfl, hcheck⟩ := hlook.of_step
      · cases hask
      cases haccept : w.store.isSchemaFile p with
      | false =>
        simp only [haccept] at hcheck
        exact absurd hcheck (silent_step (fun _ => silent_done _) _ _ _)
      | true =>
        simp only [haccept] at hcheck
        refine ⟨p, w, confined_of_leads (.inl rfl) haccept (fun r => ?_) hcheck [.saw w₀]⟩
        cases r with
        | error e => exact silent_done _
        | ok v => exact silent_step fun _ => silent_done _
  | reload p =>
    obtain ⟨-, hask⟩ | ⟨w, later, rfl, hcheck⟩ := h.of_step
    · cases hask
    cases haccept : w.store.isSchemaFile p with
    | false =>
      simp only [haccept] at hcheck
      exact absurd hcheck (silent_done _ _ _ _)
    | true =>
      simp only [haccept] at hcheck
      refine ⟨p, w, confined_of_leads (.inr rfl) haccept (fun r => ?_) hcheck []⟩
      cases r with
      | error e => exact silent_done _
      | ok v => exact silent_step fun _ => silent_done _
  | evict p => exact absurd h (silent_evict p _ _ _)
  | setRoot root => exact absurd h (silent_setRoot root _ _ _)

/-! ### Sessions -/

/-- Every request that a store has made was confined when it was made. -/
theorem exists_confined_of_heard [Retrieval] {init : Workspace} {S : Session accesses}
    (hS : S.Reachable init)
    {b : Progress accesses} (hb : b ∈ S.begun) {earlier later : List (Observation Workspace)}
    {r : q.Reply} (hseen : b.seen = earlier ++ .heard q r :: later) :
    ∃ p w, Confined b.operation earlier q p w := by
  obtain ⟨left, hleads⟩ := hS.faithful.exists_leads hb
  rw [hseen] at hleads
  obtain ⟨rest, hask, -⟩ := hleads.of_append_heard
  exact exists_confined_of_leads hask

/-- Schemas are confined to the root.  Whatever clients do and in whatever order, a store asks the
host only for its operations' paths, which were below the root in force and free of `..` when it last
looked; all other requests are for documents.  And a header names a schema when what it says after its
slashes is not empty and has no `..`, and then the path lies below the root. -/
theorem schemas_confined [Retrieval] {init : Workspace} {S : Session accesses}
    (hS : S.Reachable init) :
    (∀ b ∈ S.begun, ∀ earlier q r later, b.seen = earlier ++ .heard q r :: later →
      ∃ p w, Confined b.operation earlier q p w) ∧
    (∀ program, Client program → ThroughAccess program) ∧
    ∀ (metadata : Option Object) (root : Path),
      ((schemaRef? metadata root).isSome = true ↔
        ∃ m value, metadata = some m ∧ m.get? "$schema" = some (.string value) ∧
          (relativeOf value).text ≠ "" ∧ .parent ∉ (relativeOf value).components) ∧
      ∀ p, schemaRef? metadata root = some p → ∃ rest, p.components = root.components ++ rest ∧
        ∀ c ∈ rest, c = .current ∨ ∃ n, c = .normal n := by
  refine ⟨fun b hb earlier q r later hseen => ?_, fun program h => .of_client h,
    fun metadata root => ⟨?_, fun p hp => ?_⟩⟩
  · exact exists_confined_of_heard hS hb hseen
  · exact isSome_schemaRef? metadata root
  · exact components_of_schemaRef? hp

/-- An operation reads a file that it has accepted and that is there. -/
theorem exists_advances_reload (haccept : w.store.isSchemaFile p = true) (text : String) :
    ∃ left w', Advances (onStore (reload p)) w
      [.saw w, .heard (.isFile p) true, .heard (.readText p) (.ok text)] left w' := by
  have hload : ∀ k : Except LoadError Value → Program Store StoreUpdate,
      ∃ left w', Advances (onStore ((loadSchema p).bind k)) w
        [.heard (.isFile p) true, .heard (.readText p) (.ok text)] left w' := by
    intro k
    exact ⟨_, _, Advances.ask (q := .isFile p) true
      (Advances.ask (q := .readText p) (Except.ok text) (.refl _ _))⟩
  obtain ⟨left, w', h⟩ := hload _
  refine ⟨left, w', .step ?_⟩
  simp only [haccept]
  exact h

/-- After an event a schema below `schemas` is read again. -/
theorem note_confined : ∃ S : Session accesses, S.Reachable (.ofSettings {}) ∧
    ∃ b ∈ S.begun, ∃ earlier r later,
      b.seen = earlier ++ .heard (.readText ⟨"schemas/note.json"⟩) r :: later ∧
      ∃ p w, Confined b.operation earlier (.readText ⟨"schemas/note.json"⟩) p w := by
  let note : Path := ⟨"schemas/note.json"⟩
  let init : Session accesses := ⟨.ofSettings {}, [], []⟩
  have haccept : init.state.store.isSchemaFile note = true := by decide
  obtain ⟨left, w, hadvances⟩ := exists_advances_reload haccept "{}"
  have hclient : accesses.Client ((accesses.program (Access.reload note)).bind fun _ => .done ()) :=
    Client.handleEvent (.modified note)
  have hS : init.Leads _ := .enter .refl hclient hadvances
  exact ⟨_, hS, _, List.mem_cons_self, [_, _], .ok "{}", [], rfl,
    (schemas_confined hS).1 _ List.mem_cons_self [_, _] _ (.ok "{}") [] rfl⟩

end DocSchema.Store
