/-
  DocSchema/Proofs/SchemaRef/Spelling.lean
  ========================================
  **One schema file under several spellings.**

  Values of the header that differ in leading slashes, repeated slashes or components `.` only
  (`Respelled`) have the same names between their slashes (`partsOf_of_respelled`).  Below a root
  with a text of its own this is all that counts, so that the paths of such values are one key of the
  store, and an event for one of them is an event for all (`OneKey`).

  Below the empty root the value is the whole path, and a `.` that it begins with is a component
  that the others are not told apart by (`identity_of_respelled`).
-/
import Mathlib.Data.List.TakeWhile
import DocSchema.Proofs.SchemaRef
import DocSchema.Proofs.Store

namespace DocSchema

open DocSchema.Json DocSchema.Program

/-! ### Spellings -/

/-- One value can be turned into the other by adding and removing leading slashes, repeated slashes
and components `.`. -/
inductive Respelled : List Char → List Char → Prop
  | refl (cs : List Char) : Respelled cs cs
  | symm {cs ds : List Char} (h : Respelled cs ds) : Respelled ds cs
  | trans {cs ds es : List Char} (h : Respelled cs ds) (h' : Respelled ds es) : Respelled cs es
  | leadingSlash (cs : List Char) : Respelled ('/' :: cs) cs
  | repeatedSlash (cs ds : List Char) : Respelled (cs ++ '/' :: '/' :: ds) (cs ++ '/' :: ds)
  | firstDot (cs : List Char) : Respelled ('.' :: '/' :: cs) cs
  | innerDot (cs ds : List Char) : Respelled (cs ++ '/' :: '.' :: '/' :: ds) (cs ++ '/' :: ds)
  | lastDot (cs : List Char) : Respelled (cs ++ ['/', '.']) cs

namespace Path

theorem partsOf_slash (cs : List Char) : partsOf ('/' :: cs) = partsOf cs :=
  partsOf_append [] cs

theorem partsOf_dot (cs : List Char) : partsOf ('.' :: '/' :: cs) = partsOf cs :=
  partsOf_append ['.'] cs

theorem partsOf_of_respelled {cs ds : List Char} (h : Respelled cs ds) : partsOf cs = partsOf ds := by
  induction h with
  | refl cs => rfl
  | symm _ ih => exact ih.symm
  | trans _ _ ih ih' => exact ih.trans ih'
  | leadingSlash cs => exact partsOf_slash cs
  | repeatedSlash cs ds => rw [partsOf_append, partsOf_append, partsOf_slash]
  | firstDot cs => exact partsOf_dot cs
  | innerDot cs ds => rw [partsOf_append, partsOf_append, partsOf_dot]
  | lastDot cs =>
    have hdot : partsOf ['.'] = [] := rfl
    rw [partsOf_append, hdot, List.append_nil]

theorem partsOf_dropWhile (cs : List Char) : partsOf (cs.dropWhile (· == '/')) = partsOf cs := by
  induction cs with
  | nil => rfl
  | cons c cs ih =>
    rw [List.dropWhile_cons]
    split
    · rename_i hc
      rw [ih, beq_iff_eq.1 hc, partsOf_slash]
    · rfl

end Path

/-! ### The path that a value names -/

/-- A value without the slashes in front. -/
def refText (value : String) : List Char :=
  value.toList.dropWhile (· == '/')

/-- Whether the first component of a value is a `.`. -/
def beginsWithDot (value : String) : Bool :=
  (Path.componentsOf (refText value)).head? == some .current

theorem head?_refText_ne (value : String) : (refText value).head? ≠ some '/' := by
  intro hhead
  have hslash := List.head?_dropWhile_not (· == '/') value.toList
  unfold refText at hhead
  rw [hhead] at hslash
  exact absurd hslash (by decide)

/-- A value names nothing but names, after a `.` that it may begin with. -/
theorem componentsOf_refText (value : String) : Path.componentsOf (refText value) =
    (if beginsWithDot value then [.current] else []) ++ Path.partsOf value.toList := by
  have hparts : Path.partsOf (refText value) = Path.partsOf value.toList := Path.partsOf_dropWhile _
  have hlead : Path.leadOf (refText value) = if beginsWithDot value then [.current] else [] := by
    unfold beginsWithDot
    rw [Path.componentsOf_eq]
    unfold Path.leadOf
    rw [if_neg (by simpa using head?_refText_ne value)]
    split
    · rfl
    · -- no name is a dot
      have hnames : ∀ c ∈ Path.partsOf (refText value), c ≠ .current := by
        intro c hc hcurrent
        obtain ⟨piece, -, hpiece⟩ := List.mem_filterMap.1 hc
        subst hcurrent
        unfold pieceComponent? at hpiece
        split at hpiece
        · cases hpiece
        · split at hpiece <;> cases hpiece
      cases hcs : Path.partsOf (refText value) with
      | nil => rfl
      | cons c cs =>
        have hc : c ≠ .current := hnames c (by rw [hcs]; exact List.mem_cons_self)
        simp [hc]
  rw [Path.componentsOf_eq, hlead, hparts]

/-- A value names a path if something is left of it that does not climb. -/
theorem relativeRef?_eq (value : String) : relativeRef? value =
    if refText value = [] then none
    else if (Path.partsOf value.toList).all Component.staysBelow then
      some ⟨String.ofList (refText value)⟩
    else none := by
  have hcomponents : (Path.mk (String.ofList (refText value))).components.all Component.staysBelow =
      (Path.partsOf value.toList).all Component.staysBelow := by
    unfold Path.components
    rw [String.toList_ofList, componentsOf_refText, List.all_append]
    split <;> rfl
  unfold relativeRef?
  dsimp only
  change (if (String.ofList (refText value)).isEmpty then none else
    if (Path.mk (String.ofList (refText value))).components.all Component.staysBelow then
      some (Path.mk (String.ofList (refText value))) else none) = _
  rw [hcomponents]
  simp

theorem components_join_refText (root : Path) (value : String) :
    (root.join ⟨String.ofList (refText value)⟩).components =
      if root.text.isEmpty then
        (if beginsWithDot value then [.current] else []) ++ Path.partsOf value.toList
      else root.components ++ Path.partsOf value.toList := by
  have hrelative : (Path.mk (String.ofList (refText value))).isAbsolute = false := by
    simpa [Path.isAbsolute] using head?_refText_ne value
  rw [Path.components_join hrelative]
  unfold Path.components Path.below
  rw [String.toList_ofList, componentsOf_refText]
  unfold refText
  rw [Path.partsOf_dropWhile]

theorem schemaRef?_of_string {m : Object} {value : String} (root : Path)
    (h : m.get? schemaKey = some (.string value)) :
    schemaRef? (some m) root = (relativeRef? value).map root.join := by
  simp [schemaRef?, h, Value.asString?]

/-! ### One key -/

/-- Two paths stand for one schema: no store and no board tells them apart, and what an event for
one of them does to the store is seen at the other. -/
structure OneKey (p q : Path) : Prop where
  same : p.same q = true
  entry : ∀ s : Store, s.cache.get? p = s.cache.get? q
  accepted : ∀ s : Store, s.isSchemaFile p = s.isSchemaFile q
  reloaded : ∀ {host : (r : Request) → r.Reply} {s : Store} {v : Value},
    s.isSchemaFile p = true → Serves host p v → ∀ host',
      ((Store.get q).alone host' ((Store.reload p).alone host s).2).1.map (·.schema) = some v
  evicted : ∀ {s : Store}, s.isSchemaFile p = true → ∀ host,
    ((Store.evict p).alone host s).2.cache.get? q = none
  dependents : ∀ b : Board, b.dependents p = b.dependents q

theorem oneKey_of_same {p q : Path} (h : p.same q = true) : OneKey p q where
  same := h
  entry s := s.cache.get?_congr (Path.same_iff.1 h)
  accepted s := Store.isSchemaFile_congr h rfl
  reloaded {host s v} haccept hserves host' := by
    have hentry : (s.put p v).cache.get? q = some ⟨s.nextHandle, v⟩ := Store.get?_put_of_same v h
    rw [Store.alone_reload haccept hserves]
    simp [Store.get, Program.look, Bind.bind, Pure.pure, Program.bind, alone, hentry]
  evicted {s} haccept host := by
    have hgone : (s.drop p).cache.get? q = none := Store.get?_drop_of_same h
    cases hknown : s.cache.contains p <;>
      simp [Store.evict, Program.look, exchange, Bind.bind, Pure.pure, Program.bind, alone, haccept,
        hknown, hgone]
  dependents b := by
    have hdepends : ∀ slot, Board.dependsOn p slot = Board.dependsOn q slot := by
      intro slot
      unfold Board.dependsOn Path.same
      rw [Path.same_iff.1 h]
    unfold Board.dependents
    simp only [hdepends]

variable {m m' : Object} {a b : String} {root p : Path}

/-- **One schema file, one identity.**  If a value names a schema, so does every other spelling of
it that has anything but slashes; and the two paths are one key, unless the root is empty and just
one of the two values begins with a `.`. -/
theorem identity_of_respelled (ha : m.get? schemaKey = some (.string a))
    (hb : m'.get? schemaKey = some (.string b)) (h : Respelled a.toList b.toList)
    (hp : schemaRef? (some m) root = some p) (hslashes : ∃ c ∈ b.toList, c ≠ '/') :
    ∃ q, schemaRef? (some m') root = some q ∧
      (OneKey p q ↔ (root.text = "" → beginsWithDot a = beginsWithDot b)) := by
  have hparts := Path.partsOf_of_respelled h
  have hb' : refText b ≠ [] := by
    intro hnil
    obtain ⟨c, hc, hne⟩ := hslashes
    have hall := List.dropWhile_eq_nil_iff.1 hnil c hc
    exact hne (beq_iff_eq.1 hall)
  rw [schemaRef?_of_string root ha, relativeRef?_eq] at hp
  obtain ⟨rest, hrest, rfl⟩ := Option.map_eq_some_iff.1 hp
  obtain ⟨-, hrest⟩ := Option.ite_none_left_eq_some.1 hrest
  obtain ⟨hbelow, heq⟩ := Option.ite_none_right_eq_some.1 hrest
  cases heq
  refine ⟨root.join ⟨String.ofList (refText b)⟩, ?_, ?_⟩
  · rw [schemaRef?_of_string root hb, relativeRef?_eq, if_neg hb', if_pos (hparts ▸ hbelow)]
    rfl
  · have hsame : (root.join ⟨String.ofList (refText a)⟩).same (root.join ⟨String.ofList (refText b)⟩) =
        true ↔ (root.text = "" → beginsWithDot a = beginsWithDot b) := by
      rw [Path.same_iff, components_join_refText, components_join_refText, hparts]
      by_cases hroot : root.text = ""
      · have hempty : root.text.isEmpty = true := by simp [hroot]
        rw [if_pos hempty, if_pos hempty, List.append_cancel_right_eq]
        cases beginsWithDot a <;> cases beginsWithDot b <;> simp [hroot]
      · simp [hroot]
    exact ⟨fun hkey => hsame.1 hkey.same, fun hdot => oneKey_of_same (hsame.2 hdot)⟩

/-- Two spellings of a schema in a directory below the root. -/
theorem identity_of_nested_note :
    schemaRef? (some [("$schema", .string "/notes//a.json")]) ⟨"schemas"⟩ =
        some ⟨"schemas/notes//a.json"⟩ ∧
      ∃ q, schemaRef? (some [("$schema", .string "./notes/./a.json")]) ⟨"schemas"⟩ = some q ∧
        OneKey ⟨"schemas/notes//a.json"⟩ q := by
  have hp : schemaRef? (some [("$schema", .string "/notes//a.json")]) ⟨"schemas"⟩ =
      some ⟨"schemas/notes//a.json"⟩ := by decide
  have h : Respelled "/notes//a.json".toList "./notes/./a.json".toList := by
    have hslashes : Respelled "/notes//a.json".toList "notes/a.json".toList :=
      (Respelled.leadingSlash _).trans (.repeatedSlash "notes".toList "a.json".toList)
    have hdots : Respelled "./notes/./a.json".toList "notes/a.json".toList :=
      (Respelled.firstDot _).trans (.innerDot "notes".toList "a.json".toList)
    exact hslashes.trans hdots.symm
  have hb : Object.get? [("$schema", .string "./notes/./a.json")] schemaKey =
      some (.string "./notes/./a.json") := rfl
  refine ⟨hp, ?_⟩
  obtain ⟨q, hq, hkey⟩ := identity_of_respelled rfl hb h hp ⟨'.', by decide, by decide⟩
  exact ⟨q, hq, hkey.2 fun hroot => absurd hroot (by decide)⟩

/-- Below the empty root a `.` in front makes another path of a value. -/
theorem dot_shows_below_empty_root :
    ¬ ∀ (m m' : Object) (a b : String) (root : Path), m.get? schemaKey = some (.string a) →
      m'.get? schemaKey = some (.string b) → Respelled a.toList b.toList →
        Option.Rel (fun p q => p.same q = true) (schemaRef? (some m) root)
          (schemaRef? (some m') root) := by
  intro h
  have hrel := h [("$schema", .string "./a.json")] [("$schema", .string "a.json")] "./a.json" "a.json"
    ⟨""⟩ rfl rfl (.firstDot _)
  have hp : schemaRef? (some [("$schema", .string "./a.json")]) ⟨""⟩ = some ⟨"./a.json"⟩ := by decide
  have hq : schemaRef? (some [("$schema", .string "a.json")]) ⟨""⟩ = some ⟨"a.json"⟩ := by decide
  rw [hp, hq] at hrel
  cases hrel with
  | some hsame => exact absurd hsame (by decide)

end DocSchema
