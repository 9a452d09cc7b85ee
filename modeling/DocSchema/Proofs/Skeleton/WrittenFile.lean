/-
  DocSchema/Proofs/Skeleton/WrittenFile.lean
  ==========================================
  **A written skeleton can be loaded, unless it is nested too deeply.**

  A skeleton is a value that is read as it was written (`writable_synthesize`), and it was put
  into a new file (`created_of_writeSkeleton`), whose text `loadSchema` reads.  The writer goes as
  deep as the tree does, but the reader has a limit.  So the nesting of the skeleton alone decides
  (`written_skeleton_loads`): a tree that is kept whole can have a skeleton that is never loaded
  (`deep_quotes_not_loaded`).
-/
import DocSchema.Proofs.Disk
import DocSchema.Proofs.Document.Exact
import DocSchema.Proofs.Json.Written
import DocSchema.Proofs.Skeleton.Shape
import DocSchema.Skeleton.File
import DocSchema.Store

namespace DocSchema

open DocSchema.Json

/-! ### Values that can be written -/

namespace Json.Value

/-- A value that is read as it was written, as deep as the reader goes. -/
structure Writable (v : Value) : Prop where
  proper : v.Proper
  numbers : v.Exact

variable {ms o : Object} {key : String} {value : Value}

theorem Writable.string (s : String) : Writable (.string s) :=
  ⟨.string s, .string s⟩

theorem Writable.array {xs : List Value} (h : ∀ x ∈ xs, x.Writable) : Writable (.array xs) :=
  ⟨.array fun x hx => (h x hx).proper, .array fun x hx => (h x hx).numbers⟩

theorem Writable.object (hkeys : ms.keys.Nodup) (h : ∀ m ∈ ms, m.2.Writable) :
    Writable (.object ms) :=
  ⟨.object hkeys fun k x hx => (h (k, x) hx).proper, .object fun k x hx => (h (k, x) hx).numbers⟩

theorem Writable.members (h : Writable (.object ms)) :
    ms.keys.Nodup ∧ ∀ m ∈ ms, m.2.Writable := by
  obtain ⟨hproper, hnumbers⟩ := h
  cases hproper with
  | object hkeys hproper =>
    cases hnumbers with
    | object hnumbers => exact ⟨hkeys, fun m hm => ⟨hproper m.1 m.2 hm, hnumbers m.1 m.2 hm⟩⟩

theorem Writable.insert (ho : Writable (.object o)) (hv : value.Writable) :
    Writable (.object (o.insert key value)) :=
  ⟨ho.proper.insert hv.proper, ho.numbers.insert hv.numbers⟩

theorem Writable.insertAll (ho : Writable (.object o)) (h : ∀ m ∈ ms, m.2.Writable) :
    Writable (.object (o.insertAll ms)) := by
  induction ms generalizing o with
  | nil => exact ho
  | cons m ms ih =>
    obtain ⟨hm, hms⟩ := List.forall_mem_cons.1 h
    exact ih (ho.insert hm) hms

end Json.Value

/-- A node as memory holds it, without floating-point numbers: its list of children is no longer
than a machine counts. -/
structure Node.Writable (n : Node) : Prop where
  fields : Value.Writable (.object n.fields)
  length : n.children.length < twoTo 64

/-! ### Skeletons -/

namespace Skeleton

variable {v schema : Value} {ms : Object} {n : Node}

theorem writable_ofConst (h : v.Writable) : (ofConst v).Writable := by
  refine .object (show ["const", "type"].Nodup by decide) (List.forall_mem_cons.2 ⟨h, ?_⟩)
  exact List.forall_mem_singleton.2 (.string _)

theorem writable_ofProperties (title : String) (h : Value.Writable (.object ms)) :
    (ofProperties title ms).Writable := by
  refine .object (show ["type", "title", "properties"].Nodup by decide)
    (List.forall_mem_cons.2 ⟨.string _, ?_⟩)
  exact List.forall_mem_cons.2 ⟨.string _, List.forall_mem_singleton.2 h⟩

theorem writable_ofHeader (h : Value.Writable (.object ms)) : (ofHeader ms).Writable := by
  obtain ⟨hkeys, hmembers⟩ := h.members
  refine writable_ofProperties _ (.object ((keys_map_ofConst ms).symm ▸ hkeys) fun m hm => ?_)
  obtain ⟨x, hx, rfl⟩ := List.mem_map.1 hm
  exact writable_ofConst (hmembers x hx)

theorem writable_ofFields (h : Value.Writable (.object n.fields)) :
    ∀ m ∈ ofFields n, m.2.Writable := by
  unfold ofFields
  split
  · split
    · rename_i data hdata
      have hget := Node.get?_data_of_metadata? hdata
      refine List.forall_mem_singleton.2 (writable_ofHeader ?_)
      exact h.members.2 _ (Object.mem_of_get? hget)
    · exact fun m hm => absurd hm List.not_mem_nil
  · intro m hm
    obtain ⟨x, hx, rfl⟩ := List.mem_map.1 hm
    exact writable_ofConst (h.members.2 x hx)

theorem writable_ofTree (h : n.Everywhere Node.Writable) : (ofTree n).Writable := by
  induction h with
  | @mk n hself _ ih =>
    obtain ⟨kind, fields, children, span⟩ := n
    have hown : Value.Writable (.object (Object.insertAll [(kindKey, ofConst (.string kind))]
        (ofFields ⟨kind, fields, children, span⟩))) := by
      refine Value.Writable.insertAll (.object (show [kindKey].Nodup by decide) ?_)
        (writable_ofFields hself.fields)
      exact List.forall_mem_singleton.2 (writable_ofConst (.string kind))
    rw [ofTree]
    refine writable_ofProperties _ ?_
    split
    · exact hown
    · refine hown.insert (.object (show ["type", "maxItems", "items"].Nodup by decide) ?_)
      refine List.forall_mem_cons.2 ⟨.string _, List.forall_mem_cons.2 ⟨?_, ?_⟩⟩
      · exact ⟨.number _, exact_ofNat hself.length⟩
      · refine List.forall_mem_singleton.2 (.array fun x hx => ?_)
        rw [ofTrees_eq_map] at hx
        obtain ⟨c, hc, rfl⟩ := List.mem_map.1 hx
        exact ih c hc

theorem writable_withDraft (h : schema.Writable) : (withDraft schema).Writable := by
  refine Value.Writable.insertAll (.object (by decide) ?_) fun m hm => ?_
  · exact List.forall_mem_singleton.2 (.string _)
  · cases schema with
    | object ms => exact h.members.2 m hm
    | _ => exact absurd hm List.not_mem_nil

end Skeleton

theorem writable_synthesize {n : Node} (h : n.Everywhere Node.Writable) :
    (synthesize n).Writable :=
  Skeleton.writable_withDraft (Skeleton.writable_ofTree h)

/-! ### Nesting -/

namespace Skeleton

theorem depth_le_depthOfMembers {ms : Object} {key : String} {v : Value} (h : (key, v) ∈ ms) :
    Validator.depth v ≤ Validator.depthOfMembers ms := by
  induction ms with
  | nil => exact absurd h List.not_mem_nil
  | cons m ms ih =>
    obtain ⟨k, x⟩ := m
    rw [Validator.depthOfMembers]
    rcases List.mem_cons.1 h with heq | h
    · cases heq
      exact Nat.le_max_left _ _
    · exact Nat.le_trans (ih h) (Nat.le_max_right _ _)

theorem depth_ofProperties (title : String) (ms : Object) :
    Validator.depth (ofProperties title ms) = Validator.depthOfMembers ms + 2 := by
  simp [ofProperties, Validator.depth, Validator.depthOfMembers]

mutual

/-- Each level of a tree is four of its skeleton. -/
theorem four_mul_levels_le : ∀ n : Node, 4 * n.levels ≤ Validator.depth (ofTree n) + 2
  | ⟨kind, fields, [], span⟩ => by
    rw [ofTree, depth_ofProperties, Node.levels, Node.levelsAll]
    omega
  | ⟨kind, fields, c :: cs, span⟩ => by
    have hitems := four_mul_levelsAll_le (c :: cs)
    rw [ofTree, depth_ofProperties, Node.levels, if_neg (by simp)]
    generalize Object.insertAll [(kindKey, ofConst (.string kind))]
      (ofFields ⟨kind, fields, c :: cs, span⟩) = own
    have hchildren := depth_le_depthOfMembers (Object.mem_of_get?
      (Object.get?_insert_self own childrenKey (.object [("type", .string "array"),
        ("maxItems", .ofNat (c :: cs).length), ("items", .array (ofTrees (c :: cs)))])))
    -- two levels for the array of children, two more for the object and its properties
    have hdepth : Validator.depth (.object [("type", .string "array"),
        ("maxItems", .ofNat (c :: cs).length), ("items", .array (ofTrees (c :: cs)))]) =
          Validator.depthOfItems (ofTrees (c :: cs)) + 2 := by
      simp [Validator.depth, Validator.depthOfMembers, Value.ofNat]
    omega

theorem four_mul_levelsAll_le : ∀ ns : List Node,
    4 * Node.levelsAll ns ≤ Validator.depthOfItems (ofTrees ns) + 2
  | [] => by
    rw [Node.levelsAll]
    omega
  | n :: ns => by
    have hn := four_mul_levels_le n
    have hns := four_mul_levelsAll_le ns
    rw [Node.levelsAll, ofTrees, Validator.depthOfItems]
    omega

end

end Skeleton

theorem depth_synthesize (n : Node) :
    Validator.depth (synthesize n) = Validator.depth (Skeleton.ofTree n) := by
  obtain ⟨kind, fields, children, span⟩ := n
  unfold synthesize
  rw [Skeleton.ofTree, Skeleton.depth_ofProperties]
  simp [Skeleton.withDraft, Skeleton.ofProperties, Value.asObject?, Object.insertAll, Object.insert,
    Validator.depth, Validator.depthOfMembers]

/-- A tree of more levels than the reader has room for has a skeleton that is too deep. -/
theorem depthLimit_le_of_levels {n : Node} (h : 32 < n.levels) :
    depthLimit ≤ Validator.depth (synthesize n) := by
  have hlevels := Skeleton.four_mul_levels_le n
  have hlimit : depthLimit = 128 := rfl
  rw [depth_synthesize]
  omega

/-! ### Files -/

section Files

variable {W σ : Type} {fs : FileSystem W} {d : Document} {root p : Path} {s s' : σ} {w w' : W}

/-- A skeleton that has been written was put into a new file. -/
theorem created_of_writeSkeleton
    (h : fs.run (writeSkeleton d root) s w = (.ok p, s', w')) :
    ∃ w₁, fs.reply (.createFile p (synthesize d.root).pretty) w₁ = (.created, w') := by
  unfold writeSkeleton at h
  cases hpath : skeletonPath? d root with
  | none =>
    rw [hpath] at h
    cases h
  | some q =>
    rw [hpath] at h
    dsimp only [Bind.bind] at h
    rw [FileSystem.run_bind] at h
    generalize fs.run (createParent q) s w = made at h
    obtain ⟨made, s₁, w₁⟩ := made
    cases made with
    | error e => cases h
    | ok _ =>
      -- nothing is asked after the file has been created, so that `w'` is what that left
      dsimp only [Program.request, Program.bind, FileSystem.run] at h
      cases hreply : fs.reply (.createFile q (synthesize d.root).pretty) w₁ with
      | mk creation w₂ =>
        rw [hreply] at h
        cases creation with
        | created =>
          cases h
          exact ⟨w₁, hreply⟩
        | alreadyExists => cases h
        | failed e => cases h

/-- Loading a file that is there reads its text. -/
theorem run_loadSchema {text : String} (hfile : fs.reply (.isFile p) w = (true, w))
    (htext : fs.reply (.readText p) w = (.ok text, w)) :
    fs.run (loadSchema p) s w = ((Json.read text).mapError (.invalidJson p), s, w) := by
  unfold loadSchema
  simp only [Bind.bind, Program.request, Program.bind, FileSystem.run, hfile, htext, if_true]
  rfl

/-- A skeleton that is written under a root is loaded from its file as it is, if the reader goes as
deep as the skeleton is nested; else it is refused, for its depth alone. -/
def FileSystem.LoadsSkeleton (fs : FileSystem W) (d : Document) (root : Path) : Prop :=
  ∀ (σ : Type) (s s' : σ) (w w' : W) (p : Path),
    fs.run (writeSkeleton d root) s w = (.ok p, s', w') →
      (Validator.depth (synthesize d.root) < depthLimit →
        fs.run (loadSchema p) s' w' = (.ok (synthesize d.root), s', w')) ∧
      (depthLimit ≤ Validator.depth (synthesize d.root) → ∃ e, e.cause = .tooDeep ∧
        fs.run (loadSchema p) s' w' = (.error (.invalidJson p e), s', w'))

theorem loadsSkeleton_of_writable (hfs : fs.Keeps) (h : d.root.Everywhere Node.Writable) :
    fs.LoadsSkeleton d root := by
  intro σ s s' w w' p hwritten
  obtain ⟨w₁, hcreated⟩ := created_of_writeSkeleton hwritten
  obtain ⟨hfile, htext⟩ := hfs _ _ _ _ hcreated
  have hload := run_loadSchema (s := s') hfile htext
  obtain ⟨hshallow, hdeep⟩ := read_pretty (writable_synthesize h).proper
    (writable_synthesize h).numbers
  constructor
  · intro hlt
    rw [hload, hshallow hlt]
    rfl
  · intro hle
    obtain ⟨e, hread, hcause⟩ := hdeep hle
    refine ⟨e, hcause, ?_⟩
    rw [hload, hread]
    rfl

end Files

/-! ### Documents -/

section Documents

variable {text : String} {root p : Path}

/-- The nodes of a text can be written as far as their lists of children are held in memory, unless
the header has floating-point numbers. -/
theorem writable_parse
    (hheader : ∀ m, (Document.parse text).metadata = some m →
      Value.Numbers Number.Integral (.object m))
    (hlength : ∀ n ∈ (Document.parse text).root.preorder, n.children.length < twoTo 64) :
    (Document.parse text).root.Everywhere Node.Writable := by
  have hproper := (Document.proper_parse text).everywhere
  have hnumbers := exact_parse text hheader
  have hlists := Node.everywhere_of_preorder _ hlength
  refine ((hproper.and hnumbers).and hlists).imp fun n ⟨⟨hfields, hexact⟩, hn⟩ => ?_
  exact ⟨⟨.object hfields.keys.of_cons.of_cons hfields.values, hexact⟩, hn⟩

/-- A header that names a schema and nothing else. -/
theorem integral_schemaRef {name : String}
    (h : (Document.parse text).metadata = some [(schemaKey, .string name)]) :
    ∀ m, (Document.parse text).metadata = some m → Value.Numbers Number.Integral (.object m) := by
  intro m hm
  cases h.symm.trans hm
  refine .object fun k x hx => ?_
  cases List.mem_singleton.1 hx
  exact .string name

/-- A written skeleton is loaded as it is, whatever the document, unless it is nested too deeply. -/
theorem written_skeleton_loads {W : Type} {fs : FileSystem W} (hfs : fs.Keeps) (root : Path) :
    (∀ d : Document, d.root.Everywhere Node.Writable → fs.LoadsSkeleton d root) ∧
      ∀ text : String,
        (∀ m, (Document.parse text).metadata = some m →
          Value.Numbers Number.Integral (.object m)) →
        (∀ n ∈ (Document.parse text).root.preorder, n.children.length < twoTo 64) →
        fs.LoadsSkeleton (Document.parse text) root :=
  ⟨fun _ h => loadsSkeleton_of_writable hfs h,
    fun _ hheader hlength => loadsSkeleton_of_writable hfs (writable_parse hheader hlength)⟩

/-- The skeleton of a note with a title. -/
theorem note_skeleton_loads : ∃ d : Disk,
    FileSystem.run ⟨Disk.reply⟩
        (writeSkeleton (Document.parse "---\n$schema: a.json\n---\n# A\n") ⟨"schemas"⟩) () .empty =
      (.ok ⟨"schemas/a.json"⟩, (), d) ∧
    FileSystem.run ⟨Disk.reply⟩ (loadSchema ⟨"schemas/a.json"⟩) () d =
      (.ok (synthesize (Document.parse "---\n$schema: a.json\n---\n# A\n").root), (), d) := by
  have hfacts : (Document.parse "---\n$schema: a.json\n---\n# A\n").metadata =
        some [(schemaKey, .string "a.json")] ∧
      (∀ n ∈ (Document.parse "---\n$schema: a.json\n---\n# A\n").root.preorder,
        n.children.length < twoTo 64) ∧
      (FileSystem.run ⟨Disk.reply⟩ (writeSkeleton
          (Document.parse "---\n$schema: a.json\n---\n# A\n") ⟨"schemas"⟩) () .empty).1 =
        .ok ⟨"schemas/a.json"⟩ ∧
      Validator.depth (synthesize (Document.parse "---\n$schema: a.json\n---\n# A\n").root) <
        depthLimit := by decide +kernel
  obtain ⟨hmetadata, hlength, hok, hdepth⟩ := hfacts
  obtain ⟨d, hwritten⟩ := FileSystem.exists_run_eq hok
  have hloads := (written_skeleton_loads Disk.keeps ⟨"schemas"⟩).2 _
    (integral_schemaRef hmetadata) hlength
  exact ⟨d, hwritten, (hloads Unit () () .empty d _ hwritten).1 hdepth⟩

/-- A skeleton of too many levels is not loaded. -/
theorem not_loaded_of_levels (hlevels : 32 < (Document.parse text).root.levels)
    (hwritable : (Document.parse text).root.Everywhere Node.Writable)
    {d : Disk} (hwritten : Disk.run (writeSkeleton (Document.parse text) root) () .empty =
      (.ok p, (), d)) :
    Disk.run (loadSchema p) () d ≠ (.ok (synthesize (Document.parse text).root), (), d) := by
  rw [Disk.run_eq] at hwritten ⊢
  have hloads := loadsSkeleton_of_writable Disk.keeps hwritable Unit _ _ _ _ _ hwritten
  obtain ⟨e, -, hload⟩ := hloads.2 (depthLimit_le_of_levels hlevels)
  rw [hload]
  exact nofun

/-- Thirty quotes inside each other are kept as a tree whose skeleton is written and then refused. -/
theorem deep_quotes_not_loaded : ¬ ∀ (text : String) (root p : Path) (d : Disk),
    (∀ m, (Document.parse text).metadata = some m → Value.Numbers Number.Integral (.object m)) →
      Disk.run (writeSkeleton (Document.parse text) root) () .empty = (.ok p, (), d) →
      Disk.run (loadSchema p) () d = (.ok (synthesize (Document.parse text).root), (), d) := by
  intro h
  have hfacts : ∃ text, (Document.parse text).metadata =
        some [(schemaKey, .string "a.json")] ∧
      (∀ n ∈ (Document.parse text).root.preorder, n.children.length < twoTo 64) ∧
      (Disk.run (writeSkeleton (Document.parse text) ⟨"schemas"⟩) () .empty).1 =
        .ok ⟨"schemas/a.json"⟩ ∧
      32 < (Document.parse text).root.levels :=
    ⟨"---\n$schema: a.json\n---\n\n>>>>>>>>>>>>>>>>>>>>>>>>>>>>>> x\n", by decide +kernel⟩
  obtain ⟨text, hmetadata, hlength, hok, hlevels⟩ := hfacts
  have hheader := integral_schemaRef hmetadata
  rw [Disk.run_eq] at hok
  obtain ⟨d, hwritten⟩ := FileSystem.exists_run_eq hok
  rw [← Disk.run_eq] at hwritten
  exact not_loaded_of_levels hlevels (writable_parse hheader hlength) hwritten
    (h _ _ _ _ hheader hwritten)

end Documents

end DocSchema
