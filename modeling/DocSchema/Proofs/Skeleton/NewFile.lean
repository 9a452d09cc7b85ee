/-
  DocSchema/Proofs/Skeleton/NewFile.lean
  ======================================
  **Writing a skeleton harms no file.**

  A skeleton is written in three steps: its path is resolved, the directories on the way are made,
  and the file is created.  Each of them can fail, the last two also half-way
  (`FileSystem.Unreliable`).

  What is made on the way are directories in vacant places, so that a disk has the same files after
  it, and paths lead where they led before (`Disk.Furnished`).  The file is created in a vacant
  place or not at all (`Disk.reply_createFile`).  So no file is ever written over, and where a
  skeleton was written its file is the only one that is new (`skeleton_spares_files`).  It lies
  below the directory that the root leads to.
-/
import DocSchema.Proofs.Disk.Files
import DocSchema.Proofs.SchemaRef
import DocSchema.Skeleton.File

namespace DocSchema

open DocSchema.Json

/-! ### Directories of a disk -/

namespace Entry

variable {e : Entry} {names : List String} {es : List (String × Entry)}

/-- A directory lies in directories. -/
theorem exists_directory_dropLast (h : e.at? names = some (.directory es)) :
    ∃ es', e.at? names.dropLast = some (.directory es') := by
  obtain rfl | ⟨front, name, rfl⟩ := List.eq_nil_or_concat names
  · exact ⟨es, h⟩
  · rw [List.concat_eq_append, at?_append] at h
    rw [List.concat_eq_append, List.dropLast_concat]
    obtain ⟨f, hf, hname⟩ := Option.bind_eq_some_iff.1 h
    obtain ⟨es', rfl⟩ := exists_directory_of_at?_cons hname
    exact ⟨es', hf⟩

/-- What has a directory in it is one. -/
theorem exists_directory_top (h : e.at? names = some (.directory es)) :
    ∃ es', e.at? [] = some (.directory es') := by
  rcases names with _ | ⟨name, names⟩
  · exact ⟨es, h⟩
  · obtain ⟨es', rfl⟩ := exists_directory_of_at?_cons h
    exact ⟨es', rfl⟩

end Entry

namespace Disk

variable {d d' d'' : Disk} {p : Path} {e f : Entry} {names steps found : List String}

/-- The process works in a directory. -/
def Settled (d : Disk) : Prop :=
  ∃ es, d.top.at? d.here = some (.directory es)

theorem Settled.origin (hd : d.Settled) (p : Path) :
    ∃ es, d.top.at? (d.origin p) = some (.directory es) := by
  obtain ⟨es, hes⟩ := hd
  unfold Disk.origin
  split
  · exact Entry.exists_directory_top hes
  · exact ⟨es, hes⟩

/-- A walk that starts in a directory ends in one, but for its last step. -/
theorem exists_parent_of_walk (hparent : ∃ es, d.top.at? names.dropLast = some (.directory es))
    (h : d.walk names steps = .ok found) :
    ∃ es, d.top.at? found.dropLast = some (.directory es) := by
  induction steps generalizing names with
  | nil =>
    cases h
    exact hparent
  | cons step steps ih =>
    rw [walk] at h
    split at h
    · cases h
    · rename_i es hes
      split at h
      · obtain ⟨es', hes'⟩ := Entry.exists_directory_dropLast hes
        exact ih (Entry.exists_directory_dropLast hes') h
      · split at h
        · cases h
        · refine ih ?_ h
          rw [List.dropLast_concat]
          exact ⟨es, hes⟩
    · cases h

theorem vacant_of_locate (hd : d.Settled) (hlocate : d.locate p = .ok names)
    (hnone : d.top.at? names = none) : d.top.Vacant names := by
  rw [locate_eq (flaw?_of_locate hlocate)] at hlocate
  obtain ⟨es, hes⟩ := hd.origin p
  exact ⟨hnone, exists_parent_of_walk (Entry.exists_directory_dropLast hes) hlocate⟩

/-! ### Making directories -/

/-- The files of a disk, by the names that lead to them: everything but directories. -/
def files (d : Disk) : List String → Option Entry :=
  d.top.leafAt?

/-- A disk with more directories, and nothing else that is new. -/
structure Furnished (d d' : Disk) : Prop where
  here : d'.here = d.here
  files : d'.files = d.files
  directories : ∀ names es, d.top.at? names = some (.directory es) →
    ∃ es', d'.top.at? names = some (.directory es')

theorem Furnished.refl (d : Disk) : d.Furnished d where
  here := rfl
  files := rfl
  directories _ es h := ⟨es, h⟩

theorem Furnished.trans (h : d.Furnished d') (h' : d'.Furnished d'') : d.Furnished d'' where
  here := h'.here.trans h.here
  files := h'.files.trans h.files
  directories := by
    intro names es hes
    obtain ⟨es', hes'⟩ := h.directories names es hes
    exact h'.directories names es' hes'

theorem Furnished.settled (h : d.Furnished d') (hd : d.Settled) : d'.Settled := by
  obtain ⟨es, hes⟩ := hd
  unfold Settled
  rw [h.here]
  exact h.directories _ es hes

theorem furnished_place (h : d.top.Vacant names) :
    d.Furnished (d.place names (.directory [])) where
  here := rfl
  files := Entry.leafAt?_put_directory h
  directories _ es hes := Entry.isDirectory_at?_put (.directory []) h.none ⟨es, hes⟩

theorem furnished_makeDirectory (hd : d.Settled) (h : d.makeDirectory p = .ok d') :
    d.Furnished d' := by
  unfold makeDirectory at h
  rcases hlocate : d.locate p with error | names
  · rw [hlocate] at h
    cases h
  · rw [hlocate] at h
    simp only [Bind.bind, Except.bind] at h
    rcases hnone : d.top.at? names with _ | found
    · rw [hnone] at h
      dsimp only at h
      split at h
      · cases h
      · cases h
        exact furnished_place (vacant_of_locate hd hlocate hnone)
    · rw [hnone] at h
      cases h

/-- Whatever directories are made, and however that ends, nothing else changes. -/
theorem furnished_makeDirectories (hd : d.Settled) (paths : List Path) :
    d.Furnished (d.makeDirectories paths).2 := by
  induction paths generalizing d with
  | nil => exact .refl d
  | cons p outer ih =>
    rw [makeDirectories]
    split
    · rename_i d' hmade
      exact furnished_makeDirectory hd hmade
    · -- the outer directories are made first
      have houter := ih hd
      split
      · rename_i e d' hfailed
        rw [hfailed] at houter
        exact houter
      · rename_i d' hdone
        rw [hdone] at houter
        split
        · rename_i d'' hmade
          exact houter.trans (furnished_makeDirectory (houter.settled hd) hmade)
        · exact houter
    · exact .refl d

theorem Furnished.locate (h : d.Furnished d') (hlocate : d.locate p = .ok found) :
    d'.locate p = .ok found :=
  locate_of_directories h.here h.directories hlocate

/-- Where there was something, there is. -/
theorem Furnished.at?_ne_none (h : d.Furnished d') (he : d.top.at? names = some e) :
    d'.top.at? names ≠ none := by
  rcases hdirectory : e.isDirectory with _ | _
  · have hfile : d'.files names = some e := by
      rw [h.files]
      exact Entry.leafAt?_eq_some_iff.2 ⟨he, hdirectory⟩
    rw [(Entry.leafAt?_eq_some_iff.1 hfile).1]
    nofun
  · cases e with
    | directory es =>
      obtain ⟨es', hes'⟩ := h.directories names es he
      rw [hes']
      nofun
    | file text => cases hdirectory
    | other => cases hdirectory

/-! ### Creating the file -/

theorem locate_of_target (h : d.target p = .ok names) : d.locate p = .ok names := by
  unfold target at h
  rcases hlocate : d.locate p with error | found
  · rw [hlocate] at h
    cases h
  · rw [hlocate] at h
    simp only [Bind.bind, Except.bind] at h
    split at h
    · cases h
    · split at h
      · split at h
        · cases h
        · exact h
      · exact h

theorem vacant_of_target (hd : d.Settled) (htarget : d.target p = .ok names)
    (hnone : d.top.at? names = none) : d.top.Vacant names :=
  vacant_of_locate hd (locate_of_target htarget) hnone

/-- A file that is put in a vacant place takes nothing from the others. -/
theorem files_place (h : d.top.Vacant names) (text : Option String) :
    (d.place names (.file text)).files = Function.update d.files names (some (.file text)) :=
  Entry.leafAt?_put_leaf h rfl

end Disk

/-! ### Disks that fail -/

/-- A disk that may fail to do what it is asked for, or fail half-way: some directories are made
then, or the file is there with some other text. -/
structure FileSystem.Unreliable (fs : FileSystem Disk) : Prop where
  makes : ∀ p d, fs.reply (.createDirectories p) d = Disk.reply (.createDirectories p) d ∨
    ∃ made e, fs.reply (.createDirectories p) d = (.error e, (d.makeDirectories made).2)
  creates : ∀ p text d, fs.reply (.createFile p text) d = Disk.reply (.createFile p text) d ∨
    (∃ e, fs.reply (.createFile p text) d = (.failed e, d)) ∨
    ∃ names part e, d.target p = .ok names ∧ d.top.at? names = none ∧
      fs.reply (.createFile p text) d = (.failed e, d.place names (.file part))

theorem Disk.unreliable : FileSystem.Unreliable ⟨Disk.reply⟩ where
  makes _ _ := .inl rfl
  creates _ _ _ := .inl rfl

variable {fs : FileSystem Disk} {d d' : Disk} {p root : Path} {σ : Type} {s : σ}

/-- Whether it fails or not, nothing but directories comes of making the way to a file. -/
theorem run_createParent (hfs : fs.Unreliable) (hd : d.Settled) (p : Path) (s : σ) :
    ∃ made d', fs.run (createParent p) s d = (made, s, d') ∧ d.Furnished d' := by
  have hmakes : ∀ parent : Path, ∃ made d',
      fs.reply (.createDirectories parent) d = (made, d') ∧ d.Furnished d' := by
    intro parent
    rcases hfs.makes parent d with hreply | ⟨paths, e, hreply⟩
    · exact ⟨_, _, hreply, Disk.furnished_makeDirectories hd parent.ancestors⟩
    · exact ⟨_, _, hreply, Disk.furnished_makeDirectories hd paths⟩
  unfold createParent
  rcases p.parent? with _ | parent
  · exact ⟨_, d, rfl, .refl d⟩
  · dsimp only
    split
    · exact ⟨_, d, rfl, .refl d⟩
    · obtain ⟨made, d', hreply, hfurnished⟩ := hmakes parent
      refine ⟨made, d', ?_, hfurnished⟩
      simp only [Program.request, FileSystem.run, hreply]

/-- What can come of creating a file. -/
inductive Disk.Creates (d : Disk) (p : Path) (text : String) : Creation → Disk → Prop
  | created {names : List String} (hlocate : d.locate p = .ok names) (h : d.top.Vacant names) :
      Creates d p text .created (d.place names (.file (some text)))
  | alreadyExists {names : List String} {e : Entry} (hlocate : d.locate p = .ok names)
      (hat : d.top.at? names = some e) : Creates d p text .alreadyExists d
  | failed (e : HostError) : Creates d p text (.failed e) d
  | broken {names : List String} (h : d.top.Vacant names) (part : Option String) (e : HostError) :
      Creates d p text (.failed e) (d.place names (.file part))

/-- A file is created in a vacant place, or else the disk stays as it is. -/
theorem Disk.reply_createFile (hfs : fs.Unreliable) (hd : d.Settled) (p : Path)
    (text : String) : ∃ creation d', fs.reply (.createFile p text) d = (creation, d') ∧
      d.Creates p text creation d' := by
  rcases hfs.creates p text d with hreply | ⟨e, hreply⟩ | ⟨names, part, e, htarget, hnone, hreply⟩
  · rw [hreply]
    change ∃ creation d', d.createFile p text = (creation, d') ∧ _
    unfold createFile
    rcases htarget : d.target p with e | names
    · exact ⟨_, d, rfl, .failed _⟩
    · dsimp only
      rcases hat : d.top.at? names with _ | found
      · exact ⟨_, _, rfl, .created (locate_of_target htarget) (vacant_of_target hd htarget hat)⟩
      · exact ⟨_, d, rfl, .alreadyExists (locate_of_target htarget) hat⟩
  · exact ⟨_, d, hreply, .failed e⟩
  · exact ⟨_, _, hreply, .broken (vacant_of_target hd htarget hnone) part e⟩

/-! ### Writing a skeleton -/

/-- The ways in which writing a skeleton can end, with the disk before and after. -/
inductive Disk.Writes (d : Disk) (document : Document) (root : Path) :
    Except SkeletonError Path → Disk → Prop
  | noSchemaRef (h : schemaRef? document.metadata root = none) :
      Writes d document root (.error .noSchemaRef) d
  | unmade {p : Path} {d' : Disk} (h : schemaRef? document.metadata root = some p)
      (hd : d.Furnished d') (e : HostError) : Writes d document root (.error (.unwritable p e)) d'
  | created {p : Path} {d' : Disk} {names : List String}
      (h : schemaRef? document.metadata root = some p) (hd : d.Furnished d')
      (hlocate : d'.locate p = .ok names) (hvacant : d'.top.Vacant names) :
      Writes d document root (.ok p)
        (d'.place names (.file (some (synthesize document.root).pretty)))
  | alreadyExists {p : Path} {d' : Disk} {names : List String} {e : Entry}
      (h : schemaRef? document.metadata root = some p) (hd : d.Furnished d')
      (hlocate : d'.locate p = .ok names) (hat : d'.top.at? names = some e) :
      Writes d document root (.error (.alreadyExists p)) d'
  | broken {p : Path} {d' : Disk} {names : List String}
      (h : schemaRef? document.metadata root = some p) (hd : d.Furnished d')
      (hvacant : d'.top.Vacant names) (part : Option String) (e : HostError) :
      Writes d document root (.error (.unwritable p e)) (d'.place names (.file part))

theorem run_writeSkeleton (hfs : fs.Unreliable) (hd : d.Settled)
    (document : Document) (root : Path) (s : σ) :
    ∃ result d', fs.run (writeSkeleton document root) s d = (result, s, d') ∧
      d.Writes document root result d' := by
  unfold writeSkeleton skeletonPath?
  rcases hpath : schemaRef? document.metadata root with _ | p
  · exact ⟨_, d, rfl, .noSchemaRef hpath⟩
  · obtain ⟨made, d₁, hmade, hfurnished⟩ := run_createParent hfs hd p s
    dsimp only [Bind.bind]
    rw [FileSystem.run_bind, hmade]
    rcases made with e | _
    · exact ⟨_, d₁, rfl, .unmade hpath hfurnished e⟩
    · obtain ⟨creation, d₂, hreply, hcreates⟩ :=
        Disk.reply_createFile hfs (hfurnished.settled hd) p (synthesize document.root).pretty
      dsimp only [Program.request, Program.bind, FileSystem.run]
      rw [hreply]
      rcases hcreates with ⟨hlocate, hvacant⟩ | ⟨hlocate, hat⟩ | e | ⟨hvacant, part, e⟩
      · exact ⟨_, _, rfl, .created hpath hfurnished hlocate hvacant⟩
      · exact ⟨_, _, rfl, .alreadyExists hpath hfurnished hlocate hat⟩
      · exact ⟨_, _, rfl, .unmade hpath hfurnished e⟩
      · exact ⟨_, _, rfl, .broken hpath hfurnished hvacant part e⟩

/-! ### What becomes of the files -/

theorem Path.ne_parent_of_not_climbs (h : p.climbs = false) : ∀ step ∈ p.steps, step ≠ ".." := by
  rintro step hstep rfl
  obtain ⟨piece, hpiece, htext⟩ := List.mem_map.1 (List.mem_filter.1 hstep).1
  have hdots : piece = ['.', '.'] := by
    have hlist := congrArg String.toList htext
    rwa [String.toList_ofList] at hlist
  have hparent : Component.parent ∈ p.below :=
    List.mem_filterMap.2 ⟨piece, hpiece, by rw [hdots]; rfl⟩
  rw [Path.climbs_eq_any_below, List.any_eq_false] at h
  exact h .parent hparent (by decide)

namespace Disk

variable {document : Document} {result : Except SkeletonError Path} {names : List String}
  {e f : Entry}

theorem files_of_vacant (h : d.top.Vacant names) : d.files names = none :=
  Entry.leafAt?_of_at?_eq_none h.none

theorem files_place_of_some (h : d.top.Vacant names) (part : Option String) {others : List String}
    (hothers : d.files others = some f) :
    (d.place names (.file part)).files others = some f := by
  have hne : others ≠ names := by
    rintro rfl
    rw [files_of_vacant h] at hothers
    cases hothers
  rw [files_place h, Function.update_of_ne hne, hothers]

/-- Every file stays as it is. -/
theorem Writes.files_of_some (h : d.Writes document root result d')
    (hfile : d.files names = some f) : d'.files names = some f := by
  rcases h with - | ⟨-, hd, e⟩ | ⟨-, hd, -, hvacant⟩ | ⟨-, hd, -, -⟩ | ⟨-, hd, hvacant, part, e⟩
  · exact hfile
  · rw [hd.files, hfile]
  · exact files_place_of_some hvacant _ (by rw [hd.files, hfile])
  · rw [hd.files, hfile]
  · exact files_place_of_some hvacant _ (by rw [hd.files, hfile])

/-- Where something stands, no skeleton is written. -/
theorem Writes.ne_ok (h : d.Writes document root result d')
    (hpath : schemaRef? document.metadata root = some p) (hfind : d.find p = .ok e) (q : Path) :
    result ≠ .ok q := by
  obtain ⟨names, hlocate, hat, -⟩ := find_eq_ok_iff.1 hfind
  rcases h with - | - | ⟨hpath', hd, hlocate', hvacant⟩ | - | -
  · nofun
  · nofun
  · -- the path leads to the same place as before, and there is still something there
    cases hpath.symm.trans hpath'
    cases (hd.locate hlocate).symm.trans hlocate'
    exact absurd hvacant.none (hd.at?_ne_none hat)
  · nofun
  · nofun

/-- No file is added where no path is named. -/
theorem Writes.files_of_noSchemaRef (h : d.Writes document root (.error .noSchemaRef) d') :
    d'.files = d.files := by
  rcases h with - | - | - | - | -
  rfl

/-- A refusal is true: there is something at the path.  No file is added then. -/
theorem Writes.of_alreadyExists (h : d.Writes document root (.error (.alreadyExists p)) d') :
    schemaRef? document.metadata root = some p ∧ d'.files = d.files ∧
      ∃ names e, d'.locate p = .ok names ∧ d'.top.at? names = some e := by
  rcases h with - | - | - | @⟨_, _, names, e, hpath, hd, hlocate, hat⟩ | -
  exact ⟨hpath, hd.files, names, e, hlocate, hat⟩

theorem Writes.noSchemaRef_iff (h : d.Writes document root result d') :
    result = .error .noSchemaRef ↔ schemaRef? document.metadata root = none := by
  rcases h with hpath | ⟨hpath, -, e⟩ | ⟨hpath, -, -, -⟩ | ⟨hpath, -, -, -⟩ |
    ⟨hpath, -, -, part, e⟩
  · simp [hpath]
  · simp [hpath]
  · simp [hpath]
  · simp [hpath]
  · simp [hpath]

/-- A path that stays below a root leads below the place where the root leads. -/
theorem exists_base_of_locate {rest : Path} (hrelative : rest.isAbsolute = false)
    (hclimbs : rest.climbs = false) (h : d.locate (root.join rest) = .ok names) :
    ∃ base, d.walk (d.origin root) root.steps = .ok base ∧ base <+: names := by
  rw [locate_eq (flaw?_of_locate h), origin_join d root hrelative, Path.steps_join hrelative,
    walk_append] at h
  rcases hbase : d.walk (d.origin root) root.steps with error | base
  · rw [hbase] at h
    cases h
  · rw [hbase] at h
    refine ⟨base, rfl, rest.steps, ?_⟩
    exact (eq_append_of_walk (Path.ne_parent_of_not_climbs hclimbs) h).symm

/-- A written skeleton is the only new file. -/
theorem Writes.of_ok (h : d.Writes document root (.ok p) d') :
    schemaRef? document.metadata root = some p ∧ p.startsWith root = true ∧
      ∃ names base, d'.locate p = .ok names ∧
        d'.walk (d'.origin root) root.steps = .ok base ∧ base <+: names ∧
        d.files names = none ∧ d'.files =
          Function.update d.files names (some (.file (some (synthesize document.root).pretty))) := by
  rcases h with - | - | @⟨_, d₁, names, hpath, hd, hlocate, hvacant⟩ | - | -
  obtain ⟨value, rest, hrest, rfl⟩ := exists_relativeRef? hpath
  obtain ⟨hrelative, hclimbs⟩ := relative_of_relativeRef? hrest
  have hafter : (d₁.place names (.file (some (synthesize document.root).pretty))).locate
      (root.join rest) = .ok names := locate_place hvacant.none hlocate
  obtain ⟨base, hbase, hprefix⟩ := exists_base_of_locate hrelative hclimbs hafter
  refine ⟨hpath, Path.startsWith_join hrelative, names, base, hafter, hbase, hprefix, ?_, ?_⟩
  · rw [← hd.files]
    exact files_of_vacant hvacant
  · rw [files_place hvacant, hd.files]

end Disk

/-- However writing a skeleton ends, every file that was there is there as it was.  Nothing is
written where something stands already, and what is said to stand there does.  No file is new but
that of a skeleton that was written, which is where the header of the document says, below the
root. -/
theorem skeleton_spares_files (hfs : fs.Unreliable) (hd : d.Settled)
    (document : Document) (root : Path) (s : σ) :
    ∃ result d', fs.run (writeSkeleton document root) s d = (result, s, d') ∧
      (∀ names f, d.files names = some f → d'.files names = some f) ∧
      (∀ p e, schemaRef? document.metadata root = some p → d.find p = .ok e →
        ∀ q, result ≠ .ok q) ∧
      (result = .error .noSchemaRef ↔ schemaRef? document.metadata root = none) ∧
      (result = .error .noSchemaRef → d'.files = d.files) ∧
      (∀ p, result = .error (.alreadyExists p) →
        schemaRef? document.metadata root = some p ∧ d'.files = d.files ∧
          ∃ names e, d'.locate p = .ok names ∧ d'.top.at? names = some e) ∧
      ∀ p, result = .ok p →
        schemaRef? document.metadata root = some p ∧ p.startsWith root = true ∧
          ∃ names base, d'.locate p = .ok names ∧
            d'.walk (d'.origin root) root.steps = .ok base ∧ base <+: names ∧
            d.files names = none ∧ d'.files =
              Function.update d.files names
                (some (.file (some (synthesize document.root).pretty))) := by
  obtain ⟨result, d', hrun, hwrites⟩ := run_writeSkeleton hfs hd document root s
  refine ⟨result, d', hrun, fun names f => hwrites.files_of_some, fun p e => hwrites.ne_ok,
    hwrites.noSchemaRef_iff, ?_, ?_, ?_⟩
  · rintro rfl
    exact hwrites.files_of_noSchemaRef
  · rintro p rfl
    exact hwrites.of_alreadyExists
  · rintro p rfl
    exact hwrites.of_ok

/-- A process that works in `/home` writes the skeleton of a note below an absolute root, beside a
schema, which stays as it is. -/
theorem note_skeleton_spares_schema : ∃ (d d' : Disk) (names : List String),
    d.files ["srv", "b.json"] = some (.file (some "true")) ∧
      FileSystem.run ⟨Disk.reply⟩ (writeSkeleton
          (Document.parse "---\n$schema: new/a.json\n---\n# A\n") ⟨"/home/../srv"⟩) () d =
        (.ok ⟨"/home/../srv/new/a.json"⟩, (), d') ∧
      d'.files ["srv", "b.json"] = some (.file (some "true")) ∧
      d'.locate ⟨"/home/../srv/new/a.json"⟩ = .ok names ∧ d.files names = none ∧
      d'.files names = some (.file (some
        (synthesize (Document.parse "---\n$schema: new/a.json\n---\n# A\n").root).pretty)) := by
  let d : Disk := ⟨.directory [("home", .directory []),
    ("srv", .directory [("b.json", .file (some "true"))])], ["home"]⟩
  have hsettled : d.Settled := ⟨[], rfl⟩
  have hok : (FileSystem.run ⟨Disk.reply⟩ (writeSkeleton
      (Document.parse "---\n$schema: new/a.json\n---\n# A\n") ⟨"/home/../srv"⟩) () d).1.toOption =
        some ⟨"/home/../srv/new/a.json"⟩ := by decide +kernel
  have hschema : d.files ["srv", "b.json"] = some (.file (some "true")) := by rfl
  obtain ⟨result, d', hrun, hkept, -, -, -, -, hnew⟩ := skeleton_spares_files Disk.unreliable
    hsettled (Document.parse "---\n$schema: new/a.json\n---\n# A\n") ⟨"/home/../srv"⟩ ()
  rw [hrun] at hok
  rcases result with e | p
  · cases hok
  cases hok
  obtain ⟨-, -, names, base, hlocate, -, -, hnone, hfiles⟩ := hnew _ rfl
  refine ⟨d, d', names, hschema, hrun, hkept _ _ hschema, hlocate, hnone, ?_⟩
  rw [hfiles, Function.update_self]

end DocSchema
