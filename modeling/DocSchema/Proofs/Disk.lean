/-
  DocSchema/Proofs/Disk.lean
  ==========================
  **What has been created is there.**

  A file system answers requests and changes (`FileSystem`); programs run on it as they do on a
  disk in memory (`Disk.run_eq`).  A file system keeps what it creates (`FileSystem.Keeps`) if a
  file that it has just created is there and holds the text that was given for it.  A disk does
  (`Disk.keeps`): a new entry is in nobody's way, so that the path that led to its place before
  leads there after.
-/
import DocSchema.Disk

namespace DocSchema

/-! ### File systems -/

/-- How the files that a program asks for answer, and change. -/
structure FileSystem (W : Type) where
  reply : (q : Request) → W → q.Reply × W

namespace FileSystem

variable {W σ α β : Type}

/-- Runs a program on files that nobody else uses. -/
def run (fs : FileSystem W) : Program σ α → σ → W → α × σ × W
  | .done a, s, w => (a, s, w)
  | .step change rest, s, w => fs.run (rest s) (change s) w
  | .ask q rest, s, w => fs.run (rest (fs.reply q w).1) s (fs.reply q w).2

/-- A file that has just been created is there, with its text. -/
def Keeps (fs : FileSystem W) : Prop :=
  ∀ p text w w', fs.reply (.createFile p text) w = (.created, w') →
    fs.reply (.isFile p) w' = (true, w') ∧ fs.reply (.readText p) w' = (.ok text, w')

theorem run_bind (fs : FileSystem W) (p : Program σ α) (k : α → Program σ β) (s : σ) (w : W) :
    fs.run (p.bind k) s w =
      fs.run (k (fs.run p s w).1) (fs.run p s w).2.1 (fs.run p s w).2.2 := by
  induction p generalizing s w with
  | done a => rfl
  | step change rest ih => exact ih s (change s) w
  | ask q rest ih => exact ih _ s _

/-- A run without data, by its answer. -/
theorem exists_run_eq {fs : FileSystem W} {q : Program Unit α} {w : W} {a : α}
    (h : (fs.run q () w).1 = a) : ∃ w', fs.run q () w = (a, (), w') := by
  subst h
  exact ⟨(fs.run q () w).2.2, rfl⟩

end FileSystem

/-! ### Entries -/

namespace Entry

variable {es : List (String × Entry)} {name other : String} {e : Entry}
  {names : List String}

theorem named?_putNamed_self (es : List (String × Entry)) (name : String) (e : Entry) :
    named? (putNamed es name e) name = some e := by
  induction es with
  | nil => simp [putNamed, named?]
  | cons m es ih =>
    obtain ⟨k, f⟩ := m
    by_cases hk : k = name <;> simp [putNamed, named?, hk, ih]

theorem named?_putNamed_of_ne (h : other ≠ name) :
    named? (putNamed es name e) other = named? es other := by
  induction es with
  | nil => simp [putNamed, named?, Ne.symm h]
  | cons m es ih =>
    obtain ⟨k, f⟩ := m
    by_cases hk : k = name
    · simp [putNamed, named?, hk, Ne.symm h]
    · simp [putNamed, named?, hk, ih]

theorem at?_put_self (new : Entry) (names : List String) (e : Entry) :
    (put new names e).at? names = some new := by
  induction names generalizing e with
  | nil => rfl
  | cons name names ih =>
    rw [put, at?, named?_putNamed_self]
    exact ih _

/-- A directory is still one after an entry has been put where none was. -/
theorem isDirectory_at?_put (new : Entry) {others : List String} (hnew : e.at? names = none)
    (h : ∃ es, e.at? others = some (.directory es)) :
    ∃ es, (put new names e).at? others = some (.directory es) := by
  induction names generalizing others e with
  | nil => cases hnew
  | cons name names ih =>
    cases others with
    | nil => exact ⟨_, rfl⟩
    | cons other others =>
      obtain ⟨found, hfound⟩ := h
      cases e with
      | file text => cases hfound
      | other => cases hfound
      | directory es =>
        obtain ⟨f, hf, hdirectory⟩ := Option.bind_eq_some_iff.1 hfound
        rw [put, at?]
        by_cases hname : other = name
        · subst hname
          have hnone : f.at? names = none := by
            rw [at?, hf] at hnew
            exact hnew
          rw [named?_putNamed_self]
          simp only [entries, hf, Option.getD_some, Option.bind_some]
          exact ih hnone ⟨found, hdirectory⟩
        · rw [named?_putNamed_of_ne hname]
          exact ⟨found, hfound⟩

end Entry

/-! ### Disks -/

namespace Disk

variable {d : Disk} {names target steps found : List String} {new : Entry} {p : Path}

/-- A walk goes over directories alone.  It leads to the same place where these are directories
too. -/
theorem walk_of_directories {d' : Disk}
    (hdirectories : ∀ names es, d.top.at? names = some (.directory es) →
      ∃ es', d'.top.at? names = some (.directory es'))
    (h : d.walk names steps = .ok found) : d'.walk names steps = .ok found := by
  induction steps generalizing names with
  | nil => exact h
  | cons step steps ih =>
    unfold walk at h ⊢
    split at h
    · cases h
    · rename_i es hes
      obtain ⟨es', hes'⟩ := hdirectories names es hes
      rw [hes']
      dsimp only
      split at h
      · rename_i hup
        rw [if_pos hup]
        exact ih h
      · rename_i hup
        rw [if_neg hup]
        split at h
        · cases h
        · rename_i hshort
          rw [if_neg hshort]
          exact ih h
    · cases h

/-- Where the same directories are there, paths that led to a place still lead to it. -/
theorem locate_of_directories {d' : Disk} (hhere : d'.here = d.here)
    (hdirectories : ∀ names es, d.top.at? names = some (.directory es) →
      ∃ es', d'.top.at? names = some (.directory es'))
    (h : d.locate p = .ok found) : d'.locate p = .ok found := by
  unfold locate origin at h ⊢
  rw [hhere]
  cases hflaw : p.flaw? with
  | some e =>
    rw [hflaw] at h
    cases h
  | none =>
    rw [hflaw] at h
    exact walk_of_directories hdirectories h

/-- A new entry is not in the way. -/
theorem locate_place (hnew : d.top.at? target = none) (h : d.locate p = .ok found) :
    (d.place target new).locate p = .ok found :=
  locate_of_directories (d := d) rfl
    (fun _ es hes => Entry.isDirectory_at?_put new hnew ⟨es, hes⟩) h

/-- A place where a file can be created has no path that asks for a directory. -/
theorem of_target (h : d.target p = .ok names) (hnew : d.top.at? names = none) :
    d.locate p = .ok names ∧ p.asksForDirectory = false := by
  unfold target at h
  cases hlocate : d.locate p with
  | error e =>
    rw [hlocate] at h
    cases h
  | ok found =>
    rw [hlocate] at h
    simp only [Bind.bind, Except.bind] at h
    split at h
    · cases h
    · split at h
      · -- the directory would have to be there
        split at h
        · cases h
        · rename_i e hfind
          cases h
          unfold find at hfind
          rw [hlocate] at hfind
          simp only [Bind.bind, Except.bind, hnew] at hfind
          cases hfind
      · rename_i hfile
        cases h
        exact ⟨rfl, Bool.eq_false_iff.2 hfile⟩

theorem find_createFile {d' : Disk} {text : String}
    (h : d.createFile p text = (.created, d')) : d'.find p = .ok (.file (some text)) := by
  unfold createFile at h
  split at h
  · cases h
  · rename_i names htarget
    split at h
    · cases h
    · rename_i hnew
      cases h
      obtain ⟨hlocate, hfile⟩ := of_target htarget hnew
      have hat : (d.place names (.file (some text))).top.at? names = some (.file (some text)) :=
        Entry.at?_put_self _ _ _
      unfold find
      rw [locate_place hnew hlocate]
      simp only [Bind.bind, Except.bind]
      rw [hat, hfile]
      rfl

theorem keeps : FileSystem.Keeps ⟨Disk.reply⟩ := by
  intro p text d d' h
  have hfind := find_createFile h
  have htext : d'.readText p = .ok text := by
    unfold readText
    rw [hfind]
    rfl
  constructor
  · change (_, _) = _
    rw [hfind]
  · change (_, _) = _
    rw [htext]
    rfl

/-- Programs run on a disk as on a file system that answers as the disk does. -/
theorem run_eq {σ α : Type} (q : Program σ α) (s : σ) (d : Disk) :
    run q s d = FileSystem.run ⟨Disk.reply⟩ q s d := by
  induction q generalizing s d with
  | done a => rfl
  | step change rest ih => exact ih s (change s) d
  | ask q rest ih => exact ih _ s _

end Disk

end DocSchema
