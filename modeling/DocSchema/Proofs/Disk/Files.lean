/-
  DocSchema/Proofs/Disk/Files.lean
  ================================
  **The files of a disk, and the paths that lead to them.**

  A disk is a map from lists of names to entries (`Entry.at?`), of which all but the directories
  are its files (`Entry.leafAt?`).  What is put in a vacant place leaves the files of the disk as
  they are (`Entry.leafAt?_put_of_outside`): a new directory adds none, and a new file only itself.

  A path leads there in steps.  The steps of a path that is joined to another are the steps of the
  two (`Path.steps_join`), and a walk over both goes on where the walk over the first ends
  (`Disk.walk_append`).
-/
import DocSchema.Proofs.Disk
import DocSchema.Proofs.Path
import Mathlib.Logic.Function.Basic

namespace DocSchema

open DocSchema.Text

/-! ### Entries -/

namespace Entry

/-- What names lead to, unless that is a directory. -/
def leafAt? (e : Entry) (names : List String) : Option Entry :=
  (e.at? names).filter fun f => !f.isDirectory

variable {e f new : Entry} {es : List (String × Entry)} {name : String}
  {names others front : List String}

theorem leafAt?_eq_some_iff :
    e.leafAt? names = some f ↔ e.at? names = some f ∧ f.isDirectory = false := by
  simp [leafAt?, Option.filter_eq_some_iff]

theorem leafAt?_congr {e' : Entry} {names' : List String} (h : e.at? names = e'.at? names') :
    e.leafAt? names = e'.leafAt? names' := by
  unfold leafAt?
  rw [h]

theorem at?_cons_of_not_directory (h : e.isDirectory = false) (name : String)
    (names : List String) : e.at? (name :: names) = none := by
  cases e with
  | file text => rfl
  | other => rfl
  | directory es => cases h

theorem exists_directory_of_at?_cons (h : e.at? (name :: names) = some f) :
    ∃ es, e = .directory es := by
  cases e with
  | file text => cases h
  | other => cases h
  | directory es => exact ⟨es, rfl⟩

theorem at?_append (e : Entry) (front names : List String) :
    e.at? (front ++ names) = (e.at? front).bind (·.at? names) := by
  induction front generalizing e with
  | nil => rfl
  | cons name front ih =>
    cases e with
    | file text => rfl
    | other => rfl
    | directory es =>
      rw [List.cons_append, at?, at?]
      rcases named? es name with _ | inner
      · rfl
      · exact ih inner

theorem leafAt?_of_at?_eq_none (h : e.at? names = none) : e.leafAt? names = none := by
  unfold leafAt?
  rw [h]
  rfl

theorem at?_eq_none_below (h : e.at? front = none) (hfront : front <+: names) :
    e.at? names = none := by
  obtain ⟨rest, rfl⟩ := hfront
  rw [at?_append, h]
  rfl

/-- Names lead to nothing, and to a directory but for the last of them. -/
structure Vacant (e : Entry) (names : List String) : Prop where
  none : e.at? names = none
  parent : ∃ es, e.at? names.dropLast = some (.directory es)

theorem Vacant.exists_directory (h : e.Vacant (name :: names)) : ∃ es, e = .directory es := by
  obtain ⟨-, es, hparent⟩ := h
  rcases names with _ | ⟨name', names⟩
  · exact ⟨es, Option.some.inj hparent⟩
  · exact exists_directory_of_at?_cons hparent

theorem Vacant.inner (h : Vacant (.directory es) (name :: names)) (hnames : names ≠ []) :
    ∃ f, named? es name = some f ∧ f.Vacant names := by
  obtain ⟨hnone, es', hparent⟩ := h
  rw [List.dropLast_cons_of_ne_nil hnames, at?] at hparent
  obtain ⟨f, hf, hdirectory⟩ := Option.bind_eq_some_iff.1 hparent
  rw [at?, hf] at hnone
  exact ⟨f, hf, hnone, es', hdirectory⟩

theorem at?_put_append (new : Entry) (names rest : List String) (e : Entry) :
    (put new names e).at? (names ++ rest) = new.at? rest := by
  rw [at?_append, at?_put_self]
  rfl

/-- What is put in a vacant place leaves all files as they are that are not in it. -/
theorem leafAt?_put_of_outside (h : e.Vacant names) (hothers : ¬ names <+: others) :
    (put new names e).leafAt? others = e.leafAt? others := by
  induction names generalizing e others with
  | nil => exact absurd List.nil_prefix hothers
  | cons name names ih =>
    obtain ⟨es, rfl⟩ := h.exists_directory
    rcases others with _ | ⟨other, others⟩
    · rfl
    · by_cases hname : other = name
      · -- the same directory leads to both, so that the place is further down
        subst hname
        have hnames : names ≠ [] := by
          rintro rfl
          exact hothers (List.prefix_append [other] others)
        have hrest : ¬ names <+: others := fun hprefix =>
          hothers (List.cons_prefix_cons.2 ⟨rfl, hprefix⟩)
        obtain ⟨f, hf, hvacant⟩ := h.inner hnames
        have hput : (put new (other :: names) (.directory es)).at? (other :: others) =
            (put new names f).at? others := by
          simp [put, at?, entries, named?_putNamed_self, hf]
        have hold : Entry.at? (.directory es) (other :: others) = f.at? others := by
          rw [at?, hf, Option.bind_some]
        rw [leafAt?_congr hput, ih hvacant hrest, leafAt?_congr hold]
      · refine leafAt?_congr ?_
        rw [put, at?, at?, entries, named?_putNamed_of_ne hname]

/-- A new directory adds no files. -/
theorem leafAt?_put_directory (h : e.Vacant names) :
    (put (.directory []) names e).leafAt? = e.leafAt? := by
  funext others
  by_cases hprefix : names <+: others
  · rw [leafAt?_of_at?_eq_none (at?_eq_none_below h.none hprefix)]
    obtain ⟨rest, rfl⟩ := hprefix
    rw [leafAt?_congr (at?_put_append (.directory []) names rest e)]
    rcases rest with _ | ⟨other, rest⟩ <;> rfl
  · exact leafAt?_put_of_outside h hprefix

/-- A new file adds itself. -/
theorem leafAt?_put_leaf (h : e.Vacant names) (hnew : new.isDirectory = false) :
    (put new names e).leafAt? = Function.update e.leafAt? names (some new) := by
  funext others
  rw [Function.update_apply]
  by_cases hprefix : names <+: others
  · obtain ⟨rest, rfl⟩ := hprefix
    rw [leafAt?_congr (at?_put_append new names rest e)]
    rcases rest with _ | ⟨other, rest⟩
    · rw [List.append_nil, if_pos rfl]
      exact leafAt?_eq_some_iff.2 ⟨rfl, hnew⟩
    · have hold := at?_eq_none_below h.none (List.prefix_append names (other :: rest))
      rw [if_neg (by simp), leafAt?_of_at?_eq_none hold,
        leafAt?_of_at?_eq_none (at?_cons_of_not_directory hnew other rest)]
  · rw [leafAt?_put_of_outside h hprefix, if_neg]
    intro heq
    subst heq
    exact hprefix (List.prefix_refl others)

end Entry

/-! ### Steps -/

namespace Path

variable {p root rest : Path} {name : String}

theorem steps_eq (p : Path) :
    p.steps = ((splitAt '/' p.text.toList).map String.ofList).filter fun s => s != "" && s != "." :=
  rfl

theorem steps_join (hrest : rest.isAbsolute = false) :
    (root.join rest).steps = root.steps ++ rest.steps := by
  unfold join
  rw [hrest, if_neg Bool.false_ne_true]
  by_cases hempty : root.text.isEmpty = true
  · have htext : root.text = "" := by simpa using hempty
    simp [steps_eq, htext, splitAt]
  · by_cases hslash : root.text.toList.getLast? = some '/'
    · -- the root ends in the slash that stands between the two
      obtain ⟨cs, hcs⟩ := List.getLast?_eq_some_iff.1 hslash
      simp [steps_eq, hcs, splitAt_append, splitAt]
    · simp [steps_eq, hempty, hslash, splitAt_append]

/-- The text of two paths that are joined begins with the one and ends with the other. -/
theorem exists_text_join (root : Path) (hrest : rest.isAbsolute = false) :
    ∃ slash, (root.join rest).text = root.text ++ (slash ++ rest.text) := by
  unfold join
  rw [hrest, if_neg Bool.false_ne_true]
  split
  · exact ⟨"", by rw [String.empty_append]⟩
  · exact ⟨"/", String.append_assoc⟩

theorem isAbsolute_join (root : Path) (hrest : rest.isAbsolute = false) :
    (root.join rest).isAbsolute = root.isAbsolute := by
  by_cases hroot : root.text = ""
  · have hjoin : (root.join rest).text = rest.text := by
      simp [join, hrest, hroot]
    have hrelative : root.isAbsolute = false := by simp [isAbsolute, hroot]
    rw [hrelative, ← hrest, isAbsolute, isAbsolute, hjoin]
  · have hne : root.text.toList ≠ [] := by simpa using hroot
    obtain ⟨c, cs, hcs⟩ := List.exists_cons_of_ne_nil hne
    obtain ⟨slash, htext⟩ := exists_text_join root hrest
    simp [isAbsolute, htext, hcs]

theorem text_ne_empty (h : p.flaw? = none) : p.text ≠ "" := by
  intro hempty
  simp [flaw?, hempty] at h

/-- A path that the system takes goes on from one that it takes. -/
theorem flaw?_of_join (hroot : root.text ≠ "") (hrest : rest.isAbsolute = false)
    (h : (root.join rest).flaw? = none) : root.flaw? = none := by
  obtain ⟨slash, htext⟩ := exists_text_join root hrest
  unfold flaw? at h ⊢
  rw [htext] at h
  split at h
  · cases h
  · rename_i hbytes
    split at h
    · cases h
    · split at h
      · cases h
      · rename_i hlong
        have hnul : ¬ root.text.toList.contains '\x00' = true := by
          simp only [String.toList_append, List.contains_append, Bool.or_eq_true, not_or] at hbytes
          exact hbytes.1
        have hshort : ¬ pathLimit < root.text.utf8ByteSize := by
          rw [String.utf8ByteSize_append] at hlong
          omega
        rw [if_neg hnul, if_neg (by simpa using hroot), if_neg hshort]

end Path

/-! ### Walks -/

namespace Disk

variable {d : Disk} {p : Path} {e : Entry} {names found front steps : List String}

theorem locate_eq (hflaw : p.flaw? = none) : d.locate p = d.walk (d.origin p) p.steps := by
  unfold locate
  rw [hflaw]

/-- A path that is joined to a root starts where the root does. -/
theorem origin_join (d : Disk) (root : Path) {rest : Path} (hrest : rest.isAbsolute = false) :
    d.origin (root.join rest) = d.origin root := by
  unfold origin
  rw [Path.isAbsolute_join root hrest]

theorem flaw?_of_locate (h : d.locate p = .ok names) : p.flaw? = none := by
  unfold locate at h
  split at h
  · cases h
  · assumption

theorem find_eq_ok_iff : d.find p = .ok e ↔ ∃ names, d.locate p = .ok names ∧
    d.top.at? names = some e ∧ (p.asksForDirectory = true → e.isDirectory = true) := by
  unfold find
  rcases d.locate p with error | names
  · simp [Bind.bind, Except.bind]
  · simp only [Bind.bind, Except.bind, Except.ok.injEq, exists_eq_left']
    rcases d.top.at? names with _ | f
    · simp
    · dsimp only
      split
      · rename_i hrefused
        rw [Bool.and_eq_true, Bool.not_eq_true'] at hrefused
        refine iff_of_false nofun ?_
        rintro ⟨heq, hdirectory⟩
        cases heq
        exact absurd (hdirectory hrefused.1) (by simp [hrefused.2])
      · rename_i hkept
        simp only [Except.ok.injEq, Option.some.injEq]
        constructor
        · rintro rfl
          exact ⟨rfl, fun hasks => by simpa [hasks] using hkept⟩
        · exact fun h => h.1

theorem walk_append (d : Disk) (names front steps : List String) :
    d.walk names (front ++ steps) = (d.walk names front).bind (d.walk · steps) := by
  induction front generalizing names with
  | nil => rfl
  | cons step front ih =>
    rw [List.cons_append, walk, walk]
    split
    · rfl
    · split
      · exact ih names.dropLast
      · split
        · rfl
        · exact ih (names ++ [step])
    · rfl

/-- Steps that do not climb lead where they say. -/
theorem eq_append_of_walk (hsteps : ∀ step ∈ steps, step ≠ "..")
    (h : d.walk names steps = .ok found) : found = names ++ steps := by
  induction steps generalizing names with
  | nil =>
    rw [List.append_nil]
    exact (Except.ok.inj h).symm
  | cons step steps ih =>
    obtain ⟨hstep, hsteps⟩ := List.forall_mem_cons.1 hsteps
    rw [walk] at h
    split at h
    · cases h
    · rw [if_neg (by simpa using hstep)] at h
      split at h
      · cases h
      · rw [ih hsteps h, List.append_assoc, List.singleton_append]
    · cases h

end Disk

end DocSchema
