/-
  DocSchema/Proofs/Disk/Listing.lean
  ==================================
  **What is seen of a disk, and in which order.**

  Names lead down from a path to paths of what is below it (`Path.descend`).  Where such a path is
  found, it leads to what the names lead to (`Disk.at?_of_find_descend`), over directories that are
  found as well (`Disk.exists_find_of_descend`).  It need not be found although something is there:
  its text may be too long.

  What is seen of a directory is what it lists, as far as it is found (`Disk.view`).  Directories
  tell their entries in some order.  In another order (`Entry.Relisted`) the same paths are found,
  and the same is seen of them in another order.
-/
import DocSchema.Proofs.Disk.Files
import Mathlib.Data.List.Nodup

namespace DocSchema

open DocSchema.Text

/-! ### Names -/

/-- What a file or a directory may be called. -/
def IsName (name : String) : Prop :=
  name ≠ "" ∧ name ≠ "." ∧ name ≠ ".." ∧ '/' ∉ name.toList

mutual

/-- Whatever is in a directory has a name, and no two in one directory have the same. -/
def Entry.Proper : Entry → Prop
  | .directory es => ProperEntries es
  | _ => True

def ProperEntries : List (String × Entry) → Prop
  | [] => True
  | (name, e) :: es => (IsName name ∧ e.Proper ∧ ∀ f ∈ es, name ≠ f.1) ∧ ProperEntries es

end

theorem properEntries_iff {es : List (String × Entry)} : ProperEntries es ↔
    (∀ m ∈ es, IsName m.1 ∧ m.2.Proper) ∧ (es.map Prod.fst).Nodup := by
  induction es with
  | nil => simp [ProperEntries]
  | cons m es ih =>
    obtain ⟨name, e⟩ := m
    simp only [ProperEntries, ih, List.forall_mem_cons, List.map_cons, List.nodup_cons,
      List.mem_map, not_exists, not_and]
    constructor
    · rintro ⟨⟨hname, he, hothers⟩, hrest, hnodup⟩
      exact ⟨⟨⟨hname, he⟩, hrest⟩, fun m hm heq => hothers m hm heq.symm, hnodup⟩
    · rintro ⟨⟨⟨hname, he⟩, hrest⟩, hothers, hnodup⟩
      exact ⟨⟨hname, he, fun m hm heq => hothers m hm heq.symm⟩, hrest, hnodup⟩

variable {p q : Path} {name : String} {names rest : List String} {e f g : Entry}
  {es fs : List (String × Entry)} {d d' : Disk}

namespace Entry

theorem mem_of_named? (h : named? es name = some e) : (name, e) ∈ es := by
  induction es with
  | nil => cases h
  | cons m es ih =>
    obtain ⟨other, f⟩ := m
    rw [named?] at h
    split at h
    · rename_i hname
      cases h
      rw [hname]
      exact List.mem_cons_self
    · exact List.mem_cons_of_mem _ (ih h)

theorem named?_eq_some_iff (hes : (es.map Prod.fst).Nodup) :
    named? es name = some e ↔ (name, e) ∈ es := by
  refine ⟨mem_of_named?, fun h => ?_⟩
  induction es with
  | nil => cases h
  | cons m es ih =>
    obtain ⟨other, f⟩ := m
    obtain ⟨hother, hes⟩ := List.nodup_cons.1 hes
    rw [named?]
    rcases List.mem_cons.1 h with heq | hmem
    · cases heq
      exact if_pos rfl
    · have hne : other ≠ name := by
        rintro rfl
        exact hother (List.mem_map.2 ⟨_, hmem, rfl⟩)
      rw [if_neg hne]
      exact ih hes hmem

theorem Proper.of_at? (he : e.Proper) (hf : e.at? names = some f) :
    (∀ name ∈ names, IsName name) ∧ f.Proper := by
  induction names generalizing e with
  | nil =>
    cases hf
    exact ⟨fun _ hname => absurd hname List.not_mem_nil, he⟩
  | cons name names ih =>
    obtain ⟨es, rfl⟩ := exists_directory_of_at?_cons hf
    obtain ⟨inner, hinner, hf⟩ := Option.bind_eq_some_iff.1 hf
    unfold Entry.Proper at he
    obtain ⟨hname, hproper⟩ := (properEntries_iff.1 he).1 _ (mem_of_named? hinner)
    obtain ⟨hnames, hproper⟩ := ih hproper hf
    exact ⟨List.forall_mem_cons.2 ⟨hname, hnames⟩, hproper⟩

end Entry

/-! ### Names that lead down -/

/-- The path of what names lead to from a path. -/
def Path.descend (p : Path) (names : List String) : Path :=
  names.foldl (fun q name => q.join ⟨name⟩) p

theorem IsName.isAbsolute (h : IsName name) : Path.isAbsolute ⟨name⟩ = false := by
  obtain ⟨-, -, -, hslash⟩ := h
  rw [Path.isAbsolute, beq_eq_false_iff_ne]
  exact fun hhead => hslash (List.mem_of_head? hhead)

theorem IsName.steps (h : IsName name) : Path.steps ⟨name⟩ = [name] := by
  obtain ⟨hempty, hself, -, hslash⟩ := h
  simp [Path.steps_eq, splitAt_of_not_mem hslash, hempty, hself]

namespace Path

theorem text_join_ne_empty (hp : p.text ≠ "") (h : IsName name) : (p.join ⟨name⟩).text ≠ "" := by
  obtain ⟨slash, htext⟩ := exists_text_join p h.isAbsolute
  rw [htext]
  simp [hp]

theorem descend_append (p : Path) (names rest : List String) :
    p.descend (names ++ rest) = (p.descend names).descend rest :=
  List.foldl_append

theorem steps_descend (hnames : ∀ name ∈ names, IsName name) (p : Path) :
    (p.descend names).steps = p.steps ++ names := by
  induction names generalizing p with
  | nil => exact (List.append_nil _).symm
  | cons name names ih =>
    obtain ⟨hname, hnames⟩ := List.forall_mem_cons.1 hnames
    calc (p.descend (name :: names)).steps = ((p.join ⟨name⟩).descend names).steps := rfl
      _ = (p.join ⟨name⟩).steps ++ names := ih hnames _
      _ = p.steps ++ name :: names := by simp [steps_join hname.isAbsolute, hname.steps]

theorem isAbsolute_descend (hnames : ∀ name ∈ names, IsName name) (p : Path) :
    (p.descend names).isAbsolute = p.isAbsolute := by
  induction names generalizing p with
  | nil => rfl
  | cons name names ih =>
    obtain ⟨hname, hnames⟩ := List.forall_mem_cons.1 hnames
    exact (ih hnames (p.join ⟨name⟩)).trans (isAbsolute_join p hname.isAbsolute)

/-- The system takes a path if it takes one that leads further down. -/
theorem flaw?_of_descend (hnames : ∀ name ∈ names, IsName name) (hp : p.text ≠ "")
    (h : (p.descend names).flaw? = none) : p.flaw? = none := by
  induction names generalizing p with
  | nil => exact h
  | cons name names ih =>
    obtain ⟨hname, hnames⟩ := List.forall_mem_cons.1 hnames
    exact flaw?_of_join hp hname.isAbsolute (ih hnames (text_join_ne_empty hp hname) h)

end Path

/-! ### What is found further down -/

namespace Disk

theorem text_ne_empty_of_find (h : d.find p = .ok e) : p.text ≠ "" := by
  obtain ⟨found, hfound, -⟩ := find_eq_ok_iff.1 h
  exact Path.text_ne_empty (flaw?_of_locate hfound)

theorem proper_of_find (hd : d.top.Proper) (h : d.find p = .ok e) : e.Proper := by
  obtain ⟨found, -, hat, -⟩ := find_eq_ok_iff.1 h
  exact (hd.of_at? hat).2

theorem origin_descend (d : Disk) (hnames : ∀ name ∈ names, IsName name) (p : Path) :
    d.origin (p.descend names) = d.origin p := by
  unfold origin
  rw [Path.isAbsolute_descend hnames]

/-- A path that leads further down goes on from the place of the path. -/
theorem exists_locate_of_descend (hnames : ∀ name ∈ names, IsName name) (hp : p.text ≠ "")
    {found : List String} (h : d.locate (p.descend names) = .ok found) :
    ∃ base, d.locate p = .ok base ∧ d.walk base names = .ok found := by
  have hflaw := flaw?_of_locate h
  rw [locate_eq hflaw, origin_descend d hnames, Path.steps_descend hnames, walk_append] at h
  rw [locate_eq (Path.flaw?_of_descend hnames hp hflaw)]
  rcases hbase : d.walk (d.origin p) p.steps with error | base
  · rw [hbase] at h
    cases h
  · rw [hbase] at h
    exact ⟨base, rfl, h⟩

/-- What is found further down is what the names lead to. -/
theorem at?_of_find_descend (hp : d.find p = .ok e) (hnames : ∀ name ∈ names, IsName name)
    (h : d.find (p.descend names) = .ok f) : e.at? names = some f := by
  obtain ⟨base, hbase, hat, -⟩ := find_eq_ok_iff.1 hp
  obtain ⟨found, hfound, hatf, -⟩ := find_eq_ok_iff.1 h
  obtain ⟨base', hbase', hwalk⟩ :=
    exists_locate_of_descend hnames (Path.text_ne_empty (flaw?_of_locate hbase)) hfound
  cases hbase.symm.trans hbase'
  have hclimb : ∀ name ∈ names, name ≠ ".." := fun name hname => (hnames name hname).2.2.1
  rw [eq_append_of_walk hclimb hwalk, Entry.at?_append, hat, Option.bind_some] at hatf
  exact hatf

theorem at?_of_find_join (hp : d.find p = .ok e) (hname : IsName name)
    (h : d.find (p.join ⟨name⟩) = .ok f) : e.at? [name] = some f :=
  at?_of_find_descend hp (List.forall_mem_singleton.2 hname) h

/-- A walk starts in a directory. -/
theorem exists_directory_of_walk {found : List String} (hne : names ≠ [])
    (h : d.walk rest names = .ok found) : ∃ es, d.top.at? rest = some (.directory es) := by
  obtain ⟨step, steps, rfl⟩ := List.exists_cons_of_ne_nil hne
  rw [walk] at h
  split at h
  · cases h
  · exact ⟨_, ‹_›⟩
  · cases h

/-- Where a directory is found further down, one is found on the way. -/
theorem exists_find_of_descend (hp : p.text ≠ "") (hnames : ∀ name ∈ names, IsName name)
    (h : d.find (p.descend names) = .ok (.directory es)) :
    ∃ fs, d.find p = .ok (.directory fs) := by
  by_cases hempty : names = []
  · subst hempty
    exact ⟨es, h⟩
  · obtain ⟨found, hfound, -, -⟩ := find_eq_ok_iff.1 h
    obtain ⟨base, hbase, hwalk⟩ := exists_locate_of_descend hnames hp hfound
    obtain ⟨fs, hfs⟩ := exists_directory_of_walk hempty hwalk
    exact ⟨fs, find_eq_ok_iff.2 ⟨base, hbase, hfs, fun _ => rfl⟩⟩

end Disk

/-! ### What is seen -/

namespace Disk

/-- What is seen of an entry of the directory at a path. -/
def seen (d : Disk) (p : Path) (m : String × Entry) : Entry :=
  if (d.find (p.join ⟨m.1⟩)).toBool then d.view (p.join ⟨m.1⟩) m.2 else .other

theorem viewAll_eq_map (d : Disk) (p : Path) (es : List (String × Entry)) :
    d.viewAll p es = es.map fun m => (m.1, d.seen p m) := by
  induction es with
  | nil => rfl
  | cons m es ih =>
    obtain ⟨name, e⟩ := m
    rw [viewAll, ih]
    rfl

theorem view_of_not_directory (h : e.isDirectory = false) : d.view p e = e := by
  cases e with
  | directory es => cases h
  | file _ | other => rfl

mutual

theorem proper_view (d : Disk) (p : Path) : ∀ {e : Entry}, e.Proper → (d.view p e).Proper
  | .file _, _ => by
    rw [view_of_not_directory rfl]
    trivial
  | .other, _ => by
    rw [view_of_not_directory rfl]
    trivial
  | .directory es, he => by
    unfold Entry.Proper at he
    rw [view, Entry.Proper]
    exact proper_viewAll d p he

theorem proper_viewAll (d : Disk) (p : Path) :
    ∀ {es : List (String × Entry)}, ProperEntries es → ProperEntries (d.viewAll p es)
  | [], _ => trivial
  | (name, e) :: es, hes => by
    obtain ⟨⟨hname, he, hothers⟩, hrest⟩ := hes
    have hseen : (d.seen p (name, e)).Proper := by
      unfold seen
      split
      · exact proper_view d _ he
      · trivial
    refine ⟨⟨hname, hseen, fun m hm => ?_⟩, proper_viewAll d p hrest⟩
    rw [viewAll_eq_map] at hm
    obtain ⟨m', hm', rfl⟩ := List.mem_map.1 hm
    exact hothers m' hm'

end

end Disk

/-! ### Other orders of entries -/

/-- Entries in another order, and so at every level below. -/
inductive Relisted : List (String × Entry) → List (String × Entry) → Prop
  | nil : Relisted [] []
  | leaf {name : String} {e : Entry} {es fs : List (String × Entry)} (he : e.isDirectory = false)
      (h : Relisted es fs) : Relisted ((name, e) :: es) ((name, e) :: fs)
  | directory {name : String} {inner inner' es fs : List (String × Entry)}
      (hinner : Relisted inner inner') (h : Relisted es fs) :
      Relisted ((name, .directory inner) :: es) ((name, .directory inner') :: fs)
  | swap (m m' : String × Entry) (es : List (String × Entry)) :
      Relisted (m :: m' :: es) (m' :: m :: es)
  | trans {es fs gs : List (String × Entry)} (h : Relisted es fs) (h' : Relisted fs gs) :
      Relisted es gs

/-- The same file, or a directory with its entries in another order. -/
inductive Entry.Relisted : Entry → Entry → Prop
  | leaf {e : Entry} (he : e.isDirectory = false) : Entry.Relisted e e
  | directory {es fs : List (String × Entry)} (h : DocSchema.Relisted es fs) :
      Entry.Relisted (.directory es) (.directory fs)

mutual

theorem Entry.Relisted.refl : ∀ e : Entry, e.Relisted e
  | .file _ => .leaf rfl
  | .other => .leaf rfl
  | .directory es => .directory (Relisted.refl es)

theorem Relisted.refl : ∀ es : List (String × Entry), Relisted es es
  | [] => .nil
  | (_, .file _) :: es => .leaf rfl (Relisted.refl es)
  | (_, .other) :: es => .leaf rfl (Relisted.refl es)
  | (_, .directory inner) :: es => .directory (Relisted.refl inner) (Relisted.refl es)

end

theorem Relisted.symm (h : Relisted es fs) : Relisted fs es := by
  induction h with
  | nil => exact .nil
  | leaf he _ ih => exact .leaf he ih
  | directory _ _ hinner ih => exact .directory hinner ih
  | swap m m' es => exact .swap m' m es
  | trans _ _ ih ih' => exact ih'.trans ih

theorem Relisted.cons (h : e.Relisted f) (hes : Relisted es fs) :
    Relisted ((name, e) :: es) ((name, f) :: fs) := by
  rcases h with he | hinner
  · exact .leaf he hes
  · exact .directory hinner hes

theorem Relisted.names_perm (h : Relisted es fs) : (es.map Prod.fst).Perm (fs.map Prod.fst) := by
  induction h with
  | nil => exact .refl _
  | leaf _ _ ih => exact ih.cons _
  | directory _ _ _ ih => exact ih.cons _
  | swap m m' es => exact .swap _ _ _
  | trans _ _ ih ih' => exact ih.trans ih'

theorem Relisted.proper (h : Relisted es fs) (hes : ProperEntries es) : ProperEntries fs := by
  induction h with
  | nil => exact hes
  | leaf _ h ih =>
    obtain ⟨⟨hname, he, hothers⟩, hrest⟩ := hes
    refine ⟨⟨hname, he, fun m hm heq => ?_⟩, ih hrest⟩
    obtain ⟨m', hm', hsame⟩ := List.mem_map.1
      (h.names_perm.mem_iff.2 (List.mem_map_of_mem (f := Prod.fst) hm))
    exact hothers m' hm' (heq.trans hsame.symm)
  | directory hinner h ihinner ih =>
    obtain ⟨⟨hname, he, hothers⟩, hrest⟩ := hes
    refine ⟨⟨hname, ihinner he, fun m hm heq => ?_⟩, ih hrest⟩
    obtain ⟨m', hm', hsame⟩ := List.mem_map.1
      (h.names_perm.mem_iff.2 (List.mem_map_of_mem (f := Prod.fst) hm))
    exact hothers m' hm' (heq.trans hsame.symm)
  | swap m m' es =>
    rw [properEntries_iff] at hes ⊢
    obtain ⟨hall, hnodup⟩ := hes
    have hperm : (m :: m' :: es).Perm (m' :: m :: es) := .swap _ _ _
    refine ⟨fun x hx => hall x (hperm.mem_iff.2 hx), ?_⟩
    exact (hperm.map Prod.fst).nodup_iff.1 hnodup
  | trans _ _ ih ih' => exact ih' (ih hes)

namespace Entry

variable {e' : Entry}

theorem Relisted.symm (h : e.Relisted f) : f.Relisted e := by
  rcases h with he | hes
  · exact .leaf he
  · exact .directory hes.symm

theorem Relisted.trans (h : e.Relisted f) (h' : f.Relisted g) : e.Relisted g := by
  rcases h with he | hes
  · exact h'
  · rcases h' with hf | hfs
    · exact .directory hes
    · exact .directory (hes.trans hfs)

theorem Relisted.proper (h : e.Relisted f) (he : e.Proper) : f.Proper := by
  rcases h with - | hes
  · exact he
  · exact hes.proper he

theorem Relisted.isDirectory_eq (h : e.Relisted f) : f.isDirectory = e.isDirectory := by
  rcases h with - | - <;> rfl

theorem exists_named?_cons {first : String} {head head' : Entry} (hhead : head.Relisted head')
    (htail : named? es name = some e → ∃ f, named? fs name = some f ∧ e.Relisted f)
    (he : named? ((first, head) :: es) name = some e) :
    ∃ f, named? ((first, head') :: fs) name = some f ∧ e.Relisted f := by
  rw [named?] at he ⊢
  split at he
  · rename_i hname
    cases he
    exact ⟨head', if_pos hname, hhead⟩
  · rename_i hname
    rw [if_neg hname]
    exact htail he

end Entry

/-- Where no name comes twice, a name leads to the same in whatever order the entries come. -/
theorem Relisted.exists_named? (h : Relisted es fs) (hes : (es.map Prod.fst).Nodup)
    (he : Entry.named? es name = some e) : ∃ f, Entry.named? fs name = some f ∧ e.Relisted f := by
  induction h generalizing e with
  | nil => cases he
  | leaf hleaf _ ih => exact Entry.exists_named?_cons (.leaf hleaf) (ih (List.nodup_cons.1 hes).2) he
  | directory hinner _ _ ih =>
    exact Entry.exists_named?_cons (.directory hinner) (ih (List.nodup_cons.1 hes).2) he
  | swap m m' es =>
    have hne : m.1 ≠ m'.1 := fun heq => (List.nodup_cons.1 hes).1 (heq ▸ List.mem_cons_self)
    refine ⟨e, ?_, .refl e⟩
    rw [← he]
    simp only [Entry.named?]
    by_cases hm : m.1 = name
    · subst hm
      simp [Ne.symm hne]
    · simp [hm]
  | trans h _ ih ih' =>
    obtain ⟨f, hf, hef⟩ := ih hes he
    obtain ⟨g, hg, hfg⟩ := ih' (h.names_perm.nodup_iff.1 hes) hf
    exact ⟨g, hg, hef.trans hfg⟩

theorem Entry.Relisted.exists_at? {e' : Entry} (h : e.Relisted e') (he : e.Proper)
    (hf : e.at? names = some f) : ∃ f', e'.at? names = some f' ∧ f.Relisted f' := by
  induction names generalizing e e' with
  | nil =>
    cases hf
    exact ⟨e', rfl, h⟩
  | cons name names ih =>
    obtain ⟨es, rfl⟩ := exists_directory_of_at?_cons hf
    obtain ⟨inner, hinner, hf⟩ := Option.bind_eq_some_iff.1 hf
    rcases h with hleaf | hes
    · cases hleaf
    · unfold Entry.Proper at he
      obtain ⟨inner', hinner', hrelisted⟩ := hes.exists_named? (properEntries_iff.1 he).2 hinner
      rw [at?, hinner']
      exact ih hrelisted ((properEntries_iff.1 he).1 _ (mem_of_named? hinner)).2 hf

namespace Disk

/-- The same disk, whose directories tell their entries in another order. -/
structure Relisted (d d' : Disk) : Prop where
  here : d'.here = d.here
  top : d.top.Relisted d'.top

theorem Relisted.symm (h : d.Relisted d') : d'.Relisted d :=
  ⟨h.here.symm, h.top.symm⟩

theorem Relisted.exists_find (h : d.Relisted d') (hd : d.top.Proper) (hp : d.find p = .ok e) :
    ∃ e', d'.find p = .ok e' ∧ e.Relisted e' := by
  obtain ⟨found, hlocate, hat, hdirectory⟩ := find_eq_ok_iff.1 hp
  obtain ⟨e', hat', hrelisted⟩ := h.top.exists_at? hd hat
  refine ⟨e', find_eq_ok_iff.2 ⟨found, ?_, hat', fun hasks => ?_⟩, hrelisted⟩
  · refine locate_of_directories h.here (fun names es hes => ?_) hlocate
    obtain ⟨f, hf, hrelisted⟩ := h.top.exists_at? hd hes
    rcases hrelisted with hleaf | hfs
    · cases hleaf
    · exact ⟨_, hf⟩
  · rw [hrelisted.isDirectory_eq]
    exact hdirectory hasks

theorem Relisted.toBool_find (h : d.Relisted d') (hd : d.top.Proper) (p : Path) :
    (d'.find p).toBool = (d.find p).toBool := by
  have hforth : ∀ {d d' : Disk}, d.Relisted d' → d.top.Proper →
      (d.find p).toBool = true → (d'.find p).toBool = true := by
    intro d d' h hd hfound
    rcases hfind : d.find p with error | e
    · rw [hfind] at hfound
      cases hfound
    · obtain ⟨e', hfind', -⟩ := h.exists_find hd hfind
      rw [hfind']
      rfl
  exact Bool.eq_iff_iff.2 ⟨hforth h.symm (h.top.proper hd), hforth h hd⟩

mutual

/-- Where the same paths are found, the same is seen. -/
theorem view_congr (h : ∀ q, (d'.find q).toBool = (d.find q).toBool) (p : Path) :
    ∀ e : Entry, d'.view p e = d.view p e
  | .file _ => rfl
  | .other => rfl
  | .directory es => by
    rw [view, view, viewAll_congr h p es]

theorem viewAll_congr (h : ∀ q, (d'.find q).toBool = (d.find q).toBool) (p : Path) :
    ∀ es : List (String × Entry), d'.viewAll p es = d.viewAll p es
  | [] => rfl
  | (name, e) :: es => by
    rw [viewAll, viewAll, h, view_congr h _ e, viewAll_congr h p es]

end

theorem relisted_viewAll (d : Disk) (h : DocSchema.Relisted es fs) (p : Path) :
    DocSchema.Relisted (d.viewAll p es) (d.viewAll p fs) := by
  induction h generalizing p with
  | nil => exact .nil
  | leaf _ _ ih => exact .cons (.refl _) (ih p)
  | directory _ _ hinner ih =>
    refine .cons ?_ (ih p)
    split
    · exact .directory (hinner _)
    · exact .refl _
  | swap m m' es => exact .swap _ _ _
  | trans _ _ ih ih' => exact (ih p).trans (ih' p)

/-- In whatever order directories tell their entries, the same is seen. -/
theorem Relisted.view (h : d.Relisted d') (hd : d.top.Proper) (he : e.Relisted f) (p : Path) :
    (d.view p e).Relisted (d'.view p f) := by
  rw [view_congr (h.toBool_find hd) p f]
  rcases he with he | hes
  · exact .refl _
  · exact .directory (relisted_viewAll d hes p)

end Disk

end DocSchema
