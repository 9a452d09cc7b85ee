/-
  DocSchema/Proofs/Report/Collection.lean
  =======================================
  **The documents at a path are collected without a gap, each once, and in order.**

  What is collected below a path is what the directories there list, except what is found to be a
  directory (`Disk.ListedBelow`, `Disk.mem_documents_view`).  Where everything below is a file or a
  directory and is found, these are the files of the tree (`Disk.collectsFiles_of_found`).  It need
  not be so: a pipe is listed and is no file, and a directory whose path is too long for the system
  is listed and not found (`Disk.others_collected`).

  Directories tell their entries in some order.  In another order (`Disk.Relisted`) the same
  documents come in another order too (`Relisted.documentsOf_perm`); as no two of them are spellings
  of one path, they are sorted into the same list (`Path.sort_eq_of_perm`).
-/
import DocSchema.Proofs.Report
import Mathlib.Data.List.Pairwise
import Mathlib.Data.List.TakeWhile

namespace DocSchema

open DocSchema.Text DocSchema.Workspace

/-! ### Names of documents -/

namespace Path

variable {p : Path}

theorem takeWhile_append_dot {front : List Char} (h : '.' ∉ front) (back : List Char) :
    (front ++ '.' :: back).takeWhile (· != '.') = front := by
  have hfront : ∀ c ∈ front, (c != '.') = true := by
    intro c hc
    rw [bne_iff_ne]
    rintro rfl
    exact h hc
  rw [List.takeWhile_append_of_pos hfront, List.takeWhile_cons_of_neg (by decide), List.append_nil]

/-- An extension comes after the last dot, and something comes before the dot. -/
theorem extensionOf?_eq_some_iff {name suffix : List Char} :
    extensionOf? name = some suffix ↔
      '.' ∉ suffix ∧ ∃ stem, stem ≠ [] ∧ name = stem ++ '.' :: suffix := by
  constructor
  · intro h
    simp only [extensionOf?, Option.ite_none_right_eq_some, Option.some.injEq] at h
    obtain ⟨hlength, rfl⟩ := h
    have hdot : '.' ∉ (name.reverse.takeWhile (· != '.')).reverse := by
      intro hmem
      have hpass := List.mem_takeWhile_imp (List.mem_reverse.1 hmem)
      exact absurd hpass (by decide)
    refine ⟨hdot, ?_⟩
    have hsplit := @List.takeWhile_append_dropWhile _ (· != '.') name.reverse
    rcases hrest : name.reverse.dropWhile (· != '.') with _ | ⟨c, _ | ⟨c', rest⟩⟩
    · have hcount := congrArg List.length hsplit
      rw [hrest] at hcount
      simp at hlength hcount
      omega
    · have hcount := congrArg List.length hsplit
      rw [hrest] at hcount
      simp at hlength hcount
      omega
    · have hc : c = '.' := by
        have hstop := List.head?_dropWhile_not (· != '.') name.reverse
        rw [hrest] at hstop
        simpa using hstop
      subst hc
      refine ⟨(c' :: rest).reverse, by simp, ?_⟩
      rw [hrest] at hsplit
      have hname := congrArg List.reverse hsplit
      simpa using hname.symm
  · rintro ⟨hdot, stem, hstem, rfl⟩
    have hsuffix : (stem ++ '.' :: suffix).reverse.takeWhile (· != '.') = suffix.reverse := by
      rw [List.reverse_append, List.reverse_cons, List.append_assoc, List.singleton_append]
      exact takeWhile_append_dot (by simpa using hdot) _
    have hlength : 0 < stem.length := List.length_pos_iff.2 hstem
    simp only [extensionOf?, hsuffix, List.reverse_reverse, List.length_append, List.length_cons]
    rw [if_pos (by omega)]

theorem extension?_eq_some_iff {extension : String} :
    p.extension? = some extension ↔ '.' ∉ extension.toList ∧
      ∃ stem, stem ≠ "" ∧ p.fileName? = some (stem ++ "." ++ extension) := by
  unfold extension?
  rcases p.fileName? with _ | name
  · simp
  · rw [Option.bind_some, Option.map_eq_some_iff]
    constructor
    · rintro ⟨suffix, hsuffix, rfl⟩
      obtain ⟨hdot, stem, hstem, hname⟩ := extensionOf?_eq_some_iff.1 hsuffix
      have htext : name = String.ofList stem ++ "." ++ String.ofList suffix := by
        rw [← String.toList_inj]
        simpa using hname
      exact ⟨by simpa using hdot, String.ofList stem, by simpa using hstem, congrArg some htext⟩
    · rintro ⟨hdot, stem, hstem, hname⟩
      cases hname
      have hstem : stem.toList ≠ [] := by simpa using hstem
      refine ⟨extension.toList, extensionOf?_eq_some_iff.2 ⟨hdot, stem.toList, hstem, ?_⟩, ?_⟩
      · simp
      · simp

/-- The path is called something before `.md` or `.markdown`. -/
def CalledDocument (p : Path) : Prop :=
  ∃ stem, stem ≠ "" ∧
    (p.fileName? = some (stem ++ ".md") ∨ p.fileName? = some (stem ++ ".markdown"))

theorem isDocument_iff : p.isDocument = true ↔ p.CalledDocument := by
  have hmd : p.extension? = some "md" ↔ ∃ stem, stem ≠ "" ∧ p.fileName? = some (stem ++ ".md") := by
    simp [extension?_eq_some_iff, String.append_assoc]
  have hmarkdown : p.extension? = some "markdown" ↔
      ∃ stem, stem ≠ "" ∧ p.fileName? = some (stem ++ ".markdown") := by
    simp [extension?_eq_some_iff, String.append_assoc]
  have hextension : p.isDocument = true ↔
      p.extension? = some "md" ∨ p.extension? = some "markdown" := by
    unfold isDocument
    rcases p.extension? with _ | extension <;> simp [documentExtensions]
  rw [hextension, hmd, hmarkdown, ← exists_or]
  simp only [CalledDocument, and_or_left]

end Path

/-! ### The order of documents -/

namespace Path

variable {ps qs : List Path}

theorem sort_perm (ps : List Path) : (sort ps).Perm ps :=
  List.mergeSort_perm _ _

theorem pairwise_sort (ps : List Path) : (sort ps).Pairwise fun a b => a.le b = true :=
  @List.pairwise_mergeSort Path le (fun _ _ _ => le_trans) (fun _ _ => le_total _ _) ps

/-- Different paths are sorted in strictly ascending order. -/
theorem pairwise_lt_sort (h : Distinct ps) : (sort ps).Pairwise fun a b => a.compare b = .lt := by
  have hdistinct : Distinct (sort ps) := ((sort_perm ps).pairwise_iff not_same_symm).2 h
  exact ((pairwise_sort ps).and hdistinct).imp fun hab => compare_eq_lt hab.1 hab.2

theorem eq_of_same (h : Distinct ps) {a b : Path} (ha : a ∈ ps) (hb : b ∈ ps)
    (hsame : a.same b = true) : a = b := by
  by_contra hne
  have hdiffer := @List.Pairwise.forall Path (fun a b => ¬ a.same b = true) ps
    ⟨fun _ _ => not_same_symm⟩ h
  exact hdiffer ha hb hne hsame

/-- The order in which different paths come does not matter. -/
theorem sort_eq_of_perm (h : Distinct ps) (hperm : ps.Perm qs) : sort ps = sort qs := by
  refine @List.Perm.eq_of_pairwise Path (fun a b => a.le b = true) _ _ ?_ ?_ ?_ ?_
  · intro a b ha hb hab hba
    have ha : a ∈ ps := (sort_perm ps).mem_iff.1 ha
    have hb : b ∈ ps := hperm.mem_iff.2 ((sort_perm qs).mem_iff.1 hb)
    exact eq_of_same h ha hb (same_of_le hab hba)
  · exact pairwise_sort ps
  · exact pairwise_sort qs
  · exact (sort_perm ps).trans (hperm.trans (sort_perm qs).symm)

end Path

/-! ### What is collected -/

theorem Path.pairwise_lt_collected {e : Entry} (he : e.Proper) (p : Path) :
    (e.collected p).Pairwise fun a b => a.compare b = .lt := by
  cases e with
  | other => exact List.Pairwise.nil
  | file text | directory es => exact pairwise_lt_sort (distinct_documents he)

variable {p q : Path} {name : String} {names : List String} {e f : Entry}
  {es fs : List (String × Entry)} {d d' : Disk}

theorem Path.descend_concat (p : Path) (names : List String) (name : String) :
    p.descend (names ++ [name]) = (p.descend names).join ⟨name⟩ := by
  rw [descend_append]
  rfl

/-- A property of all that is no directory, and of a directory if of all its entries. -/
theorem Entry.induct {motive : Entry → Prop} (leaf : ∀ e, e.isDirectory = false → motive e)
    (directory : ∀ es, (∀ m ∈ es, motive m.2) → motive (.directory es)) (e : Entry) : motive e :=
  @Entry.rec motive (fun es => ∀ m ∈ es, motive m.2) (fun m => motive m.2)
    (fun text => leaf (.file text) rfl) directory (leaf .other rfl) (List.forall_mem_nil _)
    (fun _ _ hm hes => List.forall_mem_cons.2 ⟨hm, hes⟩) (fun _ _ he => he) e

theorem Entry.documents_directory (p : Path) (es : List (String × Entry)) :
    (Entry.directory es).documents p = documentsOf p es :=
  rfl

theorem mem_documentsOf_iff :
    q ∈ documentsOf p es ↔ ∃ m ∈ es, q ∈ m.2.documents (p.join ⟨m.1⟩) := by
  induction es with
  | nil => simp [documentsOf]
  | cons m es ih =>
    obtain ⟨name, e⟩ := m
    simp [documentsOf, ih]

theorem Entry.mem_documents_of_not_directory (h : e.isDirectory = false) :
    q ∈ e.documents p ↔ q = p ∧ q.isDocument = true := by
  have hdocuments : e.documents p = if p.isDocument then [p] else [] := by
    cases e with
    | directory es => cases h
    | file _ | other => rfl
  rw [hdocuments]
  constructor
  · intro hq
    split at hq
    · rename_i hdocument
      cases List.mem_singleton.1 hq
      exact ⟨rfl, hdocument⟩
    · exact absurd hq List.not_mem_nil
  · rintro ⟨rfl, hdocument⟩
    rw [if_pos hdocument]
    exact List.mem_singleton_self _

namespace Disk

/-- A directory that is found at the path or below lists the other path, which is not found to be
that of a directory. -/
def ListedBelow (d : Disk) (p q : Path) : Prop :=
  ∃ names name es, (∀ other ∈ names, IsName other) ∧
    d.find (p.descend names) = .ok (.directory es) ∧ name ∈ es.map Prod.fst ∧
    q = (p.descend names).join ⟨name⟩ ∧ ∀ fs, d.find q ≠ .ok (.directory fs)

/-- What is listed below a directory is an entry of it or listed below one. -/
theorem listedBelow_iff (hp : d.find p = .ok (.directory es)) (hes : ProperEntries es) :
    d.ListedBelow p q ↔ ∃ m ∈ es, (q = p.join ⟨m.1⟩ ∧ ∀ fs, d.find q ≠ .ok (.directory fs)) ∨
      d.ListedBelow (p.join ⟨m.1⟩) q := by
  constructor
  · rintro ⟨_ | ⟨first, rest⟩, name, inner, hnames, hinner, hname, hq, hnot⟩
    · cases hp.symm.trans hinner
      obtain ⟨m, hm, rfl⟩ := List.mem_map.1 hname
      exact ⟨m, hm, .inl ⟨hq, hnot⟩⟩
    · obtain ⟨hfirst, hrest⟩ := List.forall_mem_cons.1 hnames
      obtain ⟨fs, hfs⟩ :=
        exists_find_of_descend (Path.text_join_ne_empty (text_ne_empty_of_find hp) hfirst) hrest
          hinner
      have hat := at?_of_find_join hp hfirst hfs
      obtain ⟨f, hf, -⟩ := Option.bind_eq_some_iff.1 hat
      exact ⟨(first, f), Entry.mem_of_named? hf, .inr
        ⟨rest, name, inner, hrest, hinner, hname, hq, hnot⟩⟩
  · rintro ⟨m, hm, ⟨hq, hnot⟩ | ⟨rest, name, inner, hrest, hinner, hname, hq, hnot⟩⟩
    · exact ⟨[], m.1, es, List.forall_mem_nil _, hp, List.mem_map_of_mem hm, hq, hnot⟩
    · have hfirst := ((properEntries_iff.1 hes).1 m hm).1
      exact ⟨m.1 :: rest, name, inner, List.forall_mem_cons.2 ⟨hfirst, hrest⟩, hinner, hname, hq,
        hnot⟩

theorem not_listedBelow (hp : p.text ≠ "") (h : ∀ es, d.find p ≠ .ok (.directory es)) :
    ¬ d.ListedBelow p q := by
  rintro ⟨names, name, es, hnames, hes, -⟩
  obtain ⟨fs, hfs⟩ := exists_find_of_descend hp hnames hes
  exact h fs hfs

/-- Nothing is listed below what is no directory. -/
theorem not_listedBelow_of_leaf (hp : d.find p = .ok e) (he : e.isDirectory = false) :
    ¬ d.ListedBelow p q :=
  not_listedBelow (text_ne_empty_of_find hp) fun es hes => by
    cases hp.symm.trans hes
    cases he

/-- What is found of an entry of a directory is the entry. -/
theorem eq_of_find_join (hp : d.find p = .ok (.directory es)) (hes : ProperEntries es)
    {m : String × Entry} (hm : m ∈ es) (hf : d.find (p.join ⟨m.1⟩) = .ok f) : f = m.2 := by
  obtain ⟨hall, hnodup⟩ := properEntries_iff.1 hes
  have hat := at?_of_find_join hp (hall m hm).1 hf
  obtain ⟨f', hf', hsame⟩ := Option.bind_eq_some_iff.1 hat
  cases hsame
  exact Option.some.inj (hf'.symm.trans ((Entry.named?_eq_some_iff hnodup).2 hm))

/-- What is collected at an entry of a directory, if `hinner` tells it of those that are found. -/
theorem mem_documents_seen (hp : d.find p = .ok (.directory es)) (hes : ProperEntries es)
    {m : String × Entry} (hm : m ∈ es)
    (hinner : d.find (p.join ⟨m.1⟩) = .ok m.2 →
      (q ∈ (d.view (p.join ⟨m.1⟩) m.2).documents (p.join ⟨m.1⟩) ↔ q.isDocument = true ∧
        ((q = p.join ⟨m.1⟩ ∧ m.2.isDirectory = false) ∨ d.ListedBelow (p.join ⟨m.1⟩) q))) :
    q ∈ (d.seen p m).documents (p.join ⟨m.1⟩) ↔ q.isDocument = true ∧
      ((q = p.join ⟨m.1⟩ ∧ ∀ fs, d.find q ≠ .ok (.directory fs)) ∨
        d.ListedBelow (p.join ⟨m.1⟩) q) := by
  have hname := ((properEntries_iff.1 hes).1 m hm).1
  rcases hfound : d.find (p.join ⟨m.1⟩) with error | f
  · -- nothing is known of it but its name, and nothing is found below
    have hseen : d.seen p m = .other := by
      unfold seen
      rw [hfound]
      rfl
    have hnot : ∀ fs, d.find (p.join ⟨m.1⟩) ≠ .ok (.directory fs) := by simp [hfound]
    have hbelow : ¬ d.ListedBelow (p.join ⟨m.1⟩) q :=
      not_listedBelow (Path.text_join_ne_empty (text_ne_empty_of_find hp) hname) hnot
    rw [hseen, Entry.mem_documents_of_not_directory rfl]
    constructor
    · rintro ⟨rfl, hdocument⟩
      exact ⟨hdocument, .inl ⟨rfl, hnot⟩⟩
    · rintro ⟨hdocument, ⟨hq, -⟩ | hlisted⟩
      · exact ⟨hq, hdocument⟩
      · exact absurd hlisted hbelow
  · cases eq_of_find_join hp hes hm hfound
    have hseen : d.seen p m = d.view (p.join ⟨m.1⟩) m.2 := by
      unfold seen
      rw [hfound]
      rfl
    have hkind : m.2.isDirectory = false ↔
        ∀ fs, d.find (p.join ⟨m.1⟩) ≠ .ok (.directory fs) := by
      rw [hfound]
      cases m.2 <;> simp [Entry.isDirectory]
    rw [hseen, hinner hfound, hkind]
    refine and_congr_right fun _ => or_congr_left (and_congr_right ?_)
    rintro rfl
    rfl

/-- What is collected at a path: what is there, if that is no directory, and what is listed
below. -/
theorem mem_documents_view (q : Path) (hp : d.find p = .ok e) (he : e.Proper) :
    q ∈ (d.view p e).documents p ↔ q.isDocument = true ∧
      ((q = p ∧ e.isDirectory = false) ∨ d.ListedBelow p q) := by
  induction e using Entry.induct generalizing p with
  | leaf e hleaf =>
    have hbelow : ¬ d.ListedBelow p q := not_listedBelow_of_leaf hp hleaf
    rw [view_of_not_directory hleaf, Entry.mem_documents_of_not_directory hleaf]
    simp [hleaf, hbelow, and_comm]
  | directory es ih =>
    unfold Entry.Proper at he
    have hentry : ∀ m ∈ es, (q ∈ (d.seen p m).documents (p.join ⟨m.1⟩) ↔ q.isDocument = true ∧
        ((q = p.join ⟨m.1⟩ ∧ ∀ fs, d.find q ≠ .ok (.directory fs)) ∨
          d.ListedBelow (p.join ⟨m.1⟩) q)) := fun m hm =>
      mem_documents_seen hp he hm fun hfound =>
        ih m hm hfound ((properEntries_iff.1 he).1 m hm).2
    rw [view, Entry.documents_directory, viewAll_eq_map, mem_documentsOf_iff, listedBelow_iff hp he]
    constructor
    · rintro ⟨seen, hseen, hq⟩
      obtain ⟨m, hm, rfl⟩ := List.mem_map.1 hseen
      obtain ⟨hdocument, hlisted⟩ := (hentry m hm).1 hq
      exact ⟨hdocument, .inr ⟨m, hm, hlisted⟩⟩
    · rintro ⟨hdocument, ⟨-, ⟨⟩⟩ | ⟨m, hm, hlisted⟩⟩
      exact ⟨_, List.mem_map_of_mem hm, (hentry m hm).2 ⟨hdocument, hlisted⟩⟩

theorem mem_collected_view (q : Path) (hp : d.find p = .ok e) (he : e.Proper) :
    q ∈ (d.view p e).collected p ↔ q.isDocument = true ∧
      ((q = p ∧ ∃ text, e = .file text) ∨ d.ListedBelow p q) := by
  have hview := mem_documents_view q hp he
  cases e with
  | other =>
    have hbelow : ¬ d.ListedBelow p q := not_listedBelow_of_leaf hp rfl
    rw [view_of_not_directory rfl, Entry.collected]
    simp [hbelow]
  | file text | directory es =>
    refine (Path.sort_perm _).mem_iff.trans (hview.trans ?_)
    simp [Entry.isDirectory]

theorem run_collectDocuments {σ : Type} (s : σ) (hp : d.find p = .ok e) :
    run (collectDocuments p) s d = ((d.view p e).collected p, s, d) := by
  have htree : reply (.tree p) d = (some (d.view p e), d) := by
    change ((d.find p).toOption.map (d.view p), d) = _
    rw [hp]
    rfl
  rw [run_eq]
  unfold collectDocuments
  simp only [Program.request, Bind.bind, Program.bind, FileSystem.run, htree]
  rfl

end Disk

/-! ### Other orders of entries -/

/-- The documents of entries in another order are the same in another order. -/
theorem Relisted.documentsOf_perm (h : Relisted es fs) (p : Path) :
    (documentsOf p es).Perm (documentsOf p fs) := by
  induction h generalizing p with
  | nil => exact .refl _
  | leaf _ _ ih => exact (ih p).append_left _
  | directory _ _ hinner ih => exact (hinner _).append (ih p)
  | swap m m' es => exact List.perm_append_comm_assoc _ _ _
  | trans _ _ ih ih' => exact (ih p).trans (ih' p)

/-- In whatever order the entries come, the same is collected. -/
theorem Entry.Relisted.collected_eq (h : e.Relisted f) (he : e.Proper) (p : Path) :
    e.collected p = f.collected p := by
  rcases h with - | hes
  · rfl
  · exact Path.sort_eq_of_perm (distinct_documents he) (hes.documentsOf_perm p)

/-! ### Trees of files -/

namespace Disk

/-- What is collected at a path are the files at the path or below that are called like
documents. -/
def CollectsFiles (d : Disk) (p : Path) : Prop :=
  ∀ e, d.find p = .ok e → ∀ q, q ∈ (run (collectDocuments p) () d).1 ↔
    q.CalledDocument ∧ ∃ names text, e.at? names = some (.file text) ∧ q = p.descend names

/-- Where everything is a file or a directory and is found, exactly the files are listed. -/
theorem listedBelow_iff_of_found (hp : d.find p = .ok (.directory es)) (hes : ProperEntries es)
    (hall : ∀ names f, Entry.at? (.directory es) names = some f →
      f ≠ .other ∧ (d.find (p.descend names)).toBool = true) :
    d.ListedBelow p q ↔
      ∃ names text, Entry.at? (.directory es) names = some (.file text) ∧ q = p.descend names := by
  have hproper : (Entry.directory es).Proper := hes
  have hfound : ∀ {names f}, Entry.at? (.directory es) names = some f →
      d.find (p.descend names) = .ok f := by
    intro names f hat
    rcases hfind : d.find (p.descend names) with error | f'
    · have htrue := (hall names f hat).2
      rw [hfind] at htrue
      cases htrue
    · cases hat.symm.trans (at?_of_find_descend hp (hproper.of_at? hat).1 hfind)
      rfl
  constructor
  · rintro ⟨names, name, inner, hnames, hinner, hname, rfl, hnot⟩
    have hat := at?_of_find_descend hp hnames hinner
    obtain ⟨⟨name, f⟩, hm, rfl⟩ := List.mem_map.1 hname
    have hinnerProper : ProperEntries inner := (hproper.of_at? hat).2
    have hf : Entry.at? (.directory es) (names ++ [name]) = some f := by
      rw [Entry.at?_append, hat, Option.bind_some, Entry.at?,
        (Entry.named?_eq_some_iff (properEntries_iff.1 hinnerProper).2).2 hm]
      rfl
    have hfind := hfound hf
    rw [Path.descend_concat] at hfind
    rcases f with text | fs | -
    · exact ⟨_, text, hf, (Path.descend_concat p names name).symm⟩
    · exact absurd hfind (hnot fs)
    · exact absurd rfl (hall _ _ hf).1
  · rintro ⟨names, text, hat, rfl⟩
    obtain rfl | ⟨front, name, rfl⟩ := List.eq_nil_or_concat names
    · cases hat
    · rw [List.concat_eq_append] at hat ⊢
      have hnames := (hproper.of_at? hat).1
      have hfind := hfound hat
      rw [Entry.at?_append] at hat
      obtain ⟨f, hf, hname⟩ := Option.bind_eq_some_iff.1 hat
      obtain ⟨inner, rfl⟩ := Entry.exists_directory_of_at?_cons hname
      obtain ⟨file, hfile, -⟩ := Option.bind_eq_some_iff.1 hname
      refine ⟨front, name, inner, fun other hother => hnames other (List.mem_append_left _ hother),
        hfound hf, List.mem_map_of_mem (Entry.mem_of_named? hfile), Path.descend_concat _ _ _, ?_⟩
      intro fs hfs
      cases hfind.symm.trans hfs

theorem collectsFiles_of_found (hd : d.top.Proper) (hp : d.find p = .ok e)
    (hall : ∀ names f, e.at? names = some f →
      f ≠ .other ∧ (d.find (p.descend names)).toBool = true) : d.CollectsFiles p := by
  intro e' hp' q
  cases hp.symm.trans hp'
  have he : e.Proper := proper_of_find hd hp
  rw [run_collectDocuments () hp, mem_collected_view q hp he, Path.isDocument_iff]
  refine and_congr_right fun _ => ?_
  rcases e with text | es | -
  · have hbelow : ¬ d.ListedBelow p q := not_listedBelow_of_leaf hp rfl
    constructor
    · rintro (⟨rfl, text, htext⟩ | hlisted)
      · exact ⟨[], text, congrArg some htext, rfl⟩
      · exact absurd hlisted hbelow
    · rintro ⟨_ | ⟨name, names⟩, text, hat, rfl⟩
      · exact .inl ⟨rfl, text, Option.some.inj hat⟩
      · cases hat
  · simp [listedBelow_iff_of_found hp he hall]
  · exact absurd rfl (hall [] .other rfl).1

/-- For every path of a disk, its documents are collected: what is called something before `.md` or
`.markdown` and is the file at the path, or is listed below and not found to be a directory.  Where
everything is a file or a directory and is found, these are exactly the files.  They come in strictly
ascending order, and in the same order however the directories of the disk tell their entries. -/
theorem documents_collected (hd : d.top.Proper) (hp : d.find p = .ok e) :
    ∃ documents : List Path,
      (∀ (σ : Type) (s : σ), run (collectDocuments p) s d = (documents, s, d)) ∧
      documents.Pairwise (fun a b => a.compare b = .lt) ∧
      (∀ q, q ∈ documents ↔ q.CalledDocument ∧
        ((q = p ∧ ∃ text, d.find p = .ok (.file text)) ∨ d.ListedBelow p q)) ∧
      ((∀ names f, e.at? names = some f →
        f ≠ .other ∧ (d.find (p.descend names)).toBool = true) → d.CollectsFiles p) ∧
      ∀ d' : Disk, d.Relisted d' →
        ∀ (σ : Type) (s : σ), run (collectDocuments p) s d' = (documents, s, d') := by
  have he : e.Proper := proper_of_find hd hp
  have hview : (d.view p e).Proper := proper_view d p he
  refine ⟨(d.view p e).collected p, fun σ s => run_collectDocuments s hp, ?_, fun q => ?_,
    collectsFiles_of_found hd hp, fun d' h σ s => ?_⟩
  · exact Path.pairwise_lt_collected hview p
  · rw [mem_collected_view q hp he, Path.isDocument_iff, hp]
    simp
  · obtain ⟨e', hp', hrelisted⟩ := h.exists_find hd hp
    rw [run_collectDocuments s hp', (h.view hd hrelisted p).collected_eq hview p]

/-- Notes with a hidden file, a directory that is called like a document, and a pipe that is. -/
def notes (inner : List (String × Entry)) : Disk :=
  ⟨.directory [("notes", .directory inner)], []⟩

/-- Of the notes the files are collected that are called like documents, and the pipe, in one order;
where there is no pipe, the files alone. -/
theorem notes_collected :
    let a : String × Entry := ("a.md", .file (some "# A\n"))
    let c : String × Entry := ("c.markdown", .file none)
    let t : String × Entry := ("t.txt", .file (some ""))
    let hidden : String × Entry := (".md", .file (some ""))
    let pipe : String × Entry := ("p.md", .other)
    run (collectDocuments ⟨"notes/."⟩) () (notes [pipe, ("b.md", .directory [t, c]), a, hidden]) =
        ([⟨"notes/./a.md"⟩, ⟨"notes/./b.md/c.markdown"⟩, ⟨"notes/./p.md"⟩], (),
          notes [pipe, ("b.md", .directory [t, c]), a, hidden]) ∧
      (notes [a, ("b.md", .directory [c, t]), hidden, pipe]).CollectsFiles ⟨"notes/b.md"⟩ := by
  intro a c t hidden pipe
  have hproper : (notes [a, ("b.md", .directory [c, t]), hidden, pipe]).top.Proper := by
    simp [a, c, t, hidden, pipe, notes, Entry.Proper, ProperEntries, IsName]
  constructor
  · have hfind : (notes [a, ("b.md", .directory [c, t]), hidden, pipe]).find ⟨"notes/."⟩ =
        .ok (.directory [a, ("b.md", .directory [c, t]), hidden, pipe]) := by rfl
    have hrelisted : (notes [a, ("b.md", .directory [c, t]), hidden, pipe]).Relisted
        (notes [pipe, ("b.md", .directory [t, c]), a, hidden]) := by
      refine ⟨rfl, .directory (.directory ?_ .nil)⟩
      -- the pipe goes to the front, past the hidden file, the directory and the note
      refine .trans (.leaf rfl (.directory (.swap _ _ _) (.swap _ _ _))) ?_
      refine .trans (.leaf rfl (.swap _ _ _)) ?_
      refine .trans (.swap _ _ _) (.leaf rfl ?_)
      exact .swap _ _ _
    obtain ⟨documents, hrun, -, -, -, horder⟩ := documents_collected hproper hfind
    have hdocuments : documents =
        [⟨"notes/./a.md"⟩, ⟨"notes/./b.md/c.markdown"⟩, ⟨"notes/./p.md"⟩] := by
      have hall : ((notes [a, ("b.md", .directory [c, t]), hidden, pipe]).view ⟨"notes/."⟩
          (.directory [a, ("b.md", .directory [c, t]), hidden, pipe])).documents ⟨"notes/."⟩ =
          [⟨"notes/./a.md"⟩, ⟨"notes/./b.md/c.markdown"⟩, ⟨"notes/./p.md"⟩] := by decide +kernel
      have hsorted := (Prod.mk.inj ((run_collectDocuments () hfind).symm.trans (hrun Unit ()))).1
      change Path.sort (Entry.documents _ _) = _ at hsorted
      rw [hall] at hsorted
      rw [← hsorted]
      exact List.mergeSort_of_pairwise (by decide +kernel)
    rw [horder _ hrelisted Unit (), hdocuments]
  · have hfind : (notes [a, ("b.md", .directory [c, t]), hidden, pipe]).find ⟨"notes/b.md"⟩ =
        .ok (.directory [c, t]) := by rfl
    obtain ⟨-, -, -, -, hfiles, -⟩ := documents_collected hproper hfind
    refine hfiles fun names f hat => ?_
    rcases names with _ | ⟨first, rest⟩
    · cases hat
      exact ⟨by simp, by rfl⟩
    · obtain ⟨inner, hinner, hrest⟩ := Option.bind_eq_some_iff.1 hat
      have hentry := Entry.mem_of_named? hinner
      simp only [c, t, List.mem_cons, Prod.mk.injEq, List.not_mem_nil, or_false] at hentry
      obtain ⟨rfl, rfl⟩ | ⟨rfl, rfl⟩ := hentry
      all_goals
        rcases rest with _ | ⟨second, rest⟩
        · cases hrest
          exact ⟨by simp, by rfl⟩
        · cases hrest

/-! ### What is collected and is no file -/

/-- Pipes that are called like documents. -/
def pipes : Disk :=
  ⟨.directory [("pipes", .directory [("x.md", .other)])], []⟩

/-- A directory that is called like a document, with a note. -/
def deep : Disk :=
  ⟨.directory [("docs", .directory [("notes.md", .directory [("a.md", .file (some "# A\n"))])])], []⟩

/-- A path that goes on the spot for some time. -/
def dotted : Nat → Path
  | 0 => ⟨"docs"⟩
  | n + 1 => ⟨"./" ++ (dotted n).text⟩

theorem steps_dotted (n : Nat) : (dotted n).steps = ["docs"] := by
  induction n with
  | zero => decide +kernel
  | succ n ih =>
    have htext : (dotted (n + 1)).text.toList = '.' :: '/' :: (dotted n).text.toList := by
      simp [dotted]
    rw [Path.steps_eq] at ih ⊢
    rw [htext, show '.' :: '/' :: (dotted n).text.toList =
      ['.'] ++ '/' :: (dotted n).text.toList from rfl, splitAt_append]
    simpa [splitAt] using ih

theorem utf8ByteSize_dotted (n : Nat) : (dotted n).text.utf8ByteSize = 2 * n + 4 := by
  induction n with
  | zero => rfl
  | succ n ih =>
    rw [dotted, String.utf8ByteSize_append, ih]
    change 2 + _ = _
    omega

theorem flaw?_dotted {n : Nat} (h : 2 * n + 4 ≤ pathLimit) : (dotted n).flaw? = none := by
  have hnul : '\x00' ∉ (dotted n).text.toList := by
    clear h
    induction n with
    | zero => decide +kernel
    | succ n ih => simpa [dotted] using ih
  have hsize := utf8ByteSize_dotted n
  have hempty : (dotted n).text ≠ "" := by
    intro htext
    rw [htext, String.utf8ByteSize_empty] at hsize
    omega
  unfold Path.flaw?
  rw [if_neg (by simpa using hnul), if_neg (by simpa using hempty), if_neg (by omega)]

theorem find_dotted {n : Nat} (h : 2 * n + 4 ≤ pathLimit) : deep.find (dotted n) =
    .ok (.directory [("notes.md", .directory [("a.md", .file (some "# A\n"))])]) := by
  have hrelative : (dotted n).isAbsolute = false := by
    cases n with
    | zero => rfl
    | succ n => simp [Path.isAbsolute, dotted]
  refine find_eq_ok_iff.2 ⟨["docs"], ?_, rfl, fun _ => rfl⟩
  rw [locate_eq (flaw?_dotted h), steps_dotted, origin, hrelative]
  rfl

/-- A path that is too long for the system leads to nothing. -/
theorem find_of_long (h : pathLimit < p.text.utf8ByteSize) : (d.find p).toBool = false := by
  rcases hfind : d.find p with error | e
  · rfl
  · obtain ⟨found, hfound, -⟩ := find_eq_ok_iff.1 hfind
    have hflaw := flaw?_of_locate hfound
    unfold Path.flaw? at hflaw
    rw [if_pos h] at hflaw
    repeat' split at hflaw
    all_goals cases hflaw

/-- A pipe that is called like a document is collected.  So is a directory that is too far away to be
seen as one, and the note in it is not. -/
theorem others_collected :
    ¬ pipes.CollectsFiles ⟨"pipes"⟩ ∧ ¬ deep.CollectsFiles (dotted 2043) := by
  constructor
  · intro h
    have hfind : pipes.find ⟨"pipes"⟩ = .ok (.directory [("x.md", .other)]) := by rfl
    have hmem : (⟨"pipes/x.md"⟩ : Path) ∈ (run (collectDocuments ⟨"pipes"⟩) () pipes).1 := by
      rw [run_collectDocuments () hfind]
      refine (Path.sort_perm _).mem_iff.2 ?_
      decide +kernel
    obtain ⟨-, names, text, hat, -⟩ := (h _ hfind _).1 hmem
    rcases names with _ | ⟨first, rest⟩
    · cases hat
    · obtain ⟨inner, hinner, hrest⟩ := Option.bind_eq_some_iff.1 hat
      have hentry := Entry.mem_of_named? hinner
      simp only [List.mem_singleton, Prod.mk.injEq] at hentry
      obtain ⟨-, rfl⟩ := hentry
      cases rest <;> cases hrest
  · intro h
    have hfind := find_dotted (n := 2043) (by decide)
    have hnote : (dotted 2043).descend ["notes.md", "a.md"] ∈
        (run (collectDocuments (dotted 2043)) () deep).1 := by
      refine (h _ hfind _).2 ⟨⟨"a", by decide, .inl ?_⟩, _, _, rfl, rfl⟩
      rw [Path.fileName?, Path.descend, List.foldl_cons, List.foldl_cons, List.foldl_nil,
        components_join_name (by simp [IsName]), List.getLast?_concat]
      rfl
    have hlong : (deep.find ((dotted 2043).join ⟨"notes.md"⟩)).toBool = false := by
      have hrelative : Path.isAbsolute ⟨"notes.md"⟩ = false := rfl
      obtain ⟨slash, htext⟩ := Path.exists_text_join (dotted 2043) hrelative
      refine find_of_long ?_
      have hname : "notes.md".utf8ByteSize = 8 := rfl
      rw [htext, String.utf8ByteSize_append, String.utf8ByteSize_append, utf8ByteSize_dotted, hname,
        pathLimit]
      omega
    rw [run_collectDocuments () hfind, view, viewAll, hlong] at hnote
    obtain ⟨m, hm, hseen⟩ := mem_documentsOf_iff.1 ((Path.sort_perm _).mem_iff.1 hnote)
    cases List.mem_singleton.1 hm
    obtain ⟨heq, -⟩ := (Entry.mem_documents_of_not_directory rfl).1 hseen
    have hsteps := congrArg Path.steps heq
    rw [Path.steps_descend (by simp [IsName]), Path.steps_join rfl] at hsteps
    exact absurd (congrArg List.length hsteps) (by simp [Path.steps_eq, splitAt])

end Disk

end DocSchema
