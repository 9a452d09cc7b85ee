/-
  DocSchema/Proofs/Report.lean
  ============================
  **A report, the board and the exit code tell the same.**

  The documents of a tree of files are collected under different paths (`distinct_documents`), so
  that a sweep leaves on the board what it found of each of them.  A report is made from the same
  results by other code: the statuses are counted, the errors are listed, and the exit codes are
  compared.  For every tree the two agree, document by document and in sum (`check_agrees`).
-/
import DocSchema.Proofs.Disk.Listing
import DocSchema.Proofs.Workspace.Sweep
import DocSchema.Report

namespace DocSchema

open DocSchema.Json DocSchema.Program DocSchema.Schema DocSchema.Workspace

variable {host : (q : Request) → q.Reply} {p q : Path} {name : String} {e : Entry}
  {es : List (String × Entry)}

/-! ### Trees of files -/

theorem components_join_name (h : IsName name) (p : Path) :
    (p.join ⟨name⟩).components = p.components ++ [.normal name] := by
  obtain ⟨hempty, hself, hparent, hslash⟩ := h
  have hlist : ∀ s : String, name ≠ s → name.toList ≠ s.toList := fun s hne heq =>
    hne (String.toList_inj.1 heq)
  have hhead : name.toList.head? ≠ some '/' := fun hhead =>
    hslash (List.mem_of_head? hhead)
  have hpiece : pieceComponent? name.toList = some (.normal name) := by
    have hnil : name.toList ≠ [] := hlist "" hempty
    have hdot : name.toList ≠ ['.'] := hlist "." hself
    have hdots : name.toList ≠ ['.', '.'] := hlist ".." hparent
    simp [pieceComponent?, hnil, hdot, hdots]
  have hbelow : Path.below ⟨name⟩ = [.normal name] := by
    simp [Path.below, Path.partsOf, Text.splitAt_of_not_mem hslash, hpiece]
  have hcomponents : (⟨name⟩ : Path).components = [.normal name] := by
    have hlead : Path.leadOf name.toList = [] := by
      have hdot : name.toList ≠ ['.'] := hlist "." hself
      simp [Path.leadOf, Text.splitAt_of_not_mem hslash, hhead, hdot]
    change Path.componentsOf name.toList = _
    rw [Path.componentsOf_eq, hlead]
    exact hbelow
  rw [Path.components_join (by simpa [Path.isAbsolute] using hhead), hcomponents, hbelow]
  split
  · rename_i htext
    rw [Path.components_of_isEmpty htext]
    rfl
  · rfl

/-- What is found at a path lies below it. -/
def Below (base : List Component) (q : Path) : Prop :=
  base <+: q.components

mutual

theorem below_of_mem_documents {p : Path} {e : Entry} (he : e.Proper) {q : Path}
    (hq : q ∈ e.documents p) : Below p.components q := by
  cases e with
  | file _ | other =>
    unfold Entry.documents at hq
    split at hq
    · rw [List.mem_singleton.1 hq]
      exact List.prefix_refl _
    · cases hq
  | directory es =>
    unfold Entry.documents at hq
    unfold Entry.Proper at he
    obtain ⟨f, -, hbelow⟩ := below_of_mem_documentsOf he hq
    exact (List.prefix_append _ _).trans hbelow

theorem below_of_mem_documentsOf {p : Path} {es : List (String × Entry)} (hes : ProperEntries es)
    {q : Path} (hq : q ∈ documentsOf p es) :
    ∃ f ∈ es, Below (p.components ++ [.normal f.1]) q := by
  cases es with
  | nil => cases hq
  | cons f es =>
    obtain ⟨name, e⟩ := f
    obtain ⟨⟨hname, he, -⟩, hrest⟩ := hes
    rcases List.mem_append.1 hq with hq | hq
    · refine ⟨(name, e), List.mem_cons_self, ?_⟩
      rw [← components_join_name hname]
      exact below_of_mem_documents he hq
    · obtain ⟨f, hf, hbelow⟩ := below_of_mem_documentsOf hrest hq
      exact ⟨f, List.mem_cons_of_mem _ hf, hbelow⟩

end

theorem not_same_of_below {base : List Component} {a b : Component} {q' : Path} (hab : a ≠ b)
    (hq : Below (base ++ [a]) q) (hq' : Below (base ++ [b]) q') : ¬ q.same q' = true := by
  intro hsame
  obtain ⟨rest, hrest⟩ := hq
  obtain ⟨rest', hrest'⟩ := hq'
  have heq := hrest.trans ((Path.same_iff.1 hsame).trans hrest'.symm)
  simp only [List.append_assoc, List.cons_append, List.nil_append] at heq
  exact hab (List.cons.inj (List.append_cancel_left heq)).1

mutual

theorem distinct_documents {p : Path} {e : Entry} (he : e.Proper) : Distinct (e.documents p) := by
  cases e with
  | file _ | other =>
    unfold Entry.documents
    split
    · exact List.pairwise_singleton _ _
    · exact List.Pairwise.nil
  | directory es =>
    unfold Entry.documents
    unfold Entry.Proper at he
    exact distinct_documentsOf he

theorem distinct_documentsOf {p : Path} {es : List (String × Entry)} (hes : ProperEntries es) :
    Distinct (documentsOf p es) := by
  cases es with
  | nil => exact List.Pairwise.nil
  | cons f es =>
    obtain ⟨name, e⟩ := f
    obtain ⟨⟨hname, he, hothers⟩, hrest⟩ := hes
    refine List.pairwise_append.2 ⟨distinct_documents he, distinct_documentsOf hrest, ?_⟩
    -- the two lie below different names
    intro q hq q' hq'
    have hbelow := below_of_mem_documents he hq
    rw [components_join_name hname] at hbelow
    obtain ⟨f, hf, hbelow'⟩ := below_of_mem_documentsOf hrest hq'
    refine not_same_of_below (fun heq => ?_) hbelow hbelow'
    exact hothers f hf (Component.normal.inj heq)

end

theorem distinct_collected (he : e.Proper) (p : Path) : Distinct (e.collected p) := by
  have hsorted : Distinct (Path.sort (e.documents p)) :=
    ((List.mergeSort_perm _ _).pairwise_iff Path.not_same_symm).2 (distinct_documents he)
  cases e with
  | file _ | directory _ => exact hsorted
  | other => exact List.Pairwise.nil

/-- The documents that are checked at a path. -/
def documentsAt (host : (q : Request) → q.Reply) (p : Path) : List Path :=
  match host (.tree p) with
  | none => []
  | some e => e.collected p

theorem distinct_documentsAt (h : ∀ e, host (.tree p) = some e → e.Proper) :
    Distinct (documentsAt host p) := by
  unfold documentsAt
  cases htree : host (.tree p) with
  | none => exact List.Pairwise.nil
  | some e => exact distinct_collected (h e htree) p

theorem alone_check [Retrieval] (p : Path) (w : Workspace) : (check p).alone host w =
    let run := (sweep (documentsAt host p)).alone host w
    (⟨p, (documentsAt host p).length, run.1.map fun e => .ofResult e.1 e.2⟩, run.2) := by
  have hcollect : (collectDocuments p : Program Workspace (List Path)).alone host w =
      (documentsAt host p, w) := by
    unfold documentsAt
    simp only [collectDocuments, Program.request, Bind.bind, Pure.pure, Program.bind, alone]
    cases host (.tree p) with
    | none => rfl
    | some e => rfl
  simp only [check, Bind.bind, Pure.pure, alone_bind, hcollect]
  rfl

/-! ### What a document comes to -/

section Result

variable {s : Store} {d : Path} {n : Nat} {x : RunResult}

theorem validateLocated_eq_error_iff [Retrieval] {tree : Node} {v : Value} {e : SchemaError} :
    validateLocated d tree v = .error e ↔ Validator.compile v = .error e := by
  unfold validateLocated validate validateInstance
  cases Validator.compile v <;> simp [Except.map]

/-- The header of a document names a schema that does not compile. -/
def NamesRefused [Retrieval] (host : (q : Request) → q.Reply) (s : Store) (d : Path) : Prop :=
  ∃ schema v e, namedSchema? host s.root d = some schema ∧ s.known? host schema = some v ∧
    Validator.compile v = .error e

theorem resultOf_eq_documentRead_iff [Retrieval] :
    (∃ d' e, resultOf host s d n = .error (.documentRead d' e)) ↔
    ∃ e, host (.readText d) = .error e := by
  obtain ⟨e, htext, hresult⟩ | ⟨text, htext, ⟨-, hresult⟩ | ⟨schema, v, -, -, hresult⟩⟩ :=
    resultOf_cases host s d n
  · exact iff_of_true ⟨d, e, hresult⟩ ⟨e, htext⟩
  · simp [hresult, htext]
  · unfold answer at hresult
    cases hvalidate : validateLocated d (Document.parse text).root v with
    | error e => simp [hresult, htext, hvalidate]
    | ok errors => simp [hresult, htext, hvalidate]

theorem resultOf_eq_invalidSchema_iff [Retrieval] :
    (∃ schema e, resultOf host s d n = .error (.invalidSchema schema e)) ↔
      NamesRefused host s d := by
  obtain ⟨e, htext, hresult⟩ | ⟨text, htext, ⟨hunknown, hresult⟩ |
    ⟨schema, v, hnamed, hknown, hresult⟩⟩ := resultOf_cases host s d n
  · refine iff_of_false (by simp [hresult]) ?_
    rintro ⟨schema, v, -, hnamed, -⟩
    obtain ⟨text, htext'⟩ := readable_of_namedSchema? hnamed
    cases htext.symm.trans htext'
  · refine iff_of_false (by simp [hresult]) ?_
    rintro ⟨schema, v, -, hnamed, hknown, -⟩
    cases (hunknown schema hnamed).symm.trans hknown
  · unfold answer at hresult
    constructor
    · rintro ⟨_, e, herror⟩
      rw [herror] at hresult
      split at hresult
      · rename_i hvalidate
        exact ⟨schema, v, _, hnamed, hknown, validateLocated_eq_error_iff.1 hvalidate⟩
      · cases hresult
    · rintro ⟨schema', v', e, hnamed', hknown', hcompile⟩
      cases hnamed.symm.trans hnamed'
      cases hknown.symm.trans hknown'
      rw [validateLocated_eq_error_iff.2 hcompile] at hresult
      exact ⟨_, _, hresult⟩

/-! ### The report of a document -/

/-- A report and the board tell the same of a document. -/
structure FileReport.Agrees (f : FileReport) (b : Board) : Prop where
  outcome : f.status = .valid ∨ f.status = .invalid ↔ ∃ o, b.outcome? f.file = some o
  errors : ∀ o, b.outcome? f.file = some o → f.schema = some o.schema ∧
    f.errors = o.errors.map ErrorReport.ofError ∧ (f.status = .valid ↔ o.errors = [])
  error : f.status = .error ↔ ∃ message, b.failure? f.file = some message
  failure : f.failure = b.failure? f.file
  skipped : f.status = .skipped ↔ b.outcome? f.file = none ∧ b.failure? f.file = none

theorem agrees_ofResult {b : Board} (h : b.slots.get? d = some ⟨n, x.verdict⟩) :
    (FileReport.ofResult d x).Agrees b := by
  have houtcome : b.outcome? d = Board.outcomeOf? ⟨n, x.verdict⟩ := by
    rw [Board.outcome?, h, Option.bind_some]
  rcases x with e | (- | o)
  · have hfailure : b.failure? d = some e.message := by
      rw [Board.failure?, h]
      rfl
    rw [RunResult.verdict, Board.outcomeOf?] at houtcome
    constructor <;> simp [FileReport.ofResult, houtcome, hfailure]
  · have hfailure : b.failure? d = none := by
      rw [Board.failure?, h]
      rfl
    rw [RunResult.verdict, Board.outcomeOf?] at houtcome
    constructor <;> simp [FileReport.ofResult, houtcome, hfailure]
  · have hfailure : b.failure? d = none := by
      rw [Board.failure?, h]
      rfl
    rw [RunResult.verdict, Board.outcomeOf?] at houtcome
    by_cases hvalid : o.isValid = true
    · have hnil : o.errors = [] := List.isEmpty_iff.1 hvalid
      constructor <;> simp [FileReport.ofResult, hvalid, houtcome, hfailure, hnil]
    · have hcons : o.errors ≠ [] := fun hnil => hvalid (List.isEmpty_iff.2 hnil)
      constructor <;> simp [FileReport.ofResult, hvalid, houtcome, hfailure, hcons]

theorem file_ofResult (d : Path) (x : RunResult) : (FileReport.ofResult d x).file = d := by
  rcases x with e | (- | o)
  · rfl
  · rfl
  · by_cases hvalid : o.isValid = true <;> simp [FileReport.ofResult, hvalid]

theorem errors_ofResult (d : Path) (x : RunResult) :
    (FileReport.ofResult d x).errors.length = x.errorCount := by
  rcases x with e | (- | o)
  · rfl
  · rfl
  · by_cases hvalid : o.isValid = true <;> simp [FileReport.ofResult, hvalid, RunResult.errorCount]

/-- The exit code of a document, by what has become of it. -/
theorem exitCode_cases (d : Path) (x : RunResult) :
    let f := FileReport.ofResult d x
    (∃ d' e, x = .error (.documentRead d' e) ∧ f.status = .error ∧ f.exitCode = 3) ∨
    (∃ schema e, x = .error (.invalidSchema schema e) ∧ f.status = .error ∧ f.exitCode = 2) ∨
    (∃ o, x = .ok o ∧ f.status = .invalid ∧ f.exitCode = 1) ∨
    ∃ o, x = .ok o ∧ f.status ≠ .invalid ∧ f.status ≠ .error ∧ f.exitCode = 0 := by
  rcases x with (⟨schema, e⟩ | ⟨d', e⟩) | (- | o)
  · exact .inr (.inl ⟨schema, e, rfl, rfl, rfl⟩)
  · exact .inl ⟨d', e, rfl, rfl, rfl⟩
  · exact .inr (.inr (.inr ⟨none, rfl, by simp [FileReport.ofResult]⟩))
  · by_cases hvalid : o.isValid = true
    · exact .inr (.inr (.inr ⟨some o, rfl, by simp [FileReport.ofResult, hvalid]⟩))
    · exact .inr (.inr (.inl ⟨some o, rfl, by simp [FileReport.ofResult, hvalid]⟩))

theorem exitCode_le_three (d : Path) (x : RunResult) :
    (FileReport.ofResult d x).exitCode ≤ 3 := by
  obtain ⟨-, -, -, -, hcode⟩ | ⟨-, -, -, -, hcode⟩ | ⟨-, -, -, hcode⟩ | ⟨-, -, -, -, hcode⟩ :=
    exitCode_cases d x
  all_goals simp [hcode]

theorem three_le_exitCode_iff :
    3 ≤ (FileReport.ofResult d x).exitCode ↔ ∃ d' e, x = .error (.documentRead d' e) := by
  obtain ⟨_, _, rfl, -, hcode⟩ | ⟨_, _, rfl, -, hcode⟩ | ⟨_, rfl, -, hcode⟩ |
    ⟨_, rfl, -, -, hcode⟩ := exitCode_cases d x
  all_goals simp [hcode]

theorem two_le_exitCode_iff : 2 ≤ (FileReport.ofResult d x).exitCode ↔
    3 ≤ (FileReport.ofResult d x).exitCode ∨ ∃ schema e, x = .error (.invalidSchema schema e) := by
  obtain ⟨_, _, rfl, -, hcode⟩ | ⟨_, _, rfl, -, hcode⟩ | ⟨_, rfl, -, hcode⟩ |
    ⟨_, rfl, -, -, hcode⟩ := exitCode_cases d x
  all_goals simp [hcode]

theorem one_le_exitCode_iff : 1 ≤ (FileReport.ofResult d x).exitCode ↔
    (FileReport.ofResult d x).status = .invalid ∨ (FileReport.ofResult d x).status = .error := by
  obtain ⟨-, -, -, hstatus, hcode⟩ | ⟨-, -, -, hstatus, hcode⟩ | ⟨-, -, hstatus, hcode⟩ |
    ⟨-, -, hvalid, hread, hcode⟩ := exitCode_cases d x
  · simp [hcode, hstatus]
  · simp [hcode, hstatus]
  · simp [hcode, hstatus]
  · simp [hcode, hvalid, hread]

theorem error_iff_two_le_exitCode : (FileReport.ofResult d x).status = .error ↔
    2 ≤ (FileReport.ofResult d x).exitCode := by
  obtain ⟨-, -, -, hstatus, hcode⟩ | ⟨-, -, -, hstatus, hcode⟩ | ⟨-, -, hstatus, hcode⟩ |
    ⟨-, -, -, hstatus, hcode⟩ := exitCode_cases d x
  all_goals simp [hcode, hstatus]

end Result

namespace CheckReport

variable {r : CheckReport} {k : Nat}

theorem le_foldl_exitCode (fs : List FileReport) (c : Nat) :
    k ≤ fs.foldl (fun code f => max code f.exitCode) c ↔
      k ≤ c ∨ ∃ f ∈ fs, k ≤ f.exitCode := by
  induction fs generalizing c with
  | nil => simp
  | cons f fs ih =>
    have hmax : k ≤ max c f.exitCode ↔ k ≤ c ∨ k ≤ f.exitCode := by omega
    simp [ih, hmax, or_assoc]

/-- The exit code of a report is the highest of its documents. -/
theorem le_exitCode_iff (hk : 0 < k) : k ≤ r.exitCode ↔ ∃ f ∈ r.results, k ≤ f.exitCode := by
  unfold exitCode
  rw [le_foldl_exitCode]
  simp [Nat.not_le.2 hk]

/-- Every document has one status. -/
theorem counts (r : CheckReport) : r.passed + r.failed + r.skipped = r.results.length := by
  unfold passed failed skipped count
  induction r.results with
  | nil => rfl
  | cons f fs ih =>
    simp only [List.countP_cons, List.length_cons]
    cases f.status <;> simp <;> omega

theorem errors_eq_sum (r : CheckReport) :
    r.errors = (r.results.map fun f => f.errors.length).sum := by
  rw [List.sum_eq_foldr, List.foldr_map]
  rfl

theorem isOk_iff : r.isOk = true ↔
    ∀ f ∈ r.results, f.status ≠ .invalid ∧ f.status ≠ .error := by
  simp only [isOk, failed, count, beq_iff_eq, Nat.add_eq_zero_iff, List.countP_eq_zero]
  rw [← forall₂_and]

end CheckReport

/-! ### The report of a sweep -/

section Sweep

variable {w : Workspace} {ds : List Path} {d : Path} {r : CheckReport} {f : FileReport}

/-- When the turn of a document comes, its header names a schema that does not compile. -/
def RefusedIn [Retrieval] (host : (q : Request) → q.Reply) (w : Workspace) (ds : List Path)
    (d : Path) : Prop :=
  ∃ before after, ds = before ++ d :: after ∧
    NamesRefused host ((sweep before).alone host w).2.store d

/-- The report is made from what a sweep has found. -/
def Reports [Retrieval] (host : (q : Request) → q.Reply) (w : Workspace) (ds : List Path)
    (r : CheckReport) : Prop :=
  r.results = ((sweep ds).alone host w).1.map fun e => .ofResult e.1 e.2

namespace Reports

theorem exists_result [Retrieval] (h : Reports host w ds r) (hf : f ∈ r.results) :
    ∃ before d after, ds = before ++ d :: after ∧
      let w' := ((sweep before).alone host w).2
      f = .ofResult d (resultOf host w'.store d (w'.runs + 1)) := by
  rw [h] at hf
  obtain ⟨⟨d, x⟩, hx, rfl⟩ := List.mem_map.1 hf
  obtain ⟨before, after, hds, rfl⟩ := mem_sweep_iff.1 hx
  exact ⟨before, d, after, hds, rfl⟩

theorem mem_results [Retrieval] (h : Reports host w ds r) {before after : List Path}
    (hds : ds = before ++ d :: after) :
    let w' := ((sweep before).alone host w).2
    FileReport.ofResult d (resultOf host w'.store d (w'.runs + 1)) ∈ r.results := by
  rw [h]
  exact List.mem_map_of_mem (f := fun e : Path × RunResult => FileReport.ofResult e.1 e.2)
    (mem_sweep_iff.2 ⟨before, after, hds, rfl⟩)

theorem exitCode_le_three [Retrieval] (h : Reports host w ds r) : r.exitCode ≤ 3 := by
  by_contra hle
  obtain ⟨f, hf, hcode⟩ := (CheckReport.le_exitCode_iff (by decide)).1 (Nat.not_le.1 hle)
  obtain ⟨_, d, _, _, rfl⟩ := h.exists_result hf
  exact absurd (DocSchema.exitCode_le_three d _) (Nat.not_le.2 hcode)

theorem three_le_iff [Retrieval] (h : Reports host w ds r) :
    3 ≤ r.exitCode ↔ ∃ d ∈ ds, ∃ e, host (.readText d) = .error e := by
  rw [CheckReport.le_exitCode_iff (by decide)]
  constructor
  · rintro ⟨f, hf, hcode⟩
    obtain ⟨before, d, after, rfl, rfl⟩ := h.exists_result hf
    refine ⟨d, List.mem_append_right _ List.mem_cons_self, ?_⟩
    exact resultOf_eq_documentRead_iff.1 (three_le_exitCode_iff.1 hcode)
  · rintro ⟨d, hd, hread⟩
    obtain ⟨before, after, hds⟩ := List.append_of_mem hd
    refine ⟨_, h.mem_results hds, ?_⟩
    exact three_le_exitCode_iff.2 (resultOf_eq_documentRead_iff.2 hread)

theorem two_le_iff [Retrieval] (h : Reports host w ds r) :
    2 ≤ r.exitCode ↔ 3 ≤ r.exitCode ∨ ∃ d, RefusedIn host w ds d := by
  rw [CheckReport.le_exitCode_iff (by decide)]
  constructor
  · rintro ⟨f, hf, hcode⟩
    obtain ⟨before, d, after, hds, rfl⟩ := h.exists_result hf
    rcases two_le_exitCode_iff.1 hcode with hread | hrefused
    · exact .inl ((CheckReport.le_exitCode_iff (by decide)).2 ⟨_, hf, hread⟩)
    · exact .inr ⟨d, before, after, hds, resultOf_eq_invalidSchema_iff.1 hrefused⟩
  · rintro (hread | ⟨d, before, after, hds, hrefused⟩)
    · obtain ⟨f, hf, hcode⟩ := (CheckReport.le_exitCode_iff (by decide)).1 hread
      exact ⟨f, hf, Nat.le_of_succ_le hcode⟩
    · refine ⟨_, h.mem_results hds, ?_⟩
      exact two_le_exitCode_iff.2 (.inr (resultOf_eq_invalidSchema_iff.2 hrefused))

/-- What a code means for the documents, it means for the whole report. -/
theorem le_exitCode_iff [Retrieval] (h : Reports host w ds r) {k : Nat} (hk : 0 < k)
    {Q : FileReport → Prop}
    (hQ : ∀ d x, k ≤ (FileReport.ofResult d x).exitCode ↔ Q (.ofResult d x)) :
    k ≤ r.exitCode ↔ ∃ f ∈ r.results, Q f := by
  rw [CheckReport.le_exitCode_iff hk]
  refine exists_congr fun f => and_congr_right fun hf => ?_
  obtain ⟨_, d, _, _, rfl⟩ := h.exists_result hf
  exact hQ d _

theorem one_le_iff [Retrieval] (h : Reports host w ds r) :
    1 ≤ r.exitCode ↔ ∃ f ∈ r.results, f.status = .invalid ∨ f.status = .error :=
  h.le_exitCode_iff (by decide) fun _ _ => one_le_exitCode_iff

theorem two_le_iff_error [Retrieval] (h : Reports host w ds r) :
    2 ≤ r.exitCode ↔ ∃ f ∈ r.results, f.status = .error :=
  h.le_exitCode_iff (by decide) fun _ _ => error_iff_two_le_exitCode.symm

/-- All is well as long as no document fails. -/
theorem isOk_iff [Retrieval] (h : Reports host w ds r) : r.isOk = true ↔ r.exitCode = 0 := by
  rw [CheckReport.isOk_iff]
  constructor
  · intro hall
    by_contra hcode
    obtain ⟨f, hf, hstatus⟩ := h.one_le_iff.1 (Nat.one_le_iff_ne_zero.2 hcode)
    exact hstatus.elim (hall f hf).1 (hall f hf).2
  · intro hcode f hf
    have hnone := mt h.one_le_iff.2 (by omega)
    exact ⟨fun hstatus => hnone ⟨f, hf, .inl hstatus⟩, fun hstatus => hnone ⟨f, hf, .inr hstatus⟩⟩

open scoped Classical in
/-- The exit code is that of the worst that has happened. -/
theorem exitCode_eq [Retrieval] (h : Reports host w ds r) : r.exitCode =
    if ∃ d ∈ ds, ∃ e, host (.readText d) = .error e then 3
    else if ∃ d, RefusedIn host w ds d then 2
    else if ∃ f ∈ r.results, f.status = .invalid then 1
    else 0 := by
  have hle := h.exitCode_le_three
  split_ifs with hread hrefused hinvalid
  · have hthree := h.three_le_iff.2 hread
    omega
  · have htwo := h.two_le_iff.2 (.inr hrefused)
    have hthree := mt h.three_le_iff.1 hread
    omega
  · obtain ⟨f, hf, hstatus⟩ := hinvalid
    have hone := h.one_le_iff.2 ⟨f, hf, .inl hstatus⟩
    have hthree := mt h.three_le_iff.1 hread
    have htwo := mt h.two_le_iff.1 (not_or.2 ⟨hthree, hrefused⟩)
    omega
  · have hthree := mt h.three_le_iff.1 hread
    have htwo := mt h.two_le_iff.1 (not_or.2 ⟨hthree, hrefused⟩)
    have hone : ¬ 1 ≤ r.exitCode := by
      intro hone
      obtain ⟨f, hf, hstatus | hstatus⟩ := h.one_le_iff.1 hone
      · exact hinvalid ⟨f, hf, hstatus⟩
      · exact htwo (h.two_le_iff_error.2 ⟨f, hf, hstatus⟩)
    omega

/-! #### The board -/

theorem files_eq [Retrieval] (h : Reports host w ds r) : r.results.map (·.file) = ds := by
  rw [h, List.map_map]
  exact (List.map_congr_left fun e _ => file_ofResult e.1 e.2).trans (documents_of_sweep ds w)

theorem agrees [Retrieval] (h : Reports host w ds r) (hw : Bounded w) (hds : Distinct ds)
    (hf : f ∈ r.results) : f.Agrees ((sweep ds).alone host w).2.board := by
  rw [h] at hf
  obtain ⟨⟨d, x⟩, hx, rfl⟩ := List.mem_map.1 hf
  obtain ⟨n, hslot⟩ := slot_of_mem_sweep hw hds hx
  exact agrees_ofResult hslot

/-- A document whose schema does not compile neither passes nor is skipped. -/
theorem error_of_refusedIn [Retrieval] (h : Reports host w ds r) (hw : Bounded w)
    (hds : Distinct ds)
    (hf : f ∈ r.results) (hrefused : RefusedIn host w ds f.file) : f.status = .error := by
  obtain ⟨before, after, hsplit, hnames⟩ := hrefused
  -- the board has one result for the document
  have hfailure := (h.agrees hw hds (h.mem_results hsplit)).error.1 (error_iff_two_le_exitCode.2
    (two_le_exitCode_iff.2 (.inr (resultOf_eq_invalidSchema_iff.2 hnames))))
  rw [file_ofResult] at hfailure
  exact (h.agrees hw hds hf).error.2 hfailure

theorem errors_eq [Retrieval] (h : Reports host w ds r) (hds : Distinct ds)
    (hnew : ∀ d ∈ ds, w.board.slots.get? d = none) :
    ((sweep ds).alone host w).2.board.errorCount = w.board.errorCount + r.errors := by
  rw [errorCount_of_sweep hds hnew, CheckReport.errors_eq_sum, h, List.map_map]
  exact congrArg (_ + List.sum ·) (List.map_congr_left fun e _ => (errors_ofResult e.1 e.2).symm)

end Reports

end Sweep

/-! ### The report of a tree -/

open scoped Classical in
/-- What the report of the documents at `p` and the board are like when they agree. -/
structure CheckAgrees [Retrieval] (settings : Settings) (host : (q : Request) → q.Reply) (p : Path)
    (r : CheckReport) (b : Board) : Prop where
  files : r.results.map (·.file) = documentsAt host p
  counts : r.passed + r.failed + r.skipped = r.checked ∧ r.checked = r.results.length
  errors : r.errors = b.errorCount
  reports : ∀ f ∈ r.results, f.Agrees b
  /-- A document whose schema does not compile neither passes nor is skipped. -/
  refused : ∀ f ∈ r.results, RefusedIn host (.ofSettings settings) (documentsAt host p) f.file →
    f.status = .error
  isOk : r.isOk = true ↔ r.exitCode = 0
  exitCode : r.exitCode =
    if ∃ d ∈ documentsAt host p, ∃ e, host (.readText d) = .error e then 3
    else if ∃ d, RefusedIn host (.ofSettings settings) (documentsAt host p) d then 2
    else if ∃ f ∈ r.results, f.status = .invalid then 1
    else 0

/-- **A report, the board and the exit code tell the same.**  Whatever files there are at a path:
when they are checked by a workspace without results, every document has the status that the board
bears out, the numbers add up, and the exit code is that of the worst that has happened. -/
theorem check_agrees [Retrieval] (settings : Settings) (host : (q : Request) → q.Reply) (p : Path)
    (htree : ∀ e, host (.tree p) = some e → e.Proper) :
    let run := (check p).alone host (.ofSettings settings)
    CheckAgrees settings host p run.1 run.2.board := by
  have hbounded : Bounded (.ofSettings settings) := fun d slot hslot => by cases hslot
  have hds := distinct_documentsAt htree
  rw [alone_check]
  dsimp only
  generalize hreport : (CheckReport.mk p _ _) = r
  have h : Reports host (.ofSettings settings) (documentsAt host p) r := by
    rw [← hreport]
    rfl
  -- every document that was found has come to a result
  have hchecked : r.checked = r.results.length := by
    have hlength := congrArg List.length h.files_eq
    rw [List.length_map] at hlength
    rw [hlength, ← hreport]
  refine ⟨?_, ⟨r.counts.trans hchecked.symm, hchecked⟩, ?_,
    fun f hf => h.agrees hbounded hds hf, ?_, ?_, ?_⟩
  · exact h.files_eq
  · have herrors := h.errors_eq hds fun d _ => rfl
    exact (herrors.trans (Nat.zero_add _)).symm
  · exact fun f hf => h.error_of_refusedIn hbounded hds hf
  · exact h.isOk_iff
  · exact h.exitCode_eq

/-- A directory with a note whose schema is of a draft that there is not, and one without a
header. -/
def refusedNotes : Entry :=
  .directory [("a.md", .file (some "---\n$schema: a.json\n---\n")), ("b.md", .file (some "Text\n"))]

def refusedHost (q : Request) : q.Reply :=
  (Disk.reply q ⟨.directory [("docs", refusedNotes),
    ("schemas", .directory [("a.json", .file (some "\x7b\"$schema\": \"nope\"\x7d"))])], []⟩).1

theorem tree_refused : refusedHost (.tree ⟨"docs"⟩) = some refusedNotes :=
  rfl

theorem documentsAt_refused :
    documentsAt refusedHost ⟨"docs"⟩ = [⟨"docs/a.md"⟩, ⟨"docs/b.md"⟩] := by
  have hdocuments : refusedNotes.documents ⟨"docs"⟩ = [⟨"docs/a.md"⟩, ⟨"docs/b.md"⟩] := by
    decide +kernel
  unfold documentsAt
  rw [tree_refused]
  change Path.sort (refusedNotes.documents ⟨"docs"⟩) = _
  rw [hdocuments]
  exact List.mergeSort_of_pairwise (by decide +kernel)

theorem refusedIn_refused :
    RefusedIn refusedHost (.ofSettings {}) [⟨"docs/a.md"⟩, ⟨"docs/b.md"⟩] ⟨"docs/a.md"⟩ := by
  refine ⟨[], [⟨"docs/b.md"⟩], rfl, ⟨"schemas/a.json"⟩, .object [("$schema", .string "nope")],
    .lookup (.unknownDraft "nope"), ?_, ?_, rfl⟩
  · decide +kernel
  · have hread : Json.read "\x7b\"$schema\": \"nope\"\x7d" =
        .ok (.object [("$schema", .string "nope")]) := by cbv
    change valueIn true (.ok _) = _
    simp [valueIn, hread, Except.toOption]

/-- The note without a header is skipped, and the other one decides the exit code. -/
theorem check_of_refused_notes :
    let run := (check ⟨"docs"⟩).alone refusedHost (.ofSettings {})
    run.1.checked = 2 ∧ run.1.isOk = false ∧ run.1.exitCode = 2 := by
  have h := check_agrees {} refusedHost ⟨"docs"⟩ fun e he => by
    cases tree_refused.symm.trans he
    simp [refusedNotes, Entry.Proper, ProperEntries, IsName]
  have hread : ¬ ∃ d ∈ documentsAt refusedHost ⟨"docs"⟩, ∃ e,
      refusedHost (.readText d) = .error e := by
    rw [documentsAt_refused]
    rintro ⟨d, hd, e, he⟩
    rcases List.mem_cons.1 hd with rfl | hd
    · cases he
    · cases List.mem_singleton.1 hd
      cases he
  have hcode : ((check ⟨"docs"⟩).alone refusedHost (.ofSettings {})).1.exitCode = 2 := by
    rw [h.exitCode, if_neg hread, if_pos ⟨⟨"docs/a.md"⟩, documentsAt_refused ▸ refusedIn_refused⟩]
  refine ⟨?_, ?_, hcode⟩
  · have hfiles := congrArg List.length h.files
    rw [documentsAt_refused, List.length_map] at hfiles
    exact h.counts.2.trans hfiles
  · exact Bool.eq_false_iff.2 fun hok => absurd (h.isOk.1 hok) (by simp [hcode])

end DocSchema
