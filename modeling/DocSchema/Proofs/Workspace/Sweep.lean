/-
  DocSchema/Proofs/Workspace/Sweep.lean
  =====================================
  **A sweep may take its documents in any order.**

  A sweep validates one document after the other, and the schemas that it has read for the earlier
  ones are there for the later ones.  As long as no two spellings of a path are told apart
  (`Unambiguous`), this makes no difference: every result is what the store of the beginning would
  have led to (`result_of_sweep`), and the store has learned the schemas that the documents name
  and no others (`value?_of_sweep`).  The board has for every document what one of its results
  says (`slot_of_sweep`).  So a list of documents and any permutation of it come to the same, the
  numbers of the runs apart (`sweep_in_any_order`).

  Where two spellings are told apart, the order shows (`order_of_spellings_shows`): a document that
  cannot be read fails under the spelling that was swept last, and a file that is named as a
  directory is found only in the store.
-/
import DocSchema.Disk
import DocSchema.Proofs.Workspace.EventEffect

namespace DocSchema

/-! ### What results tell -/

/-- What there is to tell of an outcome: its document, its schema and its errors. -/
abbrev Told : Type :=
  List Component × Path × List (List Component × InstanceError × List PathPart)

/-- What an error tells, the spelling of its document apart. -/
def LocatedError.told (e : LocatedError) : List Component × InstanceError × List PathPart :=
  (e.document.components, e.error, e.trail)

/-- What an outcome tells, the spelling of its document and the number of its run apart. -/
def Outcome.told (o : Outcome) : Told :=
  (o.document.components, o.schema, o.errors.map LocatedError.told)

def RunResult.told (r : RunResult) : Except ValidateError (Option Told) :=
  r.map fun o => o.map Outcome.told

def Verdict.told : Verdict → Except String (Option Told)
  | .cleared => .ok none
  | .validated o => .ok (some o.told)
  | .failed message => .error message

/-- The number of errors of a result. -/
def RunResult.errorCount : RunResult → Nat
  | .ok (some o) => o.errors.length
  | _ => 0

theorem slotErrors_verdict (n : Nat) (r : RunResult) :
    Board.slotErrors ⟨n, r.verdict⟩ = r.errorCount := by
  rcases r with e | (- | o) <;> rfl

theorem told_verdict (r : RunResult) :
    r.verdict.told = r.told.mapError ValidateError.message := by
  cases r with
  | error e => rfl
  | ok o => cases o <;> rfl

namespace Workspace

open DocSchema.Json DocSchema.Program DocSchema.Store

variable {host : (q : Request) → q.Reply} {w : Workspace} {d d' p q : Path} {n n' : Nat}
  {ds es : List Path} {s s' : Store} {x : RunResult}

theorem told_eq_none_iff : x.told = .ok none ↔ x = .ok none := by
  rcases x with e | (- | o) <;> simp [RunResult.told, Except.map]

theorem told_answer [Retrieval] (hd : d.same d' = true) (n n' : Nat) (parsed : Document)
    (schema : Path)
    (v : Value) : (answer d n parsed schema v).told = (answer d' n' parsed schema v).told := by
  have herrors : ∀ es : List InstanceError,
      (es.map (LocatedError.ofError d parsed.root)).map LocatedError.told =
        (es.map (LocatedError.ofError d' parsed.root)).map LocatedError.told := by
    intro es
    simp only [List.map_map]
    refine List.map_congr_left fun e _ => ?_
    simp [LocatedError.told, LocatedError.ofError, Path.same_iff.1 hd]
  unfold answer validateLocated
  cases validate parsed.root v with
  | error e => rfl
  | ok es => simp [RunResult.told, Outcome.told, Except.map, herrors, Path.same_iff.1 hd]

theorem told_resultOfText [Retrieval] (hd : d.same d' = true) (s : Store) (n n' : Nat)
    (text : String) :
    (resultOfText host s d n text).told = (resultOfText host s d' n' text).told := by
  unfold resultOfText
  split
  · rfl
  · split
    · rfl
    · exact told_answer hd n n' _ _ _

/-! ### What one document makes the store learn -/

theorem root_learned (host : (q : Request) → q.Reply) (d : Path) (s : Store) :
    (learned host d s).root = s.root := by
  unfold learned
  split
  · rfl
  · exact (Grown.asked host s _).root

/-- A result depends on what can be known of the schema that the document names. -/
theorem resultOf_congr [Retrieval] (hroot : s'.root = s.root)
    (h : ∀ schema, namedSchema? host s.root d = some schema →
      s'.known? host schema = s.known? host schema) (n : Nat) :
    resultOf host s' d n = resultOf host s d n := by
  unfold resultOf resultOfText
  cases htext : host (.readText d) with
  | error e => rfl
  | ok text =>
    dsimp only
    rw [hroot]
    cases href : DocSchema.schemaRef? (Document.parse text).metadata s.root with
    | none => rfl
    | some schema =>
      have hnamed : namedSchema? host s.root d = some schema := by
        simp [namedSchema?, htext, Except.toOption, href]
      dsimp only
      rw [h schema hnamed]

theorem answer_ne_none [Retrieval] (d : Path) (n : Nat) (parsed : Document) (schema : Path)
    (v : Value) : answer d n parsed schema v ≠ .ok none := by
  unfold answer
  split <;> simp

/-- A document cannot be read, or no schema can be had for it, or it is validated. -/
theorem resultOf_cases [Retrieval] (host : (q : Request) → q.Reply) (s : Store) (d : Path)
    (n : Nat) :
    (∃ e, host (.readText d) = .error e ∧ resultOf host s d n = .error (.documentRead d e)) ∨
    ∃ text, host (.readText d) = .ok text ∧
      ((∀ schema, namedSchema? host s.root d = some schema → s.known? host schema = none) ∧
          resultOf host s d n = .ok none ∨
        ∃ schema v, namedSchema? host s.root d = some schema ∧ s.known? host schema = some v ∧
          resultOf host s d n = answer d n (Document.parse text) schema v) := by
  unfold resultOf resultOfText namedSchema?
  cases htext : host (.readText d) with
  | error e => exact .inl ⟨e, rfl, rfl⟩
  | ok text =>
    refine .inr ⟨text, rfl, ?_⟩
    simp only [Except.toOption, Option.bind_some]
    cases href : DocSchema.schemaRef? (Document.parse text).metadata s.root with
    | none => exact .inl ⟨by simp, rfl⟩
    | some schema =>
      cases hknown : s.known? host schema with
      | none => exact .inl ⟨by simp [hknown], by simp [hknown]⟩
      | some v => exact .inr ⟨schema, v, rfl, hknown, by simp [hknown]⟩

theorem readable_of_namedSchema? (h : namedSchema? host s.root d = some p) :
    ∃ text, host (.readText d) = .ok text := by
  unfold namedSchema? at h
  cases htext : host (.readText d) with
  | error e => simp [htext, Except.toOption] at h
  | ok text => exact ⟨text, rfl⟩

/-- A document is passed over if it can be read and no schema can be had for it. -/
theorem resultOf_eq_none_iff [Retrieval] : resultOf host s d n = .ok none ↔
    (∃ text, host (.readText d) = .ok text) ∧
      ∀ schema, namedSchema? host s.root d = some schema → s.known? host schema = none := by
  obtain ⟨e, htext, hresult⟩ | ⟨text, htext, ⟨hunknown, hresult⟩ |
    ⟨schema, v, hnamed, hknown, hresult⟩⟩ := resultOf_cases host s d n
  · simp [hresult, htext]
  · exact iff_of_true hresult ⟨⟨text, htext⟩, hunknown⟩
  · refine iff_of_false (hresult ▸ answer_ne_none _ _ _ _ _) fun h => ?_
    cases (h.2 schema hnamed).symm.trans hknown

/-! ### Documents whose spellings make no difference -/

/-- Two spellings of one document can both be read, and two spellings of a schema that documents
name lead to one schema. -/
structure Unambiguous (host : (q : Request) → q.Reply) (s : Store) (ds : List Path) : Prop where
  documents : ∀ d ∈ ds, ∀ d' ∈ ds, d.same d' = true → d = d' ∨
    ∃ text, host (.readText d) = .ok text ∧ host (.readText d') = .ok text
  schemas : ∀ d ∈ ds, ∀ d' ∈ ds, ∀ p q, namedSchema? host s.root d = some p →
    namedSchema? host s.root d' = some q → p.same q = true → s.known? host p = s.known? host q

namespace Unambiguous

theorem known?_learned (h : Unambiguous host s ds) (hd : d ∈ ds) (hd' : d' ∈ ds)
    (hp : namedSchema? host s.root d' = some p) :
    (learned host d s).known? host p = s.known? host p := by
  unfold learned
  cases hq : namedSchema? host s.root d with
  | none => rfl
  | some q => exact known?_asked (h.schemas d hd d' hd' q p hq hp)

theorem resultOf_learned [Retrieval] (h : Unambiguous host s ds) (hd : d ∈ ds) (hd' : d' ∈ ds)
    (n : Nat) : resultOf host (learned host d s) d' n = resultOf host s d' n :=
  resultOf_congr (root_learned host d s) (fun _ hp => h.known?_learned hd hd' hp) n

/-- To validate one of the documents makes no spelling tell. -/
theorem learned (h : Unambiguous host s ds) (hd : d ∈ ds) :
    Unambiguous host (learned host d s) ds where
  documents := h.documents
  schemas d₁ hd₁ d₂ hd₂ p q hp hq hpq := by
    rw [root_learned] at hp hq
    rw [h.known?_learned hd hd₁ hp, h.known?_learned hd hd₂ hq]
    exact h.schemas d₁ hd₁ d₂ hd₂ p q hp hq hpq

theorem told_resultOf [Retrieval] (h : Unambiguous host s ds) (hd : d ∈ ds) (hd' : d' ∈ ds)
    (hsame : d.same d' = true) (n n' : Nat) :
    (resultOf host s d n).told = (resultOf host s d' n').told := by
  unfold resultOf
  obtain rfl | ⟨text, htext, htext'⟩ := h.documents d hd d' hd' hsame
  · split
    · rfl
    · exact told_resultOfText hsame s n n' _
  · rw [htext, htext']
    exact told_resultOfText hsame s n n' text

theorem of_uniform (hhost : Uniform host) (s : Store)
    (h : ∀ d ∈ ds, ∀ d' ∈ ds, d.same d' = true → d = d' ∨
      ∃ text, host (.readText d) = .ok text ∧ host (.readText d') = .ok text) :
    Unambiguous host s ds where
  documents := h
  schemas _ _ _ _ p q _ _ hpq := by
    rw [known?_eq, known?_eq, loaded?_congr hhost hpq, isSchemaFile_congr hpq rfl]
    unfold value?
    rw [s.cache.get?_congr (Path.same_iff.1 hpq)]

end Unambiguous

/-! ### A whole sweep -/

theorem documents_of_sweep [Retrieval] (ds : List Path) (w : Workspace) :
    ((sweep ds).alone host w).1.map Prod.fst = ds := by
  induction ds generalizing w with
  | nil => rfl
  | cons d ds ih =>
    rw [alone_sweep_cons]
    exact congrArg (d :: ·) (ih _)

/-- No document of a sweep makes a difference to another. -/
theorem result_of_sweep [Retrieval] (h : Unambiguous host w.store ds) (hes : ∀ d ∈ es, d ∈ ds)
    (hx : (d, x) ∈ ((sweep es).alone host w).1) :
    d ∈ ds ∧ ∃ n, x = resultOf host w.store d n := by
  induction es generalizing w with
  | nil => cases hx
  | cons e es ih =>
    obtain ⟨he, hrest⟩ := List.forall_mem_cons.1 hes
    rw [alone_sweep_cons, alone_revalidate_eq] at hx
    rcases List.mem_cons.1 hx with hfirst | hlater
    · cases hfirst
      exact ⟨he, _, rfl⟩
    · obtain ⟨hd, n, hresult⟩ := ih (h.learned he) hrest hlater
      exact ⟨hd, n, hresult.trans (h.resultOf_learned he hd n)⟩

/-- Some document of a list names a schema, in whatever spelling. -/
def Names (host : (q : Request) → q.Reply) (root : Path) (ds : List Path) (p q : Path) : Prop :=
  (∃ d ∈ ds, namedSchema? host root d = some q) ∧ q.same p = true

/-- After a sweep the store has the schemas that the documents name, as far as they can be known,
and all else is as it was. -/
theorem value?_of_sweep [Retrieval] (h : Unambiguous host w.store ds) (hes : ∀ d ∈ es, d ∈ ds)
    (p : Path) :
    let s := ((sweep es).alone host w).2.store
    (∀ q, Names host w.store.root es p q → s.value? p = w.store.known? host q) ∧
      ((¬ ∃ q, Names host w.store.root es p q) → s.value? p = w.store.value? p) := by
  induction es generalizing w with
  | nil => exact ⟨fun q ⟨⟨d, hd, _⟩, _⟩ => absurd hd List.not_mem_nil, fun _ => rfl⟩
  | cons e es ih =>
    obtain ⟨he, hrest⟩ := List.forall_mem_cons.1 hes
    rw [alone_sweep_cons, alone_revalidate_eq]
    obtain ⟨hlater, hothers⟩ := ih (w := reported e (w.runs + 1)
      (resultOf host w.store e (w.runs + 1)).verdict
      { countRun w with store := learned host e w.store }) (h.learned he) hrest
    dsimp only [reported, countRun] at hlater hothers ⊢
    rw [root_learned] at hlater hothers
    by_cases hnext : ∃ q, Names host w.store.root es p q
    · obtain ⟨q', ⟨d', hd', hq'⟩, hsame'⟩ := hnext
      have hvalue := (hlater q' ⟨⟨d', hd', hq'⟩, hsame'⟩).trans
        (h.known?_learned he (hrest d' hd') hq')
      constructor
      · rintro q ⟨⟨d, hd, hq⟩, hsame⟩
        have hspelling : q'.same q = true := Path.same_trans hsame' (Path.same_symm hsame)
        exact hvalue.trans (h.schemas d' (hrest d' hd') d (hes d hd) q' q hq' hq hspelling)
      · intro hnone
        exact absurd ⟨q', ⟨d', List.mem_cons_of_mem _ hd', hq'⟩, hsame'⟩ hnone
    · -- the first document is the last one to name the path
      rw [hothers hnext]
      unfold learned
      constructor
      · rintro q ⟨⟨d, hd, hq⟩, hsame⟩
        rcases List.mem_cons.1 hd with rfl | hd
        · rw [hq]
          exact value?_asked_of_same hsame
        · exact absurd ⟨q, ⟨d, hd, hq⟩, hsame⟩ hnext
      · intro hnone
        cases hq : namedSchema? host w.store.root e with
        | none => rfl
        | some q =>
          exact value?_asked_of_not_same fun hsame =>
            hnone ⟨q, ⟨e, List.mem_cons_self, hq⟩, hsame⟩

theorem slot_of_unswept [Retrieval] (hw : Bounded w) (hp : ¬ ∃ d ∈ ds, d.same p = true) :
    ((sweep ds).alone host w).2.board.slots.get? p = w.board.slots.get? p := by
  rw [alone_sweep]
  refine slot_of_not_on host (allReport_revalidations ds) hw ?_
  rintro o ho ⟨q, hq, hsame⟩
  obtain ⟨d, hd, rfl⟩ := List.mem_map.1 ho
  cases hq
  exact hp ⟨_, hd, hsame⟩

variable (host) in
/-- The board has what one of the results says. -/
theorem slot_of_sweep [Retrieval] (hw : Bounded w) (hp : ∃ d ∈ ds, d.same p = true) :
    let run := (sweep ds).alone host w
    ∃ d x n, (d, x) ∈ run.1 ∧ d.same p = true ∧
      run.2.board.slots.get? p = some ⟨n, x.verdict⟩ := by
  induction ds generalizing w with
  | nil =>
    obtain ⟨d, hd, -⟩ := hp
    cases hd
  | cons d ds ih =>
    rw [alone_sweep_cons]
    obtain ⟨hlater, hnew, -⟩ := later_of_operation host (o := .revalidate d) hw rfl
    by_cases hnext : ∃ d ∈ ds, d.same p = true
    · obtain ⟨d', x, n, hx, hsame, hslot⟩ := ih hlater.bounded hnext
      exact ⟨d', x, n, List.mem_cons_of_mem _ hx, hsame, hslot⟩
    · -- the first document is the last one at this path
      obtain ⟨d', hd', hsame⟩ := hp
      rcases List.mem_cons.1 hd' with rfl | hd'
      · refine ⟨d', resultOf host w.store d' (w.runs + 1), w.runs + 1, ?_, hsame, ?_⟩
        · rw [alone_revalidate_eq]
          exact List.mem_cons_self
        · exact (slot_of_unswept hlater.bounded hnext).trans (hnew p hsame)
      · exact absurd ⟨d', hd', hsame⟩ hnext

/-- What is found of a document is found with the store that the documents before it have left. -/
theorem mem_sweep_iff [Retrieval] : (d, x) ∈ ((sweep ds).alone host w).1 ↔
    ∃ before after, ds = before ++ d :: after ∧
      let w' := ((sweep before).alone host w).2
      x = resultOf host w'.store d (w'.runs + 1) := by
  induction ds generalizing w with
  | nil =>
    constructor
    · intro hx
      cases hx
    · rintro ⟨before, after, hds, -⟩
      exact absurd hds.symm (by simp)
  | cons e es ih =>
    rw [alone_sweep_cons]
    constructor
    · intro hx
      rcases List.mem_cons.1 hx with hfirst | hlater
      · rw [alone_revalidate_eq] at hfirst
        cases hfirst
        exact ⟨[], es, rfl, rfl⟩
      · obtain ⟨before, after, rfl, hresult⟩ := ih.1 hlater
        refine ⟨e :: before, after, rfl, ?_⟩
        rw [alone_sweep_cons]
        exact hresult
    · rintro ⟨before, after, hds, hresult⟩
      cases before with
      | nil =>
        cases hds
        rw [alone_revalidate_eq]
        exact List.mem_cons.2 (.inl (congrArg (Prod.mk d) hresult))
      | cons b before =>
        cases hds
        rw [alone_sweep_cons] at hresult
        exact List.mem_cons_of_mem _ (ih.2 ⟨before, after, rfl, hresult⟩)

/-- No two documents of a list are spellings of one path. -/
def Distinct (ds : List Path) : Prop :=
  ds.Pairwise fun d d' => ¬ d.same d' = true

/-- Where no document comes twice, the board has what the result of each says. -/
theorem slot_of_mem_sweep [Retrieval] (hw : Bounded w) (hds : Distinct ds)
    (hx : (d, x) ∈ ((sweep ds).alone host w).1) :
    ∃ n, ((sweep ds).alone host w).2.board.slots.get? d = some ⟨n, x.verdict⟩ := by
  have hlisted : ((sweep ds).alone host w).1.map Prod.fst = ds := documents_of_sweep ds w
  have hpairwise : ((sweep ds).alone host w).1.Pairwise fun e f => ¬ e.1.same f.1 = true := by
    rw [← hlisted] at hds
    exact List.pairwise_map.1 hds
  have hsymm : Std.Symm fun e f : Path × RunResult => ¬ e.1.same f.1 = true :=
    ⟨fun _ _ => Path.not_same_symm⟩
  have hd : d ∈ ds := hlisted ▸ List.mem_map_of_mem (f := Prod.fst) hx
  obtain ⟨d', x', n, hx', hsame, hslot⟩ :=
    slot_of_sweep host hw ⟨d, hd, Path.same_refl d⟩
  have heq : (d', x') = (d, x) := by
    by_contra hne
    exact hpairwise.forall hx' hx hne hsame
  cases heq
  exact ⟨n, hslot⟩

/-- Where no document comes twice and none is known, the board counts the errors of the results. -/
theorem errorCount_of_sweep [Retrieval] (hds : Distinct ds)
    (hnew : ∀ d ∈ ds, w.board.slots.get? d = none) :
    let run := (sweep ds).alone host w
    run.2.board.errorCount =
      w.board.errorCount + (run.1.map fun e => RunResult.errorCount e.2).sum := by
  induction ds generalizing w with
  | nil => rfl
  | cons d ds ih =>
    obtain ⟨hd, hds⟩ := List.pairwise_cons.1 hds
    obtain ⟨hself, hrest⟩ := List.forall_mem_cons.1 hnew
    rw [alone_sweep_cons, alone_revalidate_eq]
    dsimp only
    rw [ih hds]
    · rw [List.map_cons, List.sum_cons, ← Nat.add_assoc]
      refine congrArg (· + _) ((Board.errorCount_apply_of_unknown hself).trans ?_)
      rw [slotErrors_verdict]
    · intro d' hd'
      exact (Board.get?_apply_of_not_same (hd d' hd')).trans (hrest d' hd')

/-! ### The same documents in another order -/

/-- What two sweeps, of `ds` and of `ds'`, have in common when they come to the same. -/
structure SameSweep (ds ds' : List Path) (run run' : List (Path × RunResult) × Workspace) :
    Prop where
  listed : run.1.map Prod.fst = ds ∧ run'.1.map Prod.fst = ds'
  results : ∀ d x d' x', (d, x) ∈ run.1 → (d', x') ∈ run'.1 → d.same d' = true → x.told = x'.told
  schemas : ∀ p, run.2.store.value? p = run'.2.store.value? p
  board : ∀ d, (run.2.board.slots.get? d).map (·.verdict.told) =
    (run'.2.board.slots.get? d).map (·.verdict.told)

/-- **A sweep may take its documents in any order.**  However a workspace has come about, and
whatever the host has: as long as no two spellings are told apart, a list of documents and any
permutation of it lead to the same results, to the same schemas in the store, and to the same
board, the numbers of the runs apart. -/
theorem sweep_in_any_order [Retrieval] {settings : Settings} {S : Session repertoire}
    (hS : S.Reachable (.ofSettings settings)) (host : (q : Request) → q.Reply)
    (hperm : ds.Perm ds') (h : Unambiguous host S.state.store ds) :
    SameSweep ds ds' ((sweep ds).alone host S.state) ((sweep ds').alone host S.state) := by
  have hw := bounded_of_reachable hS
  have hself : ∀ d ∈ ds, d ∈ ds := fun _ hd => hd
  have hother : ∀ d ∈ ds', d ∈ ds := fun _ hd => hperm.mem_iff.2 hd
  have htold : ∀ d x d' x', (d, x) ∈ ((sweep ds).alone host S.state).1 →
      (d', x') ∈ ((sweep ds').alone host S.state).1 → d.same d' = true → x.told = x'.told := by
    intro d x d' x' hx hx' hsame
    obtain ⟨hd, n, rfl⟩ := result_of_sweep h hself hx
    obtain ⟨hd', n', rfl⟩ := result_of_sweep h hother hx'
    exact h.told_resultOf hd hd' hsame n n'
  refine ⟨⟨documents_of_sweep ds _, documents_of_sweep ds' _⟩, htold, fun p => ?_, fun p => ?_⟩
  · obtain ⟨hknown, hkept⟩ := value?_of_sweep h hself p
    obtain ⟨hknown', hkept'⟩ := value?_of_sweep h hother p
    by_cases hnamed : ∃ q, Names host S.state.store.root ds p q
    · obtain ⟨q, ⟨d, hd, hq⟩, hsame⟩ := hnamed
      rw [hknown q ⟨⟨d, hd, hq⟩, hsame⟩, hknown' q ⟨⟨d, hperm.mem_iff.1 hd, hq⟩, hsame⟩]
    · have hnamed' : ¬ ∃ q, Names host S.state.store.root ds' p q := by
        rintro ⟨q, ⟨d, hd, hq⟩, hsame⟩
        exact hnamed ⟨q, ⟨d, hother d hd, hq⟩, hsame⟩
      rw [hkept hnamed, hkept' hnamed']
  · by_cases hp : ∃ d ∈ ds, d.same p = true
    · have hp' : ∃ d ∈ ds', d.same p = true := by
        obtain ⟨d, hd, hsame⟩ := hp
        exact ⟨d, hperm.mem_iff.1 hd, hsame⟩
      obtain ⟨d, x, n, hx, hsame, hslot⟩ := slot_of_sweep host hw hp
      obtain ⟨d', x', n', hx', hsame', hslot'⟩ := slot_of_sweep host hw hp'
      have hspelling : d.same d' = true := Path.same_trans hsame (Path.same_symm hsame')
      rw [hslot, hslot', Option.map_some, Option.map_some, told_verdict, told_verdict,
        htold d x d' x' hx hx' hspelling]
    · have hp' : ¬ ∃ d ∈ ds', d.same p = true := by
        rintro ⟨d, hd, hsame⟩
        exact hp ⟨d, hother d hd, hsame⟩
      rw [slot_of_unswept hw hp, slot_of_unswept hw hp']

theorem uniform_hostOf (files : PathMap String) : Uniform (hostOf files) := by
  intro p q hpq
  have hget := files.get?_congr (Path.same_iff.1 hpq)
  simp [hostOf, PathMap.contains, hget]

/-- A board on which the note has an outcome already, and a sweep over two spellings of it. -/
theorem sweep_of_notes_reversed : ∃ S : Session repertoire, S.Reachable (.ofSettings {}) ∧
    (S.state.board.outcome? ⟨"a.md"⟩).isSome ∧
    SameSweep [⟨"a.md"⟩, ⟨"b.md"⟩, ⟨"a.md/"⟩] [⟨"a.md/"⟩, ⟨"b.md"⟩, ⟨"a.md"⟩]
      ((sweep [⟨"a.md"⟩, ⟨"b.md"⟩, ⟨"a.md/"⟩]).alone listHost S.state)
      ((sweep [⟨"a.md/"⟩, ⟨"b.md"⟩, ⟨"a.md"⟩]).alone listHost S.state) := by
  obtain ⟨S, e, hS, hstate⟩ := exists_reachable_afterRun
  refine ⟨S, hS, ?_, ?_⟩
  · rw [hstate]
    rfl
  · refine sweep_in_any_order hS listHost (List.reverse_perm _).symm
      (.of_uniform (uniform_hostOf _) _ fun d hd d' hd' hsame => ?_)
    simp only [List.mem_cons, List.not_mem_nil, or_false] at hd hd'
    -- both spellings of the note can be read, and the other document has one spelling
    rcases hd with rfl | rfl | rfl <;> rcases hd' with rfl | rfl | rfl
    all_goals first
      | exact .inl rfl
      | exact .inr ⟨_, rfl, rfl⟩
      | exact absurd hsame (by decide)

/-- A disk with two documents, of which one names the schema file as if it were a directory. -/
def misspelledDisk : Disk :=
  ⟨.directory [("a.md", .file (some "---\n$schema: a.json\n---\n")),
    ("b.md", .file (some "---\n$schema: a.json/\n---\n")),
    ("schemas", .directory [("a.json", .file (some "\x7b\x7d"))])], []⟩

def misspelledHost (q : Request) : q.Reply :=
  (Disk.reply q misspelledDisk).1

theorem named_misspelled :
    namedSchema? misspelledHost ⟨"schemas"⟩ ⟨"a.md"⟩ = some ⟨"schemas/a.json"⟩ ∧
      namedSchema? misspelledHost ⟨"schemas"⟩ ⟨"b.md"⟩ = some ⟨"schemas/a.json/"⟩ := by
  decide +kernel

theorem known?_misspelled :
    (Store.ofRoot ⟨"schemas"⟩).known? misspelledHost ⟨"schemas/a.json"⟩ = some (.object []) ∧
      (Store.ofRoot ⟨"schemas"⟩).known? misspelledHost ⟨"schemas/a.json/"⟩ = none := by
  constructor
  · have hload : loaded? misspelledHost ⟨"schemas/a.json"⟩ = some (.object []) := by
      have hread : Json.read "\x7b\x7d" = .ok (.object []) := by cbv
      change valueIn true (.ok "\x7b\x7d") = _
      simp [valueIn, hread, Except.toOption]
    exact hload
  · rfl

/-- The document only has its schema once the other one has made the store read it. -/
theorem resultOf_misspelled [Retrieval] (n : Nat) :
    resultOf misspelledHost (learned misspelledHost ⟨"a.md"⟩ (.ofRoot ⟨"schemas"⟩)) ⟨"b.md"⟩ n ≠
        .ok none ∧
      resultOf misspelledHost (.ofRoot ⟨"schemas"⟩) ⟨"b.md"⟩ n = .ok none := by
  obtain ⟨hnamed, hnamed'⟩ := named_misspelled
  obtain ⟨hknown, hunknown⟩ := known?_misspelled
  have hlearned : learned misspelledHost ⟨"a.md"⟩ (.ofRoot ⟨"schemas"⟩) =
      (Store.ofRoot ⟨"schemas"⟩).asked misspelledHost ⟨"schemas/a.json"⟩ := by
    unfold learned
    rw [show (Store.ofRoot ⟨"schemas"⟩).root = ⟨"schemas"⟩ from rfl, hnamed]
  constructor
  · intro hnone
    have hlost := (resultOf_eq_none_iff.1 hnone).2 ⟨"schemas/a.json/"⟩
      (by rw [root_learned]; exact hnamed')
    rw [hlearned, known?_eq, value?_asked_of_same (by decide), hknown] at hlost
    cases hlost
  · refine resultOf_eq_none_iff.2 ⟨⟨_, rfl⟩, fun schema hschema => ?_⟩
    cases hnamed'.symm.trans hschema
    exact hunknown

/-- Where spellings are told apart, the order of a sweep shows: in the failure that the board has of
a document, and in what becomes of the document that the other one helps to its schema. -/
theorem order_of_spellings_shows : ∃ S : Session repertoire, S.Reachable (.ofSettings {}) ∧
    ¬ SameSweep [⟨"n/x.md"⟩, ⟨"n//x.md"⟩] [⟨"n//x.md"⟩, ⟨"n/x.md"⟩]
      ((sweep [⟨"n/x.md"⟩, ⟨"n//x.md"⟩]).alone (hostOf []) S.state)
      ((sweep [⟨"n//x.md"⟩, ⟨"n/x.md"⟩]).alone (hostOf []) S.state) ∧
    ¬ SameSweep [⟨"a.md"⟩, ⟨"b.md"⟩] [⟨"b.md"⟩, ⟨"a.md"⟩]
      ((sweep [⟨"a.md"⟩, ⟨"b.md"⟩]).alone misspelledHost S.state)
      ((sweep [⟨"b.md"⟩, ⟨"a.md"⟩]).alone misspelledHost S.state) := by
  refine ⟨⟨.ofSettings {}, [], []⟩, .refl, fun h => ?_, fun h => ?_⟩
  · have hfailure := congrArg (fun told => told.bind fun t => match t with
      | .error message => some message
      | .ok _ => none) (h.board ⟨"n/x.md"⟩)
    revert hfailure
    decide +kernel
  · obtain ⟨hsecond, -⟩ := resultOf_misspelled 2
    obtain ⟨-, hfirst⟩ := resultOf_misspelled 1
    have htold := h.results ⟨"b.md"⟩ (resultOf misspelledHost
      (learned misspelledHost ⟨"a.md"⟩ (.ofRoot ⟨"schemas"⟩)) ⟨"b.md"⟩ 2) ⟨"b.md"⟩
      (resultOf misspelledHost (.ofRoot ⟨"schemas"⟩) ⟨"b.md"⟩ 1) ?_ ?_ (by decide)
    · rw [hfirst] at htold
      exact hsecond (told_eq_none_iff.1 htold)
    · rw [alone_sweep_cons]
      refine List.mem_cons_of_mem _ ?_
      rw [alone_sweep_cons, alone_revalidate_eq, alone_revalidate_eq]
      exact List.mem_cons_self
    · rw [alone_sweep_cons, alone_revalidate_eq]
      exact List.mem_cons_self

end Workspace

end DocSchema
