/-
  DocSchema/Proofs/Workspace/Views.lean
  =====================================
  **Every result on the board is filed where it belongs.**

  A slot has been recorded by one of the operations of the session (`Consistent.recorded`), and
  what an operation records is of its own document and of its own number
  (`outcome_of_records`).  Numbers are not taken twice, so that no two slots name one run
  (`same_of_runId_eq`).  Since every outcome is filed under its document, the views of the whole
  board agree with what is asked of a single document (`board_consistent_throughout`).
-/
import DocSchema.Proofs.Validation
import DocSchema.Proofs.Workspace.Reload

namespace DocSchema.Workspace

open DocSchema.Program


/-- What a slot holds is of the document `d`, and of the run that the slot names. -/
def OfRun (d : Path) (slot : Slot) : Prop :=
  ∀ o, slot.verdict = .validated o →
    o.document.same d = true ∧ o.runId = slot.runId ∧ ∀ e ∈ o.errors, e.document.same d = true

/-- Runs are counted from one. -/
theorem one_le_of_number? {seen : List (Observation Workspace)} {n : Nat}
    (h : Operation.number? seen = some n) : 1 ≤ n := by
  unfold Operation.number? at h
  split at h
  · cases h
    exact Nat.le_add_left 1 _
  · cases h

section Views

variable [Retrieval] {settings : Settings} {S : Session repertoire} {d d' : Path}
  {slot slot' : Slot}

/-- An outcome that is recorded is of the document and of the run that it is recorded for. -/
theorem outcome_of_records {b : Progress repertoire} {n : Nat} {o : Outcome}
    (h : Records b d n (.validated o)) :
    o.document.same d = true ∧ o.runId = n ∧ ∀ e ∈ o.errors, e.document.same d = true := by
  generalize hv : Verdict.validated o = v at h
  cases h with
  | forget hd => cases hv
  | @revalidate p _ w w' reply work result hd hwork =>
    have hresult : result = .ok (some o) := eq_of_verdict hv.symm
    subst hresult
    cases reply with
    | error e =>
      obtain ⟨-, hdone⟩ := hwork.of_done
      cases hdone
    | ok text =>
      obtain ⟨w'', later, schema, c, errors, -, -, herrors, rfl⟩ := outcome_of_leads hwork
      refine ⟨hd, rfl, fun e he => ?_⟩
      rw [document_of_mem_validateLocated herrors he]
      exact hd

theorem ofRun_of_reachable (hS : S.Reachable (.ofSettings settings))
    (hslot : S.state.board.slots.get? d = some slot) :
    (1 ≤ slot.runId ∧ slot.runId ≤ S.state.runs) ∧ OfRun d slot := by
  have hw := consistent_of_reachable hS
  obtain ⟨b, hb, hrec⟩ := hw.recorded d slot hslot
  refine ⟨⟨one_le_of_number? hrec.number?, hw.number_le b hb _ hrec.number?⟩, fun o ho => ?_⟩
  rw [ho] at hrec
  exact outcome_of_records hrec

/-- Slots of one run are one slot. -/
theorem same_of_runId_eq (hS : S.Reachable (.ofSettings settings))
    (hslot : S.state.board.slots.get? d = some slot)
    (hslot' : S.state.board.slots.get? d' = some slot') (h : slot.runId = slot'.runId) :
    d.same d' = true := by
  have hw := consistent_of_reachable hS
  obtain ⟨b, hb, hrec⟩ := hw.recorded d slot hslot
  obtain ⟨b', hb', hrec'⟩ := hw.recorded d' slot' hslot'
  have hsame : b = b' := hw.eq_of_number? hb hb' hrec.number? (h ▸ hrec'.number?)
  subst hsame
  -- the operation reports on one document
  obtain ⟨p, hp, hd⟩ := hrec.on
  obtain ⟨p', hp', hd'⟩ := hrec'.on
  rw [hp] at hp'
  cases hp'
  exact Path.same_trans (Path.same_symm hd) hd'

theorem filed_of_reachable (hS : S.Reachable (.ofSettings settings)) : S.state.board.Filed := by
  rintro ⟨p, slot⟩ he o ho
  have hslot := PathMap.get?_of_mem (distinct_of_reachable hS) he
  have hverdict : slot.verdict = .validated o := by
    unfold Board.outcomeOf? at ho
    split at ho
    · cases ho
      assumption
    · cases ho
  exact ((ofRun_of_reachable hS hslot).2 o hverdict).1

/-- **The board is consistent throughout.**  In every state of a session, whatever its operations
and the order of their actions: a document has one slot at most, and the number of its run is
among those that have been taken and in no other slot; an outcome in a slot is of the document of
the slot and of its run, and so are its errors.  So the outcomes are in strict order of their
documents, they are those that are present, and the errors counted are theirs. -/
theorem board_consistent_throughout (hS : S.Reachable (.ofSettings settings)) :
    S.state.board.slots.Distinct ∧
    (∀ d slot, S.state.board.slots.get? d = some slot →
      (1 ≤ slot.runId ∧ slot.runId ≤ S.state.runs) ∧ OfRun d slot) ∧
    (∀ d d' slot slot', S.state.board.slots.get? d = some slot →
      S.state.board.slots.get? d' = some slot' → slot.runId = slot'.runId → d.same d' = true) ∧
    S.state.board.outcomes.Pairwise (fun o o' => o.document.compare o'.document = .lt) ∧
    (∀ d o, S.state.board.outcome? d = some o ↔
      o ∈ S.state.board.outcomes ∧ o.document.same d = true) ∧
    S.state.board.errorCount = (S.state.board.outcomes.map fun o => o.errors.length).sum := by
  have hdistinct := distinct_of_reachable hS
  have hfiled := filed_of_reachable hS
  refine ⟨hdistinct, fun d slot hslot => ?_, fun d d' slot slot' hslot hslot' h => ?_, ?_,
    fun d o => ?_, ?_⟩
  · exact ofRun_of_reachable hS hslot
  · exact same_of_runId_eq hS hslot hslot' h
  · exact Board.pairwise_outcomes hdistinct hfiled
  · exact Board.outcome?_eq_some_iff hdistinct hfiled
  · exact Board.errorCount_eq_sum _

end Views

/-- There the note has an outcome under every spelling of its path, and its error is counted. -/
theorem board_consistent_after_run : ∃ S : Session repertoire, S.Reachable (.ofSettings {}) ∧
    ∃ o ∈ S.state.board.outcomes, o.document.same ⟨"a.md/"⟩ = true ∧
      OfRun ⟨"a.md"⟩ ⟨1, .validated o⟩ ∧ S.state.board.errorCount = 1 := by
  obtain ⟨S, e, hS, hstate⟩ := exists_reachable_afterRun
  obtain ⟨-, hslot, -, -, hpresent, -⟩ := board_consistent_throughout hS
  rw [hstate] at hslot hpresent
  let o : Outcome := ⟨⟨"a.md"⟩, 1, ⟨"schemas/note.json"⟩, [e]⟩
  obtain ⟨hmem, hsame⟩ := (hpresent ⟨"a.md/"⟩ o).1 rfl
  refine ⟨S, hS, o, ?_, hsame, (hslot ⟨"a.md"⟩ ⟨1, .validated o⟩ rfl).2, ?_⟩
  · rw [hstate]
    exact hmem
  · rw [hstate]
    rfl

end DocSchema.Workspace
