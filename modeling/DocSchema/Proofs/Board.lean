/-
  DocSchema/Proofs/Board.lean
  ===========================
  **What a report does to the board.**

  A report concerns the slot of its own document and no other (`get?_apply_of_not_same`).  There
  it leaves the later of two runs, and the new one where the numbers are equal
  (`get?_apply_of_same`).  Whatever the order of the reports, the number in a slot only grows
  (`runId_le_of_get?_apply`).

  The views of the whole board agree with what is asked of a single document as long as every
  outcome is filed under the document that it is of (`Filed`): the outcomes are in strict order
  (`pairwise_outcomes`), and they are those that are present (`outcome?_eq_some_iff`).
-/
import DocSchema.Board
import DocSchema.Proofs.Path
import DocSchema.Proofs.Path.Map
import Mathlib.Algebra.GroupWithZero.Nat

namespace DocSchema

namespace Board

/-- The later of what is known of a document and a new result. -/
def latest (runId : Nat) (verdict : Verdict) : Option Slot → Slot
  | some slot => if runId < slot.runId then slot else ⟨runId, verdict⟩
  | none => ⟨runId, verdict⟩

variable {b : Board} {p d : Path} {n : Nat} {v : Verdict} {slot : Slot}

theorem get?_apply_of_same (h : p.same d = true) :
    (b.apply p n v).slots.get? d = some (latest n v (b.slots.get? d)) := by
  have hd : ∀ m : PathMap Slot, m.get? d = m.get? p := fun m =>
    m.get?_congr (Path.same_iff.1 h).symm
  rw [hd, hd]
  cases hp : b.slots.get? p with
  | none => simp [apply, hp, latest, PathMap.get?_insert_self]
  | some slot =>
    by_cases hn : n < slot.runId
    · simp [apply, hp, latest, hn]
    · simp [apply, hp, latest, hn, PathMap.get?_insert_self]

theorem get?_apply_of_not_same (h : ¬ p.same d = true) :
    (b.apply p n v).slots.get? d = b.slots.get? d := by
  have hd : d.components ≠ p.components := fun hc => h (Path.same_iff.2 hc.symm)
  unfold apply
  split
  · split
    · rfl
    · exact PathMap.get?_insert_of_ne _ _ hd
  · exact PathMap.get?_insert_of_ne _ _ hd

theorem le_runId_latest (n : Nat) (v : Verdict) (known : Option Slot) :
    n ≤ (latest n v known).runId := by
  cases known with
  | none => exact Nat.le_refl n
  | some slot =>
    by_cases hn : n < slot.runId
    · simpa [latest, hn] using Nat.le_of_lt hn
    · simp [latest, hn]

theorem runId_le_latest (n : Nat) (v : Verdict) (slot : Slot) :
    slot.runId ≤ (latest n v (some slot)).runId := by
  by_cases hn : n < slot.runId
  · simp [latest, hn]
  · simpa [latest, hn] using Nat.le_of_not_lt hn

/-- A later run takes the place of what is known. -/
theorem latest_of_lt {known : Option Slot} (h : ∀ slot, known = some slot → slot.runId < n) :
    latest n v known = ⟨n, v⟩ := by
  cases known with
  | none => rfl
  | some slot =>
    have hlt := h slot rfl
    have hn : ¬ n < slot.runId := by omega
    simp [latest, hn]

/-- The later of two is one of the two. -/
theorem latest_cases (n : Nat) (v : Verdict) (known : Option Slot) :
    known = some (latest n v known) ∨ latest n v known = ⟨n, v⟩ := by
  cases known with
  | none => exact .inr rfl
  | some slot =>
    by_cases hn : n < slot.runId
    · exact .inl (by simp [latest, hn])
    · exact .inr (by simp [latest, hn])

/-- A report never puts an earlier run in the place of a later one. -/
theorem runId_le_of_get?_apply (h : b.slots.get? d = some slot) :
    ∃ slot', (b.apply p n v).slots.get? d = some slot' ∧ slot.runId ≤ slot'.runId := by
  by_cases hp : p.same d = true
  · refine ⟨_, get?_apply_of_same hp, ?_⟩
    rw [h]
    exact runId_le_latest n v slot
  · exact ⟨slot, (get?_apply_of_not_same hp).trans h, Nat.le_refl _⟩

/-! ### Documents of a schema -/

/-- A document that was validated against a schema is one of its documents. -/
theorem mem_dependents {o : Outcome} {schema : Path} (ho : b.outcome? d = some o)
    (hs : o.schema.same schema = true) : ∃ p ∈ b.dependents schema, p.same d = true := by
  obtain ⟨slot, hslot, hout⟩ := Option.bind_eq_some_iff.1 ho
  obtain ⟨p, hmem, hp⟩ := PathMap.mem_of_get? hslot
  refine ⟨p, ?_, hp⟩
  unfold dependents Path.sort
  rw [List.mem_mergeSort]
  refine List.mem_map.2 ⟨(p, slot), List.mem_filter.2 ⟨hmem, ?_⟩, rfl⟩
  simp [dependsOn, hout, hs]

theorem distinct_apply (h : b.slots.Distinct) (p : Path) (n : Nat) (v : Verdict) :
    (b.apply p n v).slots.Distinct := by
  unfold apply
  split
  · split
    · exact h
    · exact h.insert _ _
  · exact h.insert _ _

/-- The documents of a schema are those with an outcome against it, and no others. -/
theorem mem_dependents_iff {schema : Path} (h : b.slots.Distinct) :
    (∃ p ∈ b.dependents schema, p.same d = true) ↔
      ∃ o, b.outcome? d = some o ∧ o.schema.same schema = true := by
  constructor
  · rintro ⟨p, hp, hpd⟩
    unfold dependents Path.sort at hp
    rw [List.mem_mergeSort] at hp
    obtain ⟨⟨p', slot⟩, hmem, rfl⟩ := List.mem_map.1 hp
    obtain ⟨hslot, hdepends⟩ := List.mem_filter.1 hmem
    obtain ⟨o, hout, hschema⟩ := (Option.any_eq_true _ _).1 hdepends
    have hget : b.slots.get? d = some slot := by
      rw [← b.slots.get?_congr (Path.same_iff.1 hpd)]
      exact PathMap.get?_of_mem h hslot
    exact ⟨o, by simp [outcome?, hget, hout], hschema⟩
  · rintro ⟨o, ho, hs⟩
    exact mem_dependents ho hs

/-! ### All outcomes -/

/-- Every outcome is filed under the document that it is of. -/
def Filed (b : Board) : Prop :=
  ∀ e ∈ b.slots, ∀ o, outcomeOf? e.2 = some o → o.document.same e.1 = true

theorem outcomes_perm (b : Board) :
    b.outcomes.Perm (b.slots.filterMap fun e => outcomeOf? e.2) :=
  List.mergeSort_perm _ _

theorem mem_outcomes {o : Outcome} :
    o ∈ b.outcomes ↔ ∃ e ∈ b.slots, outcomeOf? e.2 = some o := by
  rw [b.outcomes_perm.mem_iff, List.mem_filterMap]

/-- The outcomes are those that are present for some document. -/
theorem outcome?_eq_some_iff {o : Outcome} (h : b.slots.Distinct) (hfiled : b.Filed) :
    b.outcome? d = some o ↔ o ∈ b.outcomes ∧ o.document.same d = true := by
  rw [mem_outcomes]
  constructor
  · intro ho
    obtain ⟨slot, hslot, hout⟩ := Option.bind_eq_some_iff.1 ho
    obtain ⟨q, hmem, hq⟩ := PathMap.mem_of_get? hslot
    exact ⟨⟨(q, slot), hmem, hout⟩, Path.same_trans (hfiled _ hmem o hout) hq⟩
  · rintro ⟨⟨⟨q, slot⟩, hmem, hout⟩, hd⟩
    have hq : q.components = d.components :=
      (Path.same_iff.1 (hfiled _ hmem o hout)).symm.trans (Path.same_iff.1 hd)
    have hget : b.slots.get? d = some slot := by
      rw [← b.slots.get?_congr hq]
      exact PathMap.get?_of_mem h hmem
    simp [outcome?, hget, hout]

/-- The outcomes are in the order of their documents, and no two are of one document. -/
theorem pairwise_outcomes (h : b.slots.Distinct) (hfiled : b.Filed) :
    b.outcomes.Pairwise fun o o' => o.document.compare o'.document = .lt := by
  have hsorted : b.outcomes.Pairwise fun o o' => o.document.le o'.document = true :=
    @List.pairwise_mergeSort Outcome (fun o o' => o.document.le o'.document)
      (fun _ _ _ => Path.le_trans) (fun _ _ => Path.le_total _ _) _
  have hdistinct : b.outcomes.Pairwise fun o o' => ¬ o.document.same o'.document = true := by
    refine (b.outcomes_perm.pairwise_iff Path.not_same_symm).2
      (List.pairwise_filterMap.2 (List.Pairwise.imp_of_mem ?_ h))
    intro e f he hf hne o ho o' ho' hsame
    have hown := hfiled e he o ho
    have hown' := hfiled f hf o' ho'
    exact hne (Path.same_trans (Path.same_symm hown) (Path.same_trans hsame hown'))
  exact (hsorted.and hdistinct).imp fun hle => Path.compare_eq_lt hle.1 hle.2

/-- The number of errors of what a slot holds. -/
def slotErrors (slot : Slot) : Nat :=
  (outcomeOf? slot).elim 0 (·.errors.length)

theorem errorCount_eq (b : Board) :
    b.errorCount = (b.slots.map fun e => slotErrors e.2).sum := by
  rw [List.sum_eq_foldr, List.foldr_map]
  rfl

theorem errorCount_eq_sum (b : Board) :
    b.errorCount = (b.outcomes.map fun o => o.errors.length).sum := by
  rw [(b.outcomes_perm.map _).sum_nat, errorCount_eq]
  unfold slotErrors
  induction b.slots with
  | nil => rfl
  | cons e rest ih =>
    rw [List.map_cons, List.sum_cons, ih]
    cases he : outcomeOf? e.2 with
    | none => simp [he]
    | some o => simp [he]

/-- The first report on a document adds its errors to the count. -/
theorem errorCount_apply_of_unknown (h : b.slots.get? p = none) :
    (b.apply p n v).errorCount = b.errorCount + slotErrors ⟨n, v⟩ := by
  have happly : (b.apply p n v).slots = b.slots ++ [(p, ⟨n, v⟩)] := by
    unfold apply
    rw [h]
    exact PathMap.insert_of_unknown h _
  rw [errorCount_eq, errorCount_eq, happly]
  simp

end Board

end DocSchema
