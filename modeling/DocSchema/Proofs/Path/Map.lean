/-
  DocSchema/Proofs/Path/Map.lean
  ==============================
  **Tables by path, entry by entry.**

  As long as no path has two entries (`Distinct`), the entries of a table are what look-ups find
  (`get?_of_mem`).  To set a path adds an entry or changes one; to remove a path takes one entry out
  and leaves the others where they are (`exists_erase_eq`).
-/
import DocSchema.Path.Map

namespace DocSchema

namespace PathMap

variable {α : Type}

/-- What a look-up finds stands in the table, at some spelling of the path. -/
theorem mem_of_get? {m : PathMap α} {p : Path} {a : α} (h : m.get? p = some a) :
    ∃ q, (q, a) ∈ m ∧ q.same p = true := by
  induction m with
  | nil => cases h
  | cons e rest ih =>
    obtain ⟨q, b⟩ := e
    simp only [get?] at h
    split at h
    · rename_i hq
      cases h
      exact ⟨q, List.mem_cons_self, hq⟩
    · obtain ⟨q', hmem, hq'⟩ := ih h
      exact ⟨q', List.mem_cons_of_mem _ hmem, hq'⟩

/-- No path has two entries, however it is spelled. -/
def Distinct (m : PathMap α) : Prop :=
  m.Pairwise fun e f => ¬ e.1.same f.1 = true

theorem get?_of_mem {m : PathMap α} (hm : m.Distinct) {p : Path} {a : α} (h : (p, a) ∈ m) :
    m.get? p = some a := by
  induction m with
  | nil => cases h
  | cons e rest ih =>
    obtain ⟨q, b⟩ := e
    obtain ⟨hfirst, hrest⟩ := List.pairwise_cons.1 hm
    rcases List.mem_cons.1 h with heq | hmem
    · cases heq
      simp [get?, Path.same]
    · have hq : ¬ q.same p = true := hfirst (p, a) hmem
      simpa [get?, hq] using ih hrest hmem

/-- An insertion makes an entry for the new path or keeps the paths there are. -/
theorem path_of_mem_insert {m : PathMap α} {p : Path} {a : α} {e : Path × α}
    (h : e ∈ m.insert p a) : e.1 = p ∨ ∃ f ∈ m, f.1 = e.1 := by
  induction m with
  | nil =>
    have he : e = (p, a) := by simpa [insert] using h
    exact .inl (by rw [he])
  | cons f rest ih =>
    by_cases hf : f.1.same p = true
    · simp only [insert, hf, if_true] at h
      rcases List.mem_cons.1 h with rfl | hmem
      · exact .inr ⟨f, List.mem_cons_self, rfl⟩
      · exact .inr ⟨e, List.mem_cons_of_mem _ hmem, rfl⟩
    · simp only [insert, hf] at h
      rcases List.mem_cons.1 h with rfl | hmem
      · exact .inr ⟨f, List.mem_cons_self, rfl⟩
      · obtain hp | ⟨f', hf', heq⟩ := ih hmem
        · exact .inl hp
        · exact .inr ⟨f', List.mem_cons_of_mem _ hf', heq⟩

theorem Distinct.insert {m : PathMap α} (hm : m.Distinct) (p : Path) (a : α) :
    (m.insert p a).Distinct := by
  induction m with
  | nil => exact List.pairwise_singleton _ _
  | cons f rest ih =>
    obtain ⟨hfirst, hrest⟩ := List.pairwise_cons.1 hm
    by_cases hf : f.1.same p = true
    · simp only [PathMap.insert, hf, if_true]
      exact List.pairwise_cons.2 ⟨hfirst, hrest⟩
    · simp only [PathMap.insert, hf]
      refine List.pairwise_cons.2 ⟨fun e he => ?_, ih hrest⟩
      obtain hp | ⟨f', hf', heq⟩ := path_of_mem_insert he
      · rwa [hp]
      · rw [← heq]
        exact hfirst f' hf'

theorem insert_of_unknown {m : PathMap α} {p : Path} (h : m.get? p = none) (a : α) :
    m.insert p a = m ++ [(p, a)] := by
  induction m with
  | nil => rfl
  | cons e rest ih =>
    obtain ⟨q, b⟩ := e
    simp only [get?] at h
    split at h
    · cases h
    · rename_i hq
      simp [insert, hq, ih h]

theorem erase_of_unknown {m : PathMap α} {p : Path} (h : m.get? p = none) : m.erase p = m := by
  induction m with
  | nil => rfl
  | cons e rest ih =>
    obtain ⟨q, b⟩ := e
    simp only [get?] at h
    split at h
    · cases h
    · rename_i hq
      have hrest : rest.filter (fun e => !e.1.same p) = rest := ih h
      simp [erase, hq, hrest]

theorem Distinct.erase {m : PathMap α} (hm : m.Distinct) (p : Path) : (m.erase p).Distinct :=
  List.Pairwise.filter _ hm

/-- The entry of a path is taken out from between the others. -/
theorem exists_erase_eq {m : PathMap α} (hm : m.Distinct) {p : Path} {a : α}
    (h : m.get? p = some a) : ∃ before q after, m = before ++ (q, a) :: after ∧
      q.same p = true ∧ m.erase p = before ++ after := by
  induction m with
  | nil => cases h
  | cons e rest ih =>
    obtain ⟨q, b⟩ := e
    obtain ⟨hfirst, hrest⟩ := List.pairwise_cons.1 hm
    simp only [get?] at h
    split at h
    · rename_i hq
      cases h
      have hothers : rest.filter (fun e => !e.1.same p) = rest := by
        refine List.filter_eq_self.2 fun e he => ?_
        have hne : ¬ e.1.same p = true := fun hep =>
          hfirst e he (Path.same_trans hq (Path.same_symm hep))
        simp [hne]
      exact ⟨[], q, rest, rfl, hq, by simp [PathMap.erase, hq, hothers]⟩
    · rename_i hq
      obtain ⟨before, q', after, hsplit, hq', herase⟩ := ih hrest h
      refine ⟨(q, b) :: before, q', after, by rw [hsplit]; rfl, hq', ?_⟩
      simp only [PathMap.erase] at herase
      simp [PathMap.erase, hq, herase]

end PathMap

end DocSchema
