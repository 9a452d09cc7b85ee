/-
  DocSchema/Proofs/Workspace/LastRun.lean
  =======================================
  **The last run wins, in whatever order the runs end.**

  The operations of a session take their numbers, read and report at any time, and other
  operations may run between these actions.  An operation *records* a verdict when it has come
  to its end (`Records`): a validation records what it made of a text that it read after it had
  taken its number.

  The invariant (`Consistent`) relates the numbers taken to the slots of the board: no number is
  taken twice, every slot has been recorded by some operation, and no operation that has
  recorded is later than the slot.  Reports are the only changes that it depends on, and a
  report leaves the later of two runs (`Board.get?_apply_of_same`).
-/
import Mathlib.Data.List.Pairwise
import DocSchema.Proofs.Board
import DocSchema.Proofs.Workspace.Operation

namespace DocSchema.Workspace

open DocSchema.Program

/-! ### What an operation records -/

/-- `Records b d n v`: the operation `b` has come to its end, has reported on `d` with the
number `n`, and its result is `v`.  Its observations are listed in the order in which it made
them: the state it took the number from, what it read, and what the work on that took. -/
inductive Records [Retrieval] : Progress repertoire → Path → Nat → Verdict → Prop
  | revalidate {p d : Path} {w w' : Workspace} {reply : Except HostError String}
      {work : List (Observation Workspace)} {result : RunResult} (hd : p.same d = true)
      (hwork : (judge p (w.runs + 1) reply).Leads work (.done result)) :
      Records ⟨Operation.revalidate p,
        .saw w :: .heard (.readText p) reply :: (work ++ [.saw w'])⟩ d (w.runs + 1) result.verdict
  | forget {p d : Path} {w w' : Workspace} (hd : p.same d = true) :
      Records ⟨Operation.forget p, [.saw w, .saw w']⟩ d (w.runs + 1) .cleared

section Records

variable [Retrieval] {b : Progress repertoire} {d : Path} {n : Nat} {v : Verdict}
  {o : Operation} {seen : List (Observation Workspace)}

/-- An operation that records is at its end. -/
theorem Records.leads (h : Records b d n v) :
    ∃ r, (Operation.program b.operation).Leads b.seen (.done r) ∧
      Operation.verdict b.operation r = v := by
  cases h with
  | @revalidate p d w w' reply work result hd hwork =>
    refine ⟨result, ?_, rfl⟩
    have hend : (Operation.conclude (.revalidate p) (w.runs + 1) result).Leads [.saw w']
        (.done result) := .step (.refl _)
    rw [Operation.program_eq]
    exact .step (.ask (hwork.bind hend))
  | forget hd => exact ⟨(), .step (.step (.refl _)), rfl⟩

theorem Records.number? (h : Records b d n v) : Operation.number? b.seen = some n := by
  cases h with
  | revalidate hd hwork => rfl
  | forget hd => rfl

theorem Records.on (h : Records b d n v) : Operation.On d b.operation := by
  cases h with
  | revalidate hd hwork => exact ⟨_, rfl, hd⟩
  | forget hd => exact ⟨_, rfl, hd⟩

/-- A report is the last action of an operation. -/
theorem Records.getLast? (h : Records b d n v) : ∃ w, b.seen.getLast? = some (.saw w) := by
  cases h with
  | @revalidate p d w w' reply work result hd hwork =>
    refine ⟨w', ?_⟩
    rw [← List.cons_append, ← List.cons_append]
    exact List.getLast?_concat
  | @forget p d w w' hd => exact ⟨w', rfl⟩

/-- An operation on a document that is at its end has recorded its result. -/
theorem records_of_leads {r : o.Result} (h : o.program.Leads seen (.done r)) (hd : o.On d) :
    ∃ n, Operation.number? seen = some n ∧
      Records ⟨o, seen⟩ d n (o.verdict r) := by
  obtain ⟨p, hp, hd⟩ := hd
  obtain ⟨rfl, hleft⟩ | ⟨w, later, rfl, ⟨q, hq, hleft⟩ | ⟨p', r', before, w', -, rfl, hwork, hleft⟩⟩ :=
    Operation.leads_cases h
  · rw [Operation.program_eq] at hleft
    cases hleft
  · -- before its report, an operation on a document is not done
    cases q with
    | done r' => simp [Program.bind, Operation.conclude, hp] at hleft
    | step change rest => cases hleft
    | ask q rest => cases hleft
  · cases hleft
    refine ⟨_, rfl, ?_⟩
    cases o with
    | revalidate p'' =>
      cases hp
      obtain ⟨rfl, hdone⟩ | ⟨reply, work, rfl, hjudge⟩ := hwork.of_ask
      · cases hdone
      · exact .revalidate hd hjudge
    | forget p'' =>
      cases hp
      obtain ⟨rfl, -⟩ := hwork.of_done
      exact .forget hd
    | validateText p'' text => cases hp

/-- An operation that has something left to do has not recorded yet. -/
theorem not_records_of_leads {left : Program Workspace o.Result} (h : o.program.Leads seen left)
    (hleft : ∀ r, left ≠ .done r) : ¬ Records ⟨o, seen⟩ d n v := by
  intro hrec
  obtain ⟨r, hdone, -⟩ := hrec.leads
  exact hleft r (h.unique hdone)

end Records

/-! ### The invariant -/

/-- How the board and the count of a workspace relate to the operations that have begun. -/
structure Consistent [Retrieval] (w : Workspace) (begun : List (Progress repertoire)) : Prop where
  /-- No number is taken twice. -/
  nodup : (begun.filterMap fun b => Operation.number? b.seen).Nodup
  /-- No number is above the count. -/
  number_le : ∀ b ∈ begun, ∀ n, Operation.number? b.seen = some n → n ≤ w.runs
  /-- What a slot holds, some operation has recorded. -/
  recorded : ∀ d slot, w.board.slots.get? d = some slot →
    ∃ b ∈ begun, Records b d slot.runId slot.verdict
  /-- What an operation has recorded is not later than what the slot holds. -/
  le_slot : ∀ b ∈ begun, ∀ d n v, Records b d n v →
    ∃ slot, w.board.slots.get? d = some slot ∧ n ≤ slot.runId

namespace Consistent

variable [Retrieval] {w : Workspace} {begun begun' others : List (Progress repertoire)}

theorem perm (h : begun.Perm begun') (hw : Consistent w begun) : Consistent w begun' where
  nodup := (h.filterMap _).nodup_iff.1 hw.nodup
  number_le b hb := hw.number_le b (h.mem_iff.2 hb)
  recorded d slot hslot := by
    obtain ⟨b, hb, hrec⟩ := hw.recorded d slot hslot
    exact ⟨b, h.mem_iff.1 hb, hrec⟩
  le_slot b hb := hw.le_slot b (h.mem_iff.2 hb)

theorem ofSettings (settings : Settings) : Consistent (.ofSettings settings) [] where
  nodup := List.nodup_nil
  number_le b hb := absurd hb List.not_mem_nil
  recorded d slot hslot := by cases hslot
  le_slot b hb := absurd hb List.not_mem_nil

theorem storeOnly {change : Workspace → Workspace} (hchange : StoreOnly change)
    (hw : Consistent w begun) : Consistent (change w) begun := by
  obtain ⟨store, h⟩ := hchange w
  rw [h]
  exact ⟨hw.nodup, hw.number_le, hw.recorded, hw.le_slot⟩

/-- An operation goes on, with the number it had, and without an end of its own. -/
theorem advance {o : Operation} {seen seen' : List (Observation Workspace)}
    (hnumber : Operation.number? seen' = Operation.number? seen)
    (hold : ∀ d n v, ¬ Records ⟨o, seen⟩ d n v) (hnew : ∀ d n v, ¬ Records ⟨o, seen'⟩ d n v)
    (hw : Consistent w (⟨o, seen⟩ :: others)) : Consistent w (⟨o, seen'⟩ :: others) where
  nodup := by
    have h := hw.nodup
    simp only [List.filterMap_cons] at h ⊢
    rwa [hnumber]
  number_le b hb n hn := by
    rcases List.mem_cons.1 hb with rfl | hb
    · exact hw.number_le _ List.mem_cons_self n (hnumber ▸ hn)
    · exact hw.number_le b (List.mem_cons_of_mem _ hb) n hn
  recorded d slot hslot := by
    obtain ⟨b, hb, hrec⟩ := hw.recorded d slot hslot
    rcases List.mem_cons.1 hb with rfl | hb
    · exact absurd hrec (hold _ _ _)
    · exact ⟨b, List.mem_cons_of_mem _ hb, hrec⟩
  le_slot b hb d n v hrec := by
    rcases List.mem_cons.1 hb with rfl | hb
    · exact absurd hrec (hnew _ _ _)
    · exact hw.le_slot b (List.mem_cons_of_mem _ hb) d n v hrec

/-- An operation begins; it has no number yet. -/
theorem enter (o : Operation) (hw : Consistent w begun) : Consistent w (⟨o, []⟩ :: begun) where
  nodup := hw.nodup
  number_le b hb n hn := by
    rcases List.mem_cons.1 hb with rfl | hb
    · cases hn
    · exact hw.number_le b hb n hn
  recorded d slot hslot := by
    obtain ⟨b, hb, hrec⟩ := hw.recorded d slot hslot
    exact ⟨b, List.mem_cons_of_mem _ hb, hrec⟩
  le_slot b hb d n v hrec := by
    rcases List.mem_cons.1 hb with rfl | hb
    · cases hrec.number?
    · exact hw.le_slot b hb d n v hrec

/-- An operation takes its number, which is above all others. -/
theorem count {o : Operation} (hw : Consistent w (⟨o, []⟩ :: others)) :
    Consistent (countRun w) (⟨o, [.saw w]⟩ :: others) where
  nodup := by
    have h : (others.filterMap fun b => Operation.number? b.seen).Nodup := hw.nodup
    refine List.nodup_cons.2 ⟨fun hmem => ?_, h⟩
    obtain ⟨b, hb, hn⟩ := List.mem_filterMap.1 hmem
    have hle := hw.number_le b (List.mem_cons_of_mem _ hb) _ hn
    omega
  number_le b hb n hn := by
    rcases List.mem_cons.1 hb with rfl | hb
    · cases hn
      exact Nat.le_refl _
    · exact Nat.le_succ_of_le (hw.number_le b (List.mem_cons_of_mem _ hb) n hn)
  recorded d slot hslot := by
    obtain ⟨b, hb, hrec⟩ := hw.recorded d slot hslot
    rcases List.mem_cons.1 hb with rfl | hb
    · cases hrec.number?
    · exact ⟨b, List.mem_cons_of_mem _ hb, hrec⟩
  le_slot b hb d n v hrec := by
    rcases List.mem_cons.1 hb with rfl | hb
    · cases hrec
    · exact hw.le_slot b (List.mem_cons_of_mem _ hb) d n v hrec

/-- An operation reports, and so comes to its end. -/
theorem report {o : Operation} {seen : List (Observation Workspace)} {p : Path} {n : Nat}
    {r : o.Result} (hp : o.subject? = some p) (hnumber : Operation.number? seen = some n)
    (hold : ∀ d n v, ¬ Records ⟨o, seen⟩ d n v)
    (hdone : o.program.Leads (seen ++ [.saw w]) (.done r))
    (hw : Consistent w (⟨o, seen⟩ :: others)) :
    Consistent (reported p n (o.verdict r) w) (⟨o, seen ++ [.saw w]⟩ :: others) := by
  have hnumber' : Operation.number? (seen ++ [.saw w]) = some n := by
    have hseen : seen ≠ [] := by
      rintro rfl
      cases hnumber
    rw [Operation.number?_concat hseen, hnumber]
  have hnew : ∀ d, p.same d = true → Records ⟨o, seen ++ [.saw w]⟩ d n (o.verdict r) := by
    intro d hd
    obtain ⟨n', hn', hrec⟩ := records_of_leads hdone ⟨p, hp, hd⟩
    rw [hnumber'] at hn'
    cases hn'
    exact hrec
  refine ⟨?_, fun b hb m hm => ?_, fun d slot hslot => ?_, fun b hb d m v hrec => ?_⟩
  · have h := hw.nodup
    simp only [List.filterMap_cons] at h ⊢
    rw [hnumber] at h
    rwa [hnumber']
  · rcases List.mem_cons.1 hb with rfl | hb
    · exact hw.number_le _ List.mem_cons_self m (hnumber.trans (hnumber'.symm.trans hm))
    · exact hw.number_le b (List.mem_cons_of_mem _ hb) m hm
  · -- a slot is as it was, or it is what this operation has recorded
    have hkept : w.board.slots.get? d = some slot →
        ∃ b ∈ ⟨o, seen ++ [.saw w]⟩ :: others, Records b d slot.runId slot.verdict := by
      intro hslot
      obtain ⟨b, hb, hrec⟩ := hw.recorded d slot hslot
      rcases List.mem_cons.1 hb with rfl | hb
      · exact absurd hrec (hold _ _ _)
      · exact ⟨b, List.mem_cons_of_mem _ hb, hrec⟩
    by_cases hd : p.same d = true
    · have hslot' := (Board.get?_apply_of_same hd).symm.trans hslot
      rcases Board.latest_cases n (o.verdict r) (w.board.slots.get? d) with h | h
      · exact hkept (h.trans hslot')
      · rw [h] at hslot'
        cases hslot'
        exact ⟨_, List.mem_cons_self, hnew d hd⟩
    · exact hkept ((Board.get?_apply_of_not_same hd).symm.trans hslot)
  · rcases List.mem_cons.1 hb with rfl | hb
    · have hm := hrec.number?
      rw [hnumber'] at hm
      cases hm
      obtain ⟨p', hp', hd⟩ := hrec.on
      rw [hp] at hp'
      cases hp'
      exact ⟨_, Board.get?_apply_of_same hd, Board.le_runId_latest _ _ _⟩
    · obtain ⟨slot, hslot, hle⟩ := hw.le_slot b (List.mem_cons_of_mem _ hb) d m v hrec
      obtain ⟨slot', hslot', hle'⟩ := Board.runId_le_of_get?_apply hslot
      exact ⟨slot', hslot', Nat.le_trans hle hle'⟩

/-- Operations of one number are one operation. -/
theorem eq_of_number? (hw : Consistent w begun) {b b' : Progress repertoire} (hb : b ∈ begun)
    (hb' : b' ∈ begun) {n : Nat} (hn : Operation.number? b.seen = some n)
    (hn' : Operation.number? b'.seen = some n) : b = b' := by
  by_contra hne
  have hsymm : Std.Symm fun x y : Progress repertoire => ∀ m, Operation.number? x.seen = some m →
      ∀ m', Operation.number? y.seen = some m' → m ≠ m' :=
    ⟨fun x y h m hm m' hm' => (h m' hm' m hm).symm⟩
  exact (List.pairwise_filterMap.1 hw.nodup).forall hb hb' hne n hn n hn' rfl

/-- Whatever happens in a session keeps board, count and operations consistent. -/
theorem effect {w' : Workspace} (h : Effect (R := repertoire) (w, begun) (w', begun'))
    (hw : Consistent w begun) : Consistent w' begun' := by
  cases h with
  | none => exact hw
  | idle hidle => exact hw.storeOnly hidle
  | enter o => exact hw.enter o
  | @change _ _ o seen change next hleads =>
    have hold : ∀ d n v, ¬ Records ⟨o, seen⟩ d n v := fun d n v =>
      not_records_of_leads hleads fun r hr => by cases hr
    obtain ⟨rfl, rfl⟩ | ⟨hseen, hstore, hnext⟩ | ⟨n, p, r, hn, hp, rfl, rfl⟩ :=
      Operation.change_cases hleads
    · exact hw.count
    · refine (hw.storeOnly hstore).advance ?_ hold fun d n v hrec => ?_
      · exact Operation.number?_concat hseen _
      · obtain ⟨r, hdone, -⟩ := hrec.leads
        exact hnext d hrec.on w r ((hleads.saw w).unique hdone)
    · exact hw.report hp hn hold (hleads.saw w)
  | @hear _ _ o seen q next r hleads =>
    have hold : ∀ d n v, ¬ Records ⟨o, seen⟩ d n v := fun d n v =>
      not_records_of_leads hleads fun r hr => by cases hr
    refine hw.advance ?_ hold fun d n v hrec => ?_
    · exact Operation.number?_concat (Operation.seen_ne_nil_of_ask hleads) _
    · obtain ⟨v, hv⟩ := hrec.getLast?
      simp at hv

end Consistent

theorem consistent_of_reachable [Retrieval] {settings : Settings} {S : Session repertoire}
    (hS : S.Reachable (.ofSettings settings)) : Consistent S.state S.begun :=
  Session.Reachable.induct (P := Consistent) (fun h hw => hw.perm h) (.ofSettings settings)
    (fun h hw => hw.effect h) hS

/-! ### The last run wins -/

/-- No operation on the document is under way. -/
def Quiet [Retrieval] (S : Session repertoire) (d : Path) : Prop :=
  ∀ t ∈ S.threads, ∀ b, t.progress? = some b → ¬ Operation.On d b.operation

/-- The number in a slot never decreases. -/
theorem runId_le_of_effect [Retrieval] {w w' : Workspace}
    {begun begun' : List (Progress repertoire)}
    (h : Effect (R := repertoire) (w, begun) (w', begun')) {d : Path} {slot : Slot}
    (hslot : w.board.slots.get? d = some slot) :
    ∃ slot', w'.board.slots.get? d = some slot' ∧ slot.runId ≤ slot'.runId := by
  have hstoreOnly : ∀ {change : Workspace → Workspace}, StoreOnly change →
      ∃ slot', (change w).board.slots.get? d = some slot' ∧ slot.runId ≤ slot'.runId := by
    intro change hchange
    obtain ⟨store, hw⟩ := hchange w
    exact ⟨slot, by rw [hw]; exact hslot, Nat.le_refl _⟩
  cases h with
  | none => exact ⟨slot, hslot, Nat.le_refl _⟩
  | idle hidle => exact hstoreOnly hidle
  | enter o => exact ⟨slot, hslot, Nat.le_refl _⟩
  | change hleads =>
    obtain ⟨-, rfl⟩ | ⟨-, hstore, -⟩ | ⟨n, p, r, -, -, rfl, -⟩ := Operation.change_cases hleads
    · exact ⟨slot, hslot, Nat.le_refl _⟩
    · exact hstoreOnly hstore
    · exact Board.runId_le_of_get?_apply hslot
  | hear r hleads => exact ⟨slot, hslot, Nat.le_refl _⟩

theorem runId_le_of_leads [Retrieval] {S S' : Session repertoire} (hS : S.Faithful) (h : S.Leads S')
    {d : Path} {slot : Slot} (hslot : S.state.board.slots.get? d = some slot) :
    ∃ slot', S'.state.board.slots.get? d = some slot' ∧ slot.runId ≤ slot'.runId := by
  induction h with
  | refl => exact ⟨slot, hslot, Nat.le_refl _⟩
  | tail hleads hstep ih =>
    obtain ⟨slot', hslot', hle⟩ := ih
    obtain ⟨begun, begun', -, -, heffect⟩ := hstep.effect (hS.leads hleads)
    obtain ⟨slot'', hslot'', hle'⟩ := runId_le_of_effect heffect hslot'
    exact ⟨slot'', hslot'', Nat.le_trans hle hle'⟩

/-- When no operation on a document is under way, its slot holds what the operation with the
greatest number has recorded; where there is no slot, there has been no operation. -/
theorem slot_of_quiet [Retrieval] {settings : Settings} {S : Session repertoire}
    (hS : S.Reachable (.ofSettings settings)) {d : Path} (hquiet : Quiet S d) :
    match S.state.board.slots.get? d with
    | none => ∀ c ∈ S.ended, ¬ Operation.On d c.operation
    | some slot => ∃ c ∈ S.ended, Records c.progress d slot.runId slot.verdict ∧
        Operation.verdict c.operation c.result = slot.verdict ∧
        ∀ c' ∈ S.ended, Operation.On d c'.operation → c' = c ∨
          ∃ n, Operation.number? c'.seen = some n ∧ n < slot.runId := by
  have hw := consistent_of_reachable hS
  have hended : ∀ c ∈ S.ended, c.progress ∈ S.begun := fun c hc =>
    List.mem_append_right _ (List.mem_map_of_mem hc)
  have hrecords : ∀ c ∈ S.ended, Operation.On d c.operation →
      ∃ n, Operation.number? c.seen = some n ∧
        Records c.progress d n (Operation.verdict c.operation c.result) := fun c hc hd =>
    records_of_leads (hS.faithful.ended c hc) hd
  cases hslot : S.state.board.slots.get? d with
  | none =>
    intro c hc hd
    obtain ⟨n, -, hrec⟩ := hrecords c hc hd
    obtain ⟨slot, hsome, -⟩ := hw.le_slot _ (hended c hc) d n _ hrec
    rw [hslot] at hsome
    cases hsome
  | some slot =>
    obtain ⟨b, hb, hrec⟩ := hw.recorded d slot hslot
    rcases List.mem_append.1 hb with hb | hb
    · -- an operation that has recorded but not ended is under way
      obtain ⟨t, ht, hprogress⟩ := List.mem_filterMap.1 hb
      exact absurd hrec.on (hquiet t ht b hprogress)
    · obtain ⟨c, hc, rfl⟩ := List.mem_map.1 hb
      refine ⟨c, hc, hrec, ?_, fun c' hc' hd => ?_⟩
      · obtain ⟨r, hleads, hr⟩ := hrec.leads
        have hdone := hleads.unique (hS.faithful.ended c hc)
        cases hdone
        exact hr
      · obtain ⟨n, hn, hrec'⟩ := hrecords c' hc' hd
        obtain ⟨slot', hslot', hle⟩ := hw.le_slot _ (hended c' hc') d n _ hrec'
        rw [hslot] at hslot'
        cases hslot'
        rcases Nat.lt_or_eq_of_le hle with hlt | heq
        · exact .inr ⟨n, hn, hlt⟩
        · have hprogress := hw.eq_of_number? (hended c' hc') (hended c hc) (heq ▸ hn) hrec.number?
          exact .inl (hS.faithful.call_eq hc' hc hprogress)

/-- Where an outcome or a failure is present, the slot has not been cleared. -/
theorem verdict_ne_cleared {b : Board} {d : Path}
    (h : (b.outcome? d).isSome ∨ (b.failure? d).isSome) :
    ∃ slot, b.slots.get? d = some slot ∧ slot.verdict ≠ .cleared := by
  unfold Board.outcome? Board.failure? at h
  cases hslot : b.slots.get? d with
  | none => simp [hslot] at h
  | some slot =>
    refine ⟨slot, rfl, fun hcleared => ?_⟩
    simp [hslot, hcleared, Board.outcomeOf?] at h

/-- Once a document has been forgotten, only a later run makes a result of it present. -/
theorem runId_lt_of_forgotten [Retrieval] {settings : Settings} {S S' : Session repertoire}
    (hS : S.Reachable (.ofSettings settings)) (h : S.Leads S') {d p : Path} (hp : p.same d = true)
    {seen : List (Observation Workspace)} (hc : ⟨Operation.forget p, seen, ()⟩ ∈ S.ended) {n : Nat}
    (hn : Operation.number? seen = some n)
    (hpresent : (S'.state.board.outcome? d).isSome ∨ (S'.state.board.failure? d).isSome) :
    ∃ slot, S'.state.board.slots.get? d = some slot ∧ n < slot.runId ∧
      ∃ b ∈ S'.begun, Records b d slot.runId slot.verdict := by
  have hw := consistent_of_reachable (hS.trans h)
  obtain ⟨slot', hslot', hcleared⟩ := verdict_ne_cleared hpresent
  obtain ⟨b, hb, hrec⟩ := hw.recorded d slot' hslot'
  refine ⟨slot', hslot', ?_, b, hb, hrec⟩
  -- the slot has not fallen below the number of the operation that forgot the document
  have hleads : (Operation.program (.forget p)).Leads seen (.done ()) := hS.faithful.ended _ hc
  obtain ⟨m, hm, hforget⟩ := records_of_leads hleads ⟨p, rfl, hp⟩
  rw [hn] at hm
  cases hm
  have hbegun : (⟨Operation.forget p, seen⟩ : Progress repertoire) ∈ S'.begun := by
    have hended := Session.ended_subset_of_leads h hc
    exact List.mem_append_right _ (List.mem_map_of_mem (f := Call.progress) hended)
  obtain ⟨slot, hslot, hle⟩ := hw.le_slot _ hbegun d n _ hforget
  rw [hslot'] at hslot
  cases hslot
  refine Nat.lt_of_le_of_ne hle fun heq => ?_
  -- its own report cleared the slot
  have hsame := hw.eq_of_number? hb hbegun hrec.number? (heq ▸ hn)
  subst hsame
  obtain ⟨r, -, hr⟩ := hrec.leads
  exact hcleared hr.symm

/-- The last run wins, for any order of the actions of any number of operations.  The number in a
slot never decreases.  When all operations on a document have ended, its slot holds what the one
with the greatest number has found, and a validation has read the document after it took that
number.  Once a document has been forgotten, no earlier run makes a result of it present. -/
theorem last_run_wins [Retrieval] {settings : Settings} {S : Session repertoire}
    (hS : S.Reachable (.ofSettings settings)) (d : Path) :
    (∀ S', S.Leads S' → ∀ slot, S.state.board.slots.get? d = some slot →
      ∃ slot', S'.state.board.slots.get? d = some slot' ∧ slot.runId ≤ slot'.runId) ∧
    (Quiet S d →
      match S.state.board.slots.get? d with
      | none => ∀ c ∈ S.ended, ¬ Operation.On d c.operation
      | some slot => ∃ c ∈ S.ended, Records c.progress d slot.runId slot.verdict ∧
          Operation.verdict c.operation c.result = slot.verdict ∧
          ∀ c' ∈ S.ended, Operation.On d c'.operation → c' = c ∨
            ∃ n, Operation.number? c'.seen = some n ∧ n < slot.runId) ∧
    ∀ p seen n, p.same d = true → ⟨Operation.forget p, seen, ()⟩ ∈ S.ended →
      Operation.number? seen = some n → ∀ S', S.Leads S' →
        (S'.state.board.outcome? d).isSome ∨ (S'.state.board.failure? d).isSome →
        ∃ slot, S'.state.board.slots.get? d = some slot ∧ n < slot.runId ∧
          ∃ b ∈ S'.begun, Records b d slot.runId slot.verdict := by
  refine ⟨fun S' h slot hslot => ?_, fun hquiet => ?_, fun p seen n hp hc hn S' h hpresent => ?_⟩
  · exact runId_le_of_leads hS.faithful h hslot
  · exact slot_of_quiet hS hquiet
  · exact runId_lt_of_forgotten hS h hp hc hn hpresent

/-- A session in which a validation finds no file, and reports after its document has been
forgotten. -/
def lateReport : Session repertoire :=
  let d : Path := ⟨"a.md"⟩
  let w : Workspace := .ofSettings {}
  let e : HostError := ⟨"not found"⟩
  let failure : ValidateError := .documentRead d e
  let forgotten := reported d 2 .cleared (countRun (countRun w))
  { state := reported d 1 (.failed failure.message) forgotten
    threads := [.outside (.done ()), .outside (.done ())]
    ended :=
      [⟨Operation.revalidate d,
          [.saw w, .heard (.readText d) (.error e), .saw forgotten], .error failure⟩,
        ⟨Operation.forget d, [.saw (countRun w), .saw (countRun (countRun w))], ()⟩] }

theorem reachable_lateReport : lateReport.Reachable (.ofSettings {}) := by
  let d : Path := ⟨"a.md"⟩
  let w : Workspace := .ofSettings {}
  let reply : (Request.readText d).Reply := .error ⟨"not found"⟩
  let forgetting : Thread repertoire :=
    .outside ((repertoire.program (Operation.forget d)).bind .done)
  have hstart : Session.Reachable (R := repertoire) w ⟨w, [], []⟩ := .refl
  -- the validation takes its number and reads
  have hread := ((hstart.tail (.start (.revalidate d))).tail
    (.first (.enter (R := repertoire) (Operation.revalidate d)))).tail (.first .change)
  have hheard := hread.tail (.first (.hear reply))
  -- the document is forgotten meanwhile
  have hforget : Session.Reachable (R := repertoire) w
      ⟨countRun w, [forgetting, .inside _ _ _ _], []⟩ := hheard.tail (.start (.forget d))
  have hnumber := (hforget.tail (.first (.enter (R := repertoire) (Operation.forget d)))).tail
    (.first .change)
  have hforgotten := (hnumber.tail (.first .change)).tail (.first .leave)
  exact (hforgotten.tail (.second .change)).tail (.second .leave)

/-- Here the validation comes too late. -/
theorem late_report_loses :
    lateReport.Reachable (.ofSettings {}) ∧ Quiet lateReport ⟨"a.md"⟩ ∧
      ∃ c ∈ lateReport.ended, Records c.progress ⟨"a.md"⟩ 2 .cleared := by
  have hquiet : Quiet lateReport ⟨"a.md"⟩ := by
    intro t ht b hb
    simp only [lateReport, List.mem_cons, List.not_mem_nil, or_false, or_self] at ht
    subst ht
    cases hb
  have hslot : lateReport.state.board.slots.get? ⟨"a.md"⟩ = some ⟨2, .cleared⟩ := rfl
  have h := (last_run_wins reachable_lateReport ⟨"a.md"⟩).2.1 hquiet
  rw [hslot] at h
  obtain ⟨c, hc, hrec, -⟩ := h
  exact ⟨reachable_lateReport, hquiet, c, hc, hrec⟩

end DocSchema.Workspace
