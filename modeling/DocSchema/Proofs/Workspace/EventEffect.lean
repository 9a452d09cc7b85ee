/-
  DocSchema/Proofs/Workspace/EventEffect.lean
  ===========================================
  **What an event does to the board.**

  Handled alone, an event first changes the store, and then performs operations one after the
  other (`alone_handleEvent`): the documents of the schemas are validated again, those that are
  gone are forgotten, and the event's own document is validated again.  Of the operations on a
  document the last one decides what its slot holds (`slot_of_performed`); where there is none,
  the slot stays what it was (`slot_of_not_on`).
-/
import DocSchema.Proofs.Workspace.Views

namespace DocSchema.Workspace

open DocSchema.Json DocSchema.Program DocSchema.Store

variable (host : (q : Request) → q.Reply) {w w' : Workspace} {d p q : Path} {n : Nat}
  {ds : List Path} {s s' : Store}

/-! ### Operations one after the other -/

/-- Performs operations alone, one after the other. -/
def performed [Retrieval] (host : (q : Request) → q.Reply) (os : List Operation) (w : Workspace) :
    Workspace :=
  os.foldl (fun w o => (o.program.alone host w).2) w

theorem performed_append [Retrieval] (os os' : List Operation) (w : Workspace) :
    performed host (os ++ os') w = performed host os' (performed host os w) :=
  List.foldl_append

/-- Every operation reports on some document. -/
def AllReport (os : List Operation) : Prop :=
  ∀ o ∈ os, ∃ p, o.subject? = some p

/-- How far operations may take a workspace. -/
structure Later (host : (q : Request) → q.Reply) (w w' : Workspace) : Prop where
  settings : w'.settings = w.settings
  runs : w.runs ≤ w'.runs
  bounded : Bounded w'
  grown : Grown host w.store w'.store

variable {host} in
theorem Later.refl (hw : Bounded w) : Later host w w :=
  ⟨rfl, Nat.le_refl _, hw, .refl host w.store⟩

variable {host} in
theorem Later.trans {w'' : Workspace} (h : Later host w w') (h' : Later host w' w'') :
    Later host w w'' :=
  ⟨h'.settings.trans h.settings, Nat.le_trans h.runs h'.runs, h'.bounded, h.grown.trans h'.grown⟩

/-- One operation: the slot of its document is new, the others stay. -/
theorem later_of_operation [Retrieval] {o : Operation} (hw : Bounded w) (hp : o.subject? = some p) :
    Later host w (o.program.alone host w).2 ∧
      (∀ d, p.same d = true → (o.program.alone host w).2.board.slots.get? d =
        some ⟨w.runs + 1, o.found host w.store (w.runs + 1)⟩) ∧
      ∀ d, ¬ p.same d = true →
        (o.program.alone host w).2.board.slots.get? d = w.board.slots.get? d := by
  obtain ⟨s, hstate, hgrown⟩ := Operation.alone_program host (w := w) hp
  have hrenews := renews_of_operation hw hp (executes_alone host o.program w)
  refine ⟨⟨hrenews.settings, hrenews.runs, hrenews.bounded, ?_⟩, fun d hd => ?_, fun d hd => ?_⟩
  · rw [hstate]
    exact hgrown
  · rw [hstate]
    have hslot := Board.get?_apply_of_same (b := w.board) (n := w.runs + 1)
      (v := o.found host w.store (w.runs + 1)) hd
    rwa [Board.latest_of_lt fun slot hslot => Nat.lt_succ_of_le (hw d slot hslot)] at hslot
  · exact hrenews.frame d fun ⟨p', hp', hd'⟩ => hd (List.mem_singleton.1 hp' ▸ hd')

theorem later_of_performed [Retrieval] {os : List Operation} (hos : AllReport os) (hw : Bounded w) :
    Later host w (performed host os w) := by
  induction os generalizing w with
  | nil => exact .refl hw
  | cons o os ih =>
    obtain ⟨hself, hrest⟩ := List.forall_mem_cons.1 hos
    obtain ⟨p, hp⟩ := hself
    obtain ⟨hlater, -, -⟩ := later_of_operation host hw hp
    exact hlater.trans (ih hrest hlater.bounded)

theorem slot_of_not_on [Retrieval] {os : List Operation} (hos : AllReport os) (hw : Bounded w)
    (hd : ∀ o ∈ os, ¬ o.On d) :
    (performed host os w).board.slots.get? d = w.board.slots.get? d := by
  induction os generalizing w with
  | nil => rfl
  | cons o os ih =>
    obtain ⟨hself, hrest⟩ := List.forall_mem_cons.1 hos
    obtain ⟨hnot, hothers⟩ := List.forall_mem_cons.1 hd
    obtain ⟨p, hp⟩ := hself
    obtain ⟨hlater, -, hframe⟩ := later_of_operation host hw hp
    exact (ih hrest hlater.bounded hothers).trans (hframe d fun hpd => hnot ⟨p, hp, hpd⟩)

/-- The last operation on a document decides what its slot holds. -/
theorem slot_of_performed [Retrieval] {os : List Operation} (hos : AllReport os) (hw : Bounded w)
    (hd : ∃ o ∈ os, o.On d) : ∃ o ∈ os, o.On d ∧ ∃ s n, Grown host w.store s ∧ w.runs < n ∧
      (performed host os w).board.slots.get? d = some ⟨n, o.found host s n⟩ := by
  induction os generalizing w with
  | nil =>
    obtain ⟨o, ho, -⟩ := hd
    cases ho
  | cons o os ih =>
    obtain ⟨hself, hrest⟩ := List.forall_mem_cons.1 hos
    obtain ⟨p, hp⟩ := hself
    obtain ⟨hlater, hnew, -⟩ := later_of_operation host hw hp
    by_cases hothers : ∃ o ∈ os, o.On d
    · obtain ⟨o', ho', hon, s, n, hgrown, hn, hslot⟩ := ih hrest hlater.bounded hothers
      exact ⟨o', List.mem_cons_of_mem _ ho', hon, s, n, hlater.grown.trans hgrown,
        Nat.lt_of_le_of_lt hlater.runs hn, hslot⟩
    · -- the first one is the last one on the document
      obtain ⟨o', ho', hon⟩ := hd
      rcases List.mem_cons.1 ho' with rfl | ho'
      · refine ⟨o', List.mem_cons_self, hon, w.store, w.runs + 1, .refl host w.store,
          Nat.lt_succ_self _, ?_⟩
        obtain ⟨p', hp', hpd⟩ := hon
        rw [hp] at hp'
        cases hp'
        have hframe := slot_of_not_on host hrest hlater.bounded (d := d)
          fun o ho hon => hothers ⟨o, ho, hon⟩
        exact hframe.trans (hnew d hpd)
      · exact absurd ⟨o', ho', hon⟩ hothers

/-! ### The operations of an event -/

def revalidations (ds : List Path) : List Operation :=
  ds.map .revalidate

def removals (ds : List Path) : List Operation :=
  ds.map .forget

/-- What an event leads to: the documents of its schemas are validated, some are forgotten, and
its own document is validated. -/
def operations (ds gone own : List Path) : List Operation :=
  revalidations ds ++ removals gone ++ revalidations own

theorem removals_append (ds es : List Path) : removals (ds ++ es) = removals ds ++ removals es :=
  List.map_append

theorem allReport_revalidations (ds : List Path) : AllReport (revalidations ds) := by
  intro o ho
  obtain ⟨p, -, rfl⟩ := List.mem_map.1 ho
  exact ⟨p, rfl⟩

theorem allReport_removals (ds : List Path) : AllReport (removals ds) := by
  intro o ho
  obtain ⟨p, -, rfl⟩ := List.mem_map.1 ho
  exact ⟨p, rfl⟩

theorem AllReport.append {os os' : List Operation} (h : AllReport os) (h' : AllReport os') :
    AllReport (os ++ os') :=
  List.forall_mem_append.2 ⟨h, h'⟩

section Operations

variable {gone own : List Path}

theorem allReport_operations (ds gone own : List Path) : AllReport (operations ds gone own) :=
  ((allReport_revalidations ds).append (allReport_removals gone)).append
    (allReport_revalidations own)

theorem mem_operations {o : Operation} : o ∈ operations ds gone own ↔
    (∃ q ∈ ds ++ own, .revalidate q = o) ∨ ∃ q ∈ gone, .forget q = o := by
  simp only [operations, revalidations, removals, List.mem_append, List.mem_map, or_and_right,
    exists_or]
  exact or_right_comm

/-- A document that is forgotten, and not validated after that, ends with a cleared slot. -/
theorem slot_of_gone [Retrieval] (hw : Bounded w) (hd : ∃ q ∈ gone, q.same d = true)
    (hown : ¬ ∃ q ∈ own, q.same d = true) :
    ∃ n, (performed host (operations ds gone own) w).board.slots.get? d = some ⟨n, .cleared⟩ := by
  have hfirst := later_of_performed host (allReport_revalidations ds) hw
  have hsecond := later_of_performed host (allReport_removals gone) hfirst.bounded
  obtain ⟨q, hq, hqd⟩ := hd
  obtain ⟨o, ho, -, s, n, -, -, hslot⟩ := slot_of_performed host
    (allReport_removals gone) hfirst.bounded
    ⟨_, List.mem_map_of_mem (f := Operation.forget) hq, q, rfl, hqd⟩
  obtain ⟨q', -, rfl⟩ := List.mem_map.1 ho
  have hlast : ∀ o ∈ revalidations own, ¬ o.On d := by
    rintro o ho ⟨p, hp, hpd⟩
    obtain ⟨q, hq, rfl⟩ := List.mem_map.1 ho
    cases hp
    exact hown ⟨_, hq, hpd⟩
  refine ⟨n, ?_⟩
  unfold operations
  rw [performed_append, performed_append]
  exact (slot_of_not_on host (allReport_revalidations own) hsecond.bounded hlast).trans hslot

/-- A document that is validated, and not forgotten, ends with the verdict of a validation. -/
theorem slot_of_listed [Retrieval] (hw : Bounded w) (hd : ∃ q ∈ ds ++ own, q.same d = true)
    (hgone : ¬ ∃ q ∈ gone, q.same d = true) :
    ∃ q ∈ ds ++ own, q.same d = true ∧ ∃ s n, Grown host w.store s ∧ w.runs < n ∧
      (performed host (operations ds gone own) w).board.slots.get? d =
        some ⟨n, (resultOf host s q n).verdict⟩ := by
  obtain ⟨q, hq, hqd⟩ := hd
  obtain ⟨o, ho, ⟨p, hp, hpd⟩, s, n, hgrown, hn, hslot⟩ := slot_of_performed host
    (allReport_operations ds gone own) hw ⟨_, mem_operations.2 (.inl ⟨q, hq, rfl⟩), q, rfl, hqd⟩
  obtain ⟨q', hq', rfl⟩ | ⟨q', hq', rfl⟩ := mem_operations.1 ho
  · cases hp
    exact ⟨_, hq', hpd, s, n, hgrown, hn, hslot⟩
  · cases hp
    exact absurd ⟨_, hq', hpd⟩ hgone

theorem slot_of_others [Retrieval] (hw : Bounded w) (hd : ¬ ∃ q ∈ ds ++ own, q.same d = true)
    (hgone : ¬ ∃ q ∈ gone, q.same d = true) :
    (performed host (operations ds gone own) w).board.slots.get? d = w.board.slots.get? d := by
  refine slot_of_not_on host (allReport_operations ds gone own) hw ?_
  rintro o ho ⟨p, hp, hpd⟩
  obtain ⟨q, hq, rfl⟩ | ⟨q, hq, rfl⟩ := mem_operations.1 ho
  · cases hp
    exact hd ⟨_, hq, hpd⟩
  · cases hp
    exact hgone ⟨_, hq, hpd⟩

end Operations

/-! ### Handling an event -/

theorem alone_sweep_cons [Retrieval] (d : Path) (ds : List Path) (w : Workspace) :
    (sweep (d :: ds)).alone host w =
      let first := (revalidate d).alone host w
      let rest := (sweep ds).alone host first.2
      ((d, first.1) :: rest.1, rest.2) := by
  have hsweep : sweep (d :: ds) = (revalidate d).bind fun r =>
      (sweep ds).bind fun rs => .done ((d, r) :: rs) := by
    simp only [sweep, forEach, Bind.bind, Pure.pure, Program.bind, bind_assoc]
  rw [hsweep, alone_bind, alone_bind]
  rfl

theorem alone_sweep [Retrieval] (ds : List Path) (w : Workspace) :
    ((sweep ds).alone host w).2 = performed host (revalidations ds) w := by
  induction ds generalizing w with
  | nil => rfl
  | cons d ds ih =>
    rw [alone_sweep_cons]
    exact ih _

theorem alone_revalidateDependents [Retrieval] (schema : Path) (w : Workspace) :
    (revalidateDependents schema).alone host w = (w.board.dependents schema,
      performed host (revalidations (w.board.dependents schema)) w) := by
  simp only [revalidateDependents, Program.look, Bind.bind, Pure.pure, Program.bind, alone, id,
    alone_bind, alone_sweep]

theorem alone_forEach_revalidateDependents [Retrieval] (schemas : List Path) (w : Workspace) :
    let run := (forEach revalidateDependents schemas).alone host w
    run.2 = performed host (revalidations run.1.flatten) w := by
  induction schemas generalizing w with
  | nil => rfl
  | cons schema schemas ih =>
    simp only [forEach, Bind.bind, Pure.pure, alone_bind, alone_revalidateDependents, alone,
      List.flatten_cons, revalidations, List.map_append, performed_append]
    exact ih _

theorem alone_updateDependents [Retrieval] (e : FileEvent) (update : StoreUpdate) (w : Workspace) :
    let run := (updateDependents e update).alone host w
    run.2 = performed host (revalidations run.1) w ∧
      (w.settings.autolint = false → run.1 = []) := by
  simp only [updateDependents, Program.look, Bind.bind, Pure.pure, Program.bind, alone, id]
  by_cases hupdate : ((update == .reloaded || update == .evicted) && w.settings.autolint) = true
  · rw [if_pos hupdate, alone_bind]
    refine ⟨alone_forEach_revalidateDependents host _ w, fun hoff => ?_⟩
    rw [hoff, Bool.and_false] at hupdate
    cases hupdate
  · rw [if_neg hupdate]
    exact ⟨rfl, fun _ => rfl⟩

theorem alone_forgetSource [Retrieval] (e : FileEvent) (w : Workspace) :
    ((forgetSource e).alone host w).2 = performed host (removals (movedAway e)) w := by
  cases e with
  | renamed source target =>
    simp only [forgetSource, movedAway]
    by_cases hsource : source.isDocument = true
    · rw [if_pos hsource, if_pos hsource]
      rfl
    · rw [if_neg hsource, if_neg hsource]
      rfl
  | created p | modified p | deleted p => rfl

theorem refreshed_of_document {autolint : Bool} {e : FileEvent} (he : ∀ p, e ≠ .deleted p)
    (h : (e.path.isDocument && autolint) = true) : refreshed autolint e = [e.path] := by
  cases e with
  | deleted p => exact absurd rfl (he p)
  | created p | modified p | renamed p q => exact if_pos h

theorem alone_updateDocument [Retrieval] (e : FileEvent) (w : Workspace) :
    (updateDocument e).alone host w = (refreshed w.settings.autolint e, performed host
      (removals (removed e) ++ revalidations (refreshed w.settings.autolint e)) w) := by
  unfold updateDocument
  by_cases hpath : e.path.isDocument = true
  · rw [hpath, Bool.not_true, if_neg Bool.false_ne_true]
    cases e with
    | deleted p =>
      have hremoved : removed (.deleted p) = [p] := if_pos hpath
      rw [hremoved]
      rfl
    | created p | modified p | renamed p q =>
      simp only [Program.look, Bind.bind, Pure.pure, Program.bind, alone, id]
      by_cases hauto : w.settings.autolint = true
      · rw [if_pos hauto, alone_bind, refreshed_of_document (by simp) (Bool.and_eq_true_iff.2
          ⟨hpath, hauto⟩)]
        rfl
      · rw [if_neg hauto, refreshed_of_not fun h => hauto (Bool.and_eq_true_iff.1 h).2]
        rfl
  · have hnot : e.path.isDocument = false := by simpa using hpath
    have hremoved : removed e = [] := by
      cases e with
      | deleted p => exact if_neg hpath
      | created p | modified p | renamed p q => rfl
    rw [hnot, Bool.not_false, if_pos rfl, hremoved,
      refreshed_of_not fun h => hpath (Bool.and_eq_true_iff.1 h).1]
    rfl

/-- An event changes the store, and then performs operations one after the other. -/
theorem alone_handleEvent [Retrieval] (e : FileEvent) (hw : Bounded w) :
    let run := (Workspace.handleEvent e).alone host w
    let updated := ((Store.handleEvent e).alone host w.store).2
    ∃ ds, run.1.revalidated = ds ++ refreshed w.settings.autolint e ∧
      (w.settings.autolint = false → ds = []) ∧
      run.2 = performed host (operations ds (forgotten e) (refreshed w.settings.autolint e))
        { w with store := updated } := by
  dsimp only
  have hstart : Bounded { w with store := ((Store.handleEvent e).alone host w.store).2 } := hw
  obtain ⟨hdependents, hoff⟩ := alone_updateDependents host e
    ((Store.handleEvent e).alone host w.store).1
    { w with store := ((Store.handleEvent e).alone host w.store).2 }
  simp only [Workspace.handleEvent, Bind.bind, Pure.pure, alone_bind, alone_onStore, alone]
  rw [hdependents, alone_forgetSource, alone_updateDocument]
  generalize ((updateDependents e ((Store.handleEvent e).alone host w.store).1).alone host
    { w with store := ((Store.handleEvent e).alone host w.store).2 }).1 = ds at hoff
  have hfirst := later_of_performed host (allReport_revalidations ds) hstart
  have hmoved := hfirst.trans
    (later_of_performed host (allReport_removals (movedAway e)) hfirst.bounded)
  rw [hmoved.settings]
  refine ⟨ds, rfl, hoff, ?_⟩
  simp only [operations, forgotten, removals_append, performed_append]

/-! ### What becomes of the board -/

section Effect

variable {e : FileEvent}

/-- What an event forgets it does not validate, unless it moves a file to where it is. -/
theorem not_same_of_forgotten {autolint : Bool}
    (he : ∀ source target, e = .renamed source target → ¬ source.same target = true)
    (hp : p ∈ forgotten e) (hq : q ∈ refreshed autolint e) : ¬ p.same q = true := by
  cases e with
  | created _ | modified _ => cases hp
  | deleted _ => cases hq
  | renamed source target =>
    have hsource : p = source := by
      unfold forgotten movedAway removed at hp
      split at hp <;> simp_all
    have htarget : q = target := by
      unfold refreshed at hq
      split at hq <;> simp_all [FileEvent.path]
    rw [hsource, htarget]
    exact he source target rfl

theorem none_of_forgotten [Retrieval] (hw : Bounded w)
    (he : ∀ source target, e = .renamed source target → ¬ source.same target = true)
    (hd : ∃ q ∈ forgotten e, q.same d = true) :
    let run := (Workspace.handleEvent e).alone host w
    run.2.board.outcome? d = none ∧ run.2.board.failure? d = none := by
  dsimp only
  obtain ⟨ds, -, -, hstate⟩ := alone_handleEvent host e hw
  have hown : ¬ ∃ q ∈ refreshed w.settings.autolint e, q.same d = true := by
    rintro ⟨q, hq, hqd⟩
    obtain ⟨p, hp, hpd⟩ := hd
    exact not_same_of_forgotten he hp hq
      (Path.same_trans hpd (Path.same_symm hqd))
  have hstart : Bounded { w with store := ((Store.handleEvent e).alone host w.store).2 } := hw
  obtain ⟨n, hslot⟩ := slot_of_gone host hstart hd hown
  rw [hstate]
  unfold Board.outcome? Board.failure?
  rw [hslot]
  exact ⟨rfl, rfl⟩

theorem slot_of_unlisted [Retrieval] (hw : Bounded w)
    (hkept : ¬ ∃ q ∈ forgotten e, q.same d = true) :
    let run := (Workspace.handleEvent e).alone host w
    (¬ ∃ q ∈ run.1.revalidated, q.same d = true) →
      run.2.board.slots.get? d = w.board.slots.get? d := by
  intro run hd
  obtain ⟨ds, hlist, -, hstate⟩ := alone_handleEvent host e hw
  have hstart : Bounded { w with store := ((Store.handleEvent e).alone host w.store).2 } := hw
  rw [hlist] at hd
  rw [hstate]
  exact slot_of_others host hstart hd hkept

/-- What becomes of the board when the event `e`, handled alone, leads from `w` to `w'`. -/
structure EventEffect [Retrieval] (host : (q : Request) → q.Reply) (e : FileEvent) (w : Workspace)
    (out : EventOutcome) (w' : Workspace) : Prop where
  /-- A document that is gone has neither outcome nor failure. -/
  gone : ∀ d, (∃ q ∈ forgotten e, q.same d = true) →
    w'.board.outcome? d = none ∧ w'.board.failure? d = none
  /-- Any other document that is listed has the result of a later run, which has validated what the
  host has of it, with the store as the event has left it, or grown since by what the host has. -/
  listed : ∀ d, (¬ ∃ q ∈ forgotten e, q.same d = true) →
    (∃ q ∈ out.revalidated, q.same d = true) →
      ∃ q ∈ out.revalidated, q.same d = true ∧ ∃ slot, w'.board.slots.get? d = some slot ∧
        w.runs < slot.runId ∧
        let updated := ((Store.handleEvent e).alone host w.store).2
        (∃ s, Grown host updated s ∧ slot.verdict = (resultOf host s q slot.runId).verdict) ∧
        (Uniform host → slot.verdict = (resultOf host updated q slot.runId).verdict)
  /-- All other slots stay. -/
  others : ∀ d, (¬ ∃ q ∈ forgotten e, q.same d = true) →
    (¬ ∃ q ∈ out.revalidated, q.same d = true) →
      w'.board.slots.get? d = w.board.slots.get? d
  /-- Without autolint nothing is validated, and no slot gains an outcome or a failure. -/
  quiet : w.settings.autolint = false → out.revalidated = [] ∧
    ∀ d, (∀ o, w'.board.outcome? d = some o → w.board.outcome? d = some o) ∧
      ∀ message, w'.board.failure? d = some message → w.board.failure? d = some message

/-- **What an event does to the board.**  However a workspace has come about: when an event is
handled alone, the documents that are gone end with neither outcome nor failure, the others that
are listed get the result of a later run on what the host has of them, and all else stays. -/
theorem event_effect [Retrieval] {settings : Settings} {S : Session repertoire}
    (hS : S.Reachable (.ofSettings settings)) (host : (q : Request) → q.Reply) (e : FileEvent)
    (he : ∀ source target, e = .renamed source target → ¬ source.same target = true) :
    EventEffect host e S.state ((Workspace.handleEvent e).alone host S.state).1
      ((Workspace.handleEvent e).alone host S.state).2 := by
  have hw := bounded_of_reachable hS
  obtain ⟨ds, hlist, hoff, hstate⟩ := alone_handleEvent host e hw
  refine ⟨fun d hd => none_of_forgotten host hw he hd, fun d hkept hd => ?_,
    fun d hkept hd => slot_of_unlisted host hw hkept hd, fun hauto => ?_⟩
  · have hstart : Bounded { S.state with
      store := ((Store.handleEvent e).alone host S.state.store).2 } := hw
    rw [hlist] at hd ⊢
    obtain ⟨q, hq, hqd, s, n, hgrown, hn, hslot⟩ := slot_of_listed host hstart hd hkept
    rw [hstate]
    refine ⟨q, hq, hqd, _, hslot, hn, ⟨s, hgrown, rfl⟩, fun hhost => ?_⟩
    exact congrArg RunResult.verdict (resultOf_of_grown hhost hgrown q n)
  · have hnone : ((Workspace.handleEvent e).alone host S.state).1.revalidated = [] := by
      have hown : refreshed S.state.settings.autolint e = [] :=
        refreshed_of_not fun h => by simp [hauto] at h
      rw [hlist, hoff hauto, hown]
      rfl
    refine ⟨hnone, fun d => ?_⟩
    by_cases hd : ∃ q ∈ forgotten e, q.same d = true
    · obtain ⟨hout, hfail⟩ := none_of_forgotten host hw he hd
      simp [hout, hfail]
    · have hslot := slot_of_unlisted host hw hd (by simp [hnone])
      unfold Board.outcome? Board.failure?
      rw [hslot]
      exact ⟨fun o ho => ho, fun message hm => hm⟩

end Effect

/-- The note is moved to where there is no file: it loses its outcome, and its new place gets a
failure. -/
theorem event_effect_on_moved_note :
    ∃ S : Session repertoire, S.Reachable (.ofSettings {}) ∧
      (S.state.board.outcome? ⟨"a.md"⟩).isSome ∧
      let w' := ((Workspace.handleEvent (.renamed ⟨"a.md"⟩ ⟨"b.md"⟩)).alone listHost S.state).2
      w'.board.outcome? ⟨"a.md"⟩ = none ∧ (w'.board.failure? ⟨"b.md"⟩).isSome := by
  obtain ⟨S, e, hS, hstate⟩ := exists_reachable_afterRun
  have h := event_effect hS listHost (.renamed ⟨"a.md"⟩ ⟨"b.md"⟩) (by
    rintro _ _ ⟨⟩
    decide)
  obtain ⟨ds, hlist, -, -⟩ := alone_handleEvent listHost
    (.renamed ⟨"a.md"⟩ ⟨"b.md"⟩) (bounded_of_reachable hS)
  have hown : refreshed S.state.settings.autolint (.renamed ⟨"a.md"⟩ ⟨"b.md"⟩) = [⟨"b.md"⟩] := by
    rw [hstate]
    rfl
  obtain ⟨q, -, hqd, slot, hslot, -, ⟨s, -, hverdict⟩, -⟩ := h.listed ⟨"b.md"⟩ (by decide)
    ⟨⟨"b.md"⟩, by rw [hlist, hown]; exact List.mem_append_right _ List.mem_cons_self, by decide⟩
  refine ⟨S, hS, ?_, (h.gone ⟨"a.md"⟩ (by decide)).1, ?_⟩
  · rw [hstate]
    rfl
  · -- no spelling of the new place has a file
    have hread : listHost (.readText q) = .error ⟨"no such file"⟩ := by
      unfold listHost
      simp only [hostOf]
      rw [PathMap.get?_congr _ (Path.same_iff.1 hqd)]
      rfl
    unfold Board.failure?
    rw [hslot, Option.bind_some, hverdict]
    unfold resultOf
    rw [hread]
    rfl

end DocSchema.Workspace
