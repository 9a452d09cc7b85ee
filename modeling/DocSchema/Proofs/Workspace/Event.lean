/-
  DocSchema/Proofs/Workspace/Event.lean
  =====================================
  **A changed schema reaches the documents that were validated against it.**

  An event is handled by operations one after the other, and what each of them does to the
  board is said by one relation: `Renews ds w w'` when the documents `ds` have new results,
  computed from what the store now holds, and all other documents have the results that they
  had.  It is closed under sequences (`Renews.append`), so that handling an event renews exactly
  the documents that it lists and those that it forgets (`renews_of_handleEvent`).

  It remains to be seen that the documents of a changed schema are among them.  They are, with
  one exception (`Missed`): when a schema is moved to where it cannot be read, its old entry goes
  but its documents keep results that were computed from it (`moved_schema_misses_note`).
-/
import DocSchema.Proofs.Workspace.Alone
import DocSchema.Proofs.Workspace.LastRun

namespace DocSchema.Workspace

open DocSchema.Json DocSchema.Program

variable {w w' w'' : Workspace} {d p q : Path} {ds es : List Path}

/-! ### New results -/

/-- No number on the board is above the count. -/
def Bounded (w : Workspace) : Prop :=
  ∀ d slot, w.board.slots.get? d = some slot → slot.runId ≤ w.runs

/-- An outcome in the slot was computed from a schema that the store holds. -/
def FromStore [Retrieval] (s : Store) (slot : Slot) : Prop :=
  ∀ o, Board.outcomeOf? slot = some o → ∃ c document text, s.cache.get? o.schema = some c ∧
    validateLocated document (Document.parse text).root c.schema = .ok o.errors

/-- `Renews ds w w'`: on the way from `w` to `w'` the documents `ds` have got new results, computed
from what the store holds, and the others have kept theirs. -/
structure Renews [Retrieval] (ds : List Path) (w w' : Workspace) : Prop where
  settings : w'.settings = w.settings
  runs : w.runs ≤ w'.runs
  bounded : Bounded w'
  entry : ∀ q c, w.store.cache.get? q = some c → w'.store.cache.get? q = some c
  renewed : ∀ d, (∃ p ∈ ds, p.same d = true) → ∃ slot, w'.board.slots.get? d = some slot ∧
    w.runs < slot.runId ∧ FromStore w'.store slot
  frame : ∀ d, ¬ (∃ p ∈ ds, p.same d = true) →
    w'.board.slots.get? d = w.board.slots.get? d

theorem bounded_of_reachable [Retrieval] {settings : Settings} {S : Session repertoire}
    (hS : S.Reachable (.ofSettings settings)) : Bounded S.state := by
  have hw := consistent_of_reachable hS
  intro d slot hslot
  obtain ⟨b, hb, hrec⟩ := hw.recorded d slot hslot
  exact hw.number_le b hb _ hrec.number?

theorem FromStore.mono [Retrieval] {s s' : Store} {slot : Slot}
    (h : ∀ q c, s.cache.get? q = some c → s'.cache.get? q = some c) (hslot : FromStore s slot) :
    FromStore s' slot := by
  intro o ho
  obtain ⟨c, document, text, hc, herrors⟩ := hslot o ho
  exact ⟨c, document, text, h _ _ hc, herrors⟩

namespace Renews

theorem refl [Retrieval] (hw : Bounded w) : Renews [] w w where
  settings := rfl
  runs := Nat.le_refl _
  bounded := hw
  entry _ _ hc := hc
  renewed d hd := by
    obtain ⟨p, hp, -⟩ := hd
    cases hp
  frame _ _ := rfl

theorem append [Retrieval] (h : Renews ds w w') (h' : Renews es w' w'') :
    Renews (ds ++ es) w w'' where
  settings := h'.settings.trans h.settings
  runs := Nat.le_trans h.runs h'.runs
  bounded := h'.bounded
  entry q c hc := h'.entry q c (h.entry q c hc)
  renewed d hd := by
    by_cases hes : ∃ p ∈ es, p.same d = true
    · obtain ⟨slot, hslot, hlt, hfrom⟩ := h'.renewed d hes
      exact ⟨slot, hslot, Nat.lt_of_le_of_lt h.runs hlt, hfrom⟩
    · -- the later part has left the result alone
      have hds : ∃ p ∈ ds, p.same d = true := by
        obtain ⟨p, hp, hpd⟩ := hd
        rcases List.mem_append.1 hp with hp | hp
        · exact ⟨p, hp, hpd⟩
        · exact absurd ⟨p, hp, hpd⟩ hes
      obtain ⟨slot, hslot, hlt, hfrom⟩ := h.renewed d hds
      exact ⟨slot, (h'.frame d hes).trans hslot, hlt, hfrom.mono h'.entry⟩
  frame d hd := by
    have hds : ¬ ∃ p ∈ ds, p.same d = true := by
      rintro ⟨p, hp, hpd⟩
      exact hd ⟨p, List.mem_append_left _ hp, hpd⟩
    have hes : ¬ ∃ p ∈ es, p.same d = true := by
      rintro ⟨p, hp, hpd⟩
      exact hd ⟨p, List.mem_append_right _ hp, hpd⟩
    exact (h'.frame d hes).trans (h.frame d hds)

/-- Only the documents count, not their order. -/
theorem congr [Retrieval] (h : ∀ p, p ∈ ds ↔ p ∈ es) (hrenews : Renews ds w w') :
    Renews es w w' := by
  have hmem : ∀ d, (∃ p ∈ ds, p.same d = true) ↔ ∃ p ∈ es, p.same d = true := fun d =>
    exists_congr fun p => and_congr_left' (h p)
  exact
    { settings := hrenews.settings
      runs := hrenews.runs
      bounded := hrenews.bounded
      entry := hrenews.entry
      renewed := fun d hd => hrenews.renewed d ((hmem d).2 hd)
      frame := fun d hd => hrenews.frame d fun hds => hd ((hmem d).1 hds) }

end Renews

/-! ### Operations -/

/-- An outcome of a validation was computed from what the store then holds. -/
theorem entry_of_validateParsed [Retrieval] {document : Path} {n : Nat} {parsed : Document}
    {o : Outcome} (h : Executes (validateParsed document n parsed) w (.ok (some o)) w') :
    ∃ c, w'.store.cache.get? o.schema = some c ∧
      validateLocated document parsed.root c.schema = .ok o.errors := by
  obtain ⟨root, v, hlook, hrest⟩ := h.of_bind
  cases href : DocSchema.schemaRef? parsed.metadata root with
  | none =>
    simp only [href] at hrest
    obtain ⟨ho, -⟩ := hrest.of_done
    cases ho
  | some schema =>
    simp only [href] at hrest
    obtain ⟨found, u, hget, hanswer⟩ := hrest.of_bind
    cases found with
    | none =>
      obtain ⟨ho, -⟩ := hanswer.of_done
      cases ho
    | some c =>
      obtain ⟨s, hs, rfl⟩ := executes_onStore hget
      cases hresult : validateLocated document parsed.root c.schema with
      | error e =>
        simp only [hresult] at hanswer
        obtain ⟨ho, -⟩ := hanswer.of_done
        cases ho
      | ok errors =>
        simp only [hresult] at hanswer
        obtain ⟨ho, rfl⟩ := hanswer.of_done
        cases ho
        exact ⟨c, Store.entry_of_get hs, hresult⟩

theorem eq_of_verdict {r : RunResult} {o : Outcome} (h : r.verdict = .validated o) :
    r = .ok (some o) := by
  cases r with
  | error e => cases h
  | ok found =>
    cases found with
    | none => cases h
    | some o' =>
      cases h
      rfl

/-- What the work of an operation finds was computed from what the store then holds. -/
theorem fromStore_of_work [Retrieval] {o : Operation} {n : Nat} {r : o.Result}
    (h : Executes (o.work n) w r w') : FromStore w'.store ⟨n, o.verdict r⟩ := by
  intro out hout
  have hverdict : o.verdict r = .validated out := by
    unfold Board.outcomeOf? at hout
    cases hv : o.verdict r with
    | validated out' =>
      simp only [hv, Option.some.injEq] at hout
      rw [hout]
    | cleared => simp [hv] at hout
    | failed message => simp [hv] at hout
  cases o with
  | revalidate p =>
    have hr : r = .ok (some out) := eq_of_verdict hverdict
    subst hr
    obtain ⟨reply, hjudge⟩ := h.of_ask
    cases reply with
    | error e =>
      obtain ⟨hr, -⟩ := hjudge.of_done
      cases hr
    | ok text =>
      obtain ⟨c, hc, herrors⟩ := entry_of_validateParsed hjudge
      exact ⟨c, p, text, hc, herrors⟩
  | forget p => cases hverdict
  | validateText p text =>
    have hr : r = .ok (some out) := eq_of_verdict hverdict
    subst hr
    obtain ⟨c, hc, herrors⟩ := entry_of_validateParsed h
    exact ⟨c, p, text, hc, herrors⟩

/-- The work of an operation may add entries to the store, and does nothing else. -/
theorem store_of_work [Retrieval] {o : Operation} {n : Nat} {r : o.Result}
    (h : Executes (o.work n) w r w') :
    ∃ s, w' = { w with store := s } ∧
      ∀ q c, w.store.cache.get? q = some c → s.cache.get? q = some c := by
  refine h.keeps (R := fun w w' => ∃ s, w' = { w with store := s } ∧
    ∀ q c, w.store.cache.get? q = some c → s.cache.get? q = some c) ?_ ?_ ?_
  · exact fun w => ⟨w.store, rfl, fun _ _ hc => hc⟩
  · rintro w _ _ ⟨s, rfl, hs⟩ ⟨s', rfl, hs'⟩
    exact ⟨s', rfl, fun q c hc => hs' q c (hs q c hc)⟩
  · refine Operation.keeps_work (fun w => ⟨w.store, rfl, fun _ _ hc => hc⟩) (fun schema => ?_) o n
    refine (Store.keeps_get schema).onPart fun change hchange w => ?_
    exact ⟨change w.store, rfl, fun q c hc => hchange _ q c hc⟩

/-- An operation renews the document that it reports on. -/
theorem renews_of_operation [Retrieval] {o : Operation} {r : o.Result} (hw : Bounded w)
    (hp : o.subject? = some p) (h : Executes o.program w r w') : Renews [p] w w' := by
  rw [Operation.program_eq] at h
  obtain ⟨found, v, hwork, hend⟩ := h.of_step.of_bind
  obtain ⟨s, rfl, hentry⟩ := store_of_work hwork
  have hfrom := fromStore_of_work hwork
  unfold Operation.conclude at hend
  rw [hp] at hend
  obtain ⟨rfl, rfl⟩ := hend.of_step.of_done
  have hmem : ∀ d, (∃ p' ∈ [p], p'.same d = true) ↔ p.same d = true := fun d => by simp
  -- its number is above what the board holds
  have hlatest : ∀ d, Board.latest (w.runs + 1) (o.verdict r) (w.board.slots.get? d) =
      ⟨w.runs + 1, o.verdict r⟩ := fun d =>
    Board.latest_of_lt fun slot hslot => Nat.lt_succ_of_le (hw d slot hslot)
  have hself : ∀ d, p.same d = true →
      (w.board.apply p (w.runs + 1) (o.verdict r)).slots.get? d =
        some ⟨w.runs + 1, o.verdict r⟩ := fun d hd => by
    rw [Board.get?_apply_of_same hd, hlatest]
  refine ⟨rfl, Nat.le_succ _, fun d slot hslot => ?_, hentry, fun d hd => ?_, fun d hd => ?_⟩
  · by_cases hd : p.same d = true
    · have hslot' := (hself d hd).symm.trans hslot
      cases hslot'
      exact Nat.le_refl _
    · have hslot' := (Board.get?_apply_of_not_same hd).symm.trans hslot
      exact Nat.le_succ_of_le (hw d slot hslot')
  · exact ⟨_, hself d ((hmem d).1 hd), Nat.lt_succ_self _, hfrom⟩
  · exact Board.get?_apply_of_not_same fun hp => hd ((hmem d).2 hp)

theorem renews_of_revalidate [Retrieval] {r : RunResult} (hw : Bounded w)
    (h : Executes (revalidate p) w r w') : Renews [p] w w' :=
  renews_of_operation (o := .revalidate p) hw rfl h

theorem renews_of_forget [Retrieval] {r : Unit} (hw : Bounded w) (h : Executes (forget p) w r w') :
    Renews [p] w w' :=
  renews_of_operation (o := .forget p) hw rfl h

theorem renews_of_sweep [Retrieval] {rs : List (Path × RunResult)} (hw : Bounded w)
    (h : Executes (sweep ds) w rs w') : Renews ds w w' := by
  induction ds generalizing w rs with
  | nil =>
    obtain ⟨-, rfl⟩ := h.of_done
    exact .refl hw
  | cons p ds ih =>
    obtain ⟨r, v, hp, hrest⟩ := h.of_bind
    obtain ⟨r', u, hrevalidate, hpair⟩ := hp.of_bind
    obtain ⟨-, rfl⟩ := hpair.of_done
    obtain ⟨rs', u, hds, hlist⟩ := hrest.of_bind
    obtain ⟨-, rfl⟩ := hlist.of_done
    have hfirst := renews_of_revalidate hw hrevalidate
    exact hfirst.append (ih hfirst.bounded hds)

/-! ### Documents of the schemas of an event -/

/-- The outcome of a document was validated against a schema. -/
def ValidatedAgainst (w : Workspace) (d schema : Path) : Prop :=
  ∃ o, w.board.outcome? d = some o ∧ o.schema.same schema = true

theorem ValidatedAgainst.congr {schema : Path} (h : ValidatedAgainst w d q)
    (hq : schema.same q = true) : ValidatedAgainst w d schema := by
  obtain ⟨o, ho, hs⟩ := h
  exact ⟨o, ho, Path.same_trans hs (Path.same_symm hq)⟩

theorem of_revalidateDependents [Retrieval] (hw : Bounded w)
    (h : Executes (revalidateDependents q) w ds w') :
    ds = w.board.dependents q ∧ Renews ds w w' := by
  obtain ⟨documents, v, hlook, hrest⟩ := h.of_bind
  obtain ⟨rfl, rfl⟩ := hlook.of_step.of_done
  obtain ⟨rs, u, hsweep, hlist⟩ := hrest.of_bind
  obtain ⟨rfl, rfl⟩ := hlist.of_done
  exact ⟨rfl, renews_of_sweep hw hsweep⟩

/-- The documents of several schemas are renewed one schema after the other.  None is missed: as
long as a document has not been renewed, its outcome is what it was. -/
theorem of_forEach_revalidateDependents [Retrieval] {schemas : List Path} {dss : List (List Path)}
    (hw : Bounded w) (h : Executes (Program.forEach revalidateDependents schemas) w dss w') :
    Renews dss.flatten w w' ∧ ∀ d q, ValidatedAgainst w d q →
      (∃ schema ∈ schemas, schema.same q = true) → ∃ p ∈ dss.flatten, p.same d = true := by
  induction schemas generalizing w dss with
  | nil =>
    obtain ⟨rfl, rfl⟩ := h.of_done
    refine ⟨.refl hw, fun d q _ hq => ?_⟩
    obtain ⟨schema, hmem, -⟩ := hq
    cases hmem
  | cons schema schemas ih =>
    obtain ⟨ds, v, hfirst, hrest⟩ := h.of_bind
    obtain ⟨dss', u, hothers, hlist⟩ := hrest.of_bind
    obtain ⟨rfl, rfl⟩ := hlist.of_done
    obtain ⟨hds, hrenews⟩ := of_revalidateDependents hw hfirst
    obtain ⟨hrenews', hlisted⟩ := ih hrenews.bounded hothers
    refine ⟨hrenews.append hrenews', fun d q hd hq => ?_⟩
    by_cases hrenewed : ∃ p ∈ ds, p.same d = true
    · obtain ⟨p, hp, hpd⟩ := hrenewed
      exact ⟨p, List.mem_append_left _ hp, hpd⟩
    · have hsame : ValidatedAgainst v d q := by
        obtain ⟨o, ho, hs⟩ := hd
        refine ⟨o, ?_, hs⟩
        unfold Board.outcome? at ho ⊢
        rw [hrenews.frame d hrenewed, ho]
      have hothers' : ∃ schema ∈ schemas, schema.same q = true := by
        obtain ⟨schema', hmem, hs⟩ := hq
        rcases List.mem_cons.1 hmem with rfl | hmem
        · obtain ⟨o, ho, hs'⟩ := hd.congr hs
          exact absurd (hds ▸ Board.mem_dependents ho hs') hrenewed
        · exact ⟨schema', hmem, hs⟩
      obtain ⟨p, hp, hpd⟩ := hlisted d q hsame hothers'
      exact ⟨p, List.mem_append_right _ hp, hpd⟩

/-- When the store tells of a change, the documents of the event's schemas are renewed. -/
theorem of_updateDependents [Retrieval] {e : FileEvent} {update : StoreUpdate} (hw : Bounded w)
    (h : Executes (updateDependents e update) w ds w') :
    Renews ds w w' ∧ (update = .reloadFailed → ds = []) ∧
      ((update = .reloaded ∨ update = .evicted) → w.settings.autolint = true →
        ∀ d q, ValidatedAgainst w d q → (∃ schema ∈ affectedSchemas e, schema.same q = true) →
          ∃ p ∈ ds, p.same d = true) := by
  obtain ⟨autolint, v, hlook, hrest⟩ := h.of_bind
  obtain ⟨rfl, rfl⟩ := hlook.of_step.of_done
  dsimp only [id] at hrest
  split at hrest
  · rename_i hupdate
    obtain ⟨dss, u, hall, hlist⟩ := hrest.of_bind
    obtain ⟨rfl, rfl⟩ := hlist.of_done
    obtain ⟨hrenews, hlisted⟩ := of_forEach_revalidateDependents hw hall
    refine ⟨hrenews, fun hfailed => ?_, fun _ _ => hlisted⟩
    rw [hfailed] at hupdate
    exact absurd hupdate (by simp)
  · rename_i hupdate
    obtain ⟨rfl, rfl⟩ := hrest.of_done
    refine ⟨.refl hw, fun _ => rfl, fun hchanged hauto => ?_⟩
    rcases hchanged with rfl | rfl <;> simp [hauto] at hupdate

/-! ### The documents of an event -/

def movedAway : FileEvent → List Path
  | .renamed source _ => if source.isDocument then [source] else []
  | _ => []

/-- The document that was deleted, if the event deletes one. -/
def removed : FileEvent → List Path
  | .deleted p => if p.isDocument then [p] else []
  | _ => []

/-- The document that is validated again when the event is about a document. -/
def refreshed (autolint : Bool) : FileEvent → List Path
  | .deleted _ => []
  | e => if e.path.isDocument && autolint then [e.path] else []

/-- The documents that an event forgets. -/
def forgotten (e : FileEvent) : List Path :=
  movedAway e ++ removed e

theorem renews_of_forgetSource [Retrieval] {e : FileEvent} {r : Unit} (hw : Bounded w)
    (h : Executes (forgetSource e) w r w') : Renews (movedAway e) w w' := by
  cases e with
  | renamed source target =>
    simp only [forgetSource] at h
    by_cases hsource : source.isDocument = true
    · rw [if_pos hsource] at h
      have hmoved : movedAway (.renamed source target) = [source] := if_pos hsource
      exact hmoved ▸ renews_of_forget hw h
    · rw [if_neg hsource] at h
      obtain ⟨-, rfl⟩ := h.of_done
      have hmoved : movedAway (.renamed source target) = [] := if_neg hsource
      exact hmoved ▸ .refl hw
  | created p | modified p | deleted p =>
    obtain ⟨-, rfl⟩ := h.of_done
    exact .refl hw

theorem refreshed_of_not {autolint : Bool} {e : FileEvent}
    (h : ¬ (e.path.isDocument && autolint) = true) : refreshed autolint e = [] := by
  cases e with
  | deleted p => rfl
  | created p | modified p | renamed p q => exact if_neg h

theorem of_updateDocument [Retrieval] {e : FileEvent} (hw : Bounded w)
    (h : Executes (updateDocument e) w ds w') :
    ds = refreshed w.settings.autolint e ∧ Renews (removed e ++ ds) w w' := by
  unfold updateDocument at h
  split at h
  · rename_i hdocument
    obtain ⟨rfl, rfl⟩ := h.of_done
    have hpath : ¬ e.path.isDocument = true := by simpa using hdocument
    cases e with
    | deleted p =>
      have hremoved : removed (.deleted p) = [] := if_neg hpath
      exact ⟨rfl, by rw [hremoved]; exact .refl hw⟩
    | created p | modified p | renamed p q =>
      exact ⟨(refreshed_of_not fun hb => hpath (Bool.and_eq_true_iff.1 hb).1).symm, .refl hw⟩
  · rename_i hdocument
    have hpath : e.path.isDocument = true := by simpa using hdocument
    cases e with
    | deleted p =>
      obtain ⟨u, v, hforget, hlist⟩ := h.of_bind
      obtain ⟨rfl, rfl⟩ := hlist.of_done
      have hremoved : removed (.deleted p) = [p] := if_pos hpath
      exact ⟨rfl, by rw [hremoved]; exact renews_of_forget hw hforget⟩
    | created p | modified p | renamed p q =>
      obtain ⟨autolint, v, hlook, hrest⟩ := h.of_bind
      obtain ⟨rfl, rfl⟩ := hlook.of_step.of_done
      dsimp only [id] at hrest
      split at hrest
      · rename_i hauto
        obtain ⟨r, v, hrevalidate, hlist⟩ := hrest.of_bind
        obtain ⟨rfl, rfl⟩ := hlist.of_done
        have hboth := Bool.and_eq_true_iff.2 ⟨hpath, hauto⟩
        exact ⟨(if_pos hboth).symm, renews_of_revalidate hw hrevalidate⟩
      · rename_i hauto
        obtain ⟨rfl, rfl⟩ := hrest.of_done
        exact ⟨(refreshed_of_not fun hb => hauto (Bool.and_eq_true_iff.1 hb).2).symm, .refl hw⟩

/-- Handling an event is a change of the store, and then renews the documents that the event lists
and those that it forgets. -/
theorem renews_of_handleEvent [Retrieval] {e : FileEvent} {out : EventOutcome} (hw : Bounded w)
    (h : Executes (Workspace.handleEvent e) w out w') :
    ∃ store, Executes (Store.handleEvent e) w.store out.store store ∧
      Renews (out.revalidated ++ forgotten e) { w with store } w' ∧
      ∃ ds, out.revalidated = ds ++ refreshed w.settings.autolint e ∧
        (out.store = .reloadFailed → ds = []) ∧
        ((out.store = .reloaded ∨ out.store = .evicted) → w.settings.autolint = true →
          ∀ d q, ValidatedAgainst w d q → (∃ schema ∈ affectedSchemas e, schema.same q = true) →
            ∃ p ∈ ds, p.same d = true) := by
  obtain ⟨update, v, hstore, hrest⟩ := h.of_bind
  obtain ⟨store, hevent, rfl⟩ := executes_onStore hstore
  obtain ⟨ds, v, hdependents, hrest⟩ := hrest.of_bind
  obtain ⟨u, v', hsource, hrest⟩ := hrest.of_bind
  obtain ⟨own, v'', hdocument, hout⟩ := hrest.of_bind
  obtain ⟨rfl, rfl⟩ := hout.of_done
  have hstart : Bounded { w with store } := hw
  obtain ⟨hrenews, hfailed, hlisted⟩ := of_updateDependents hstart hdependents
  have hmoved := renews_of_forgetSource hrenews.bounded hsource
  obtain ⟨rfl, hown⟩ := of_updateDocument hmoved.bounded hdocument
  rw [hmoved.settings, hrenews.settings] at hown ⊢
  refine ⟨store, hevent, ?_, ds, rfl, hfailed, hlisted⟩
  refine (hrenews.append (hmoved.append hown)).congr fun p => ?_
  simp only [forgotten, List.mem_append, or_assoc]
  exact or_congr_right (or_assoc.symm.trans or_comm)

/-! ### Changed schemas -/

/-- The event lists the document or forgets it. -/
def Reached (e : FileEvent) (out : EventOutcome) (d : Path) : Prop :=
  (∃ p ∈ out.revalidated, p.same d = true) ∨ ∃ p ∈ forgotten e, p.same d = true

/-- A file that was moved could not be read at its new place, and the document is not a file that
the event is about. -/
def Missed (e : FileEvent) (out : EventOutcome) (d : Path) : Prop :=
  out.store = .reloadFailed ∧
    ¬ ∃ p ∈ affectedSchemas e, p.isDocument = true ∧ p.same d = true

/-- What is to become of the documents of a schema whose entry an event replaces or removes, unless
they are missed. -/
def SchemaChangeReaches [Retrieval] (w : Workspace) (e : FileEvent) : Prop :=
  ∀ out w', Executes (Workspace.handleEvent e) w out w' →
    ∀ schema c, w.store.cache.get? schema = some c → w'.store.cache.get? schema ≠ some c →
      ∀ d, ValidatedAgainst w d schema →
        (¬ Missed e out d → Reached e out d ∧ ∃ old new, w.board.slots.get? d = some old ∧
          w'.board.slots.get? d = some new ∧ old.runId < new.runId ∧ FromStore w'.store new) ∧
        (Missed e out d → ¬ Reached e out d ∧
          w'.board.slots.get? d = w.board.slots.get? d)

/-- When a file that was moved could not be read, the event reaches its own documents only. -/
theorem reached_iff_of_reloadFailed {source target : Path} {out : EventOutcome}
    (h : out.revalidated = refreshed true (.renamed source target)) :
    Reached (.renamed source target) out d ↔
      ∃ p ∈ affectedSchemas (.renamed source target), p.isDocument = true ∧ p.same d = true := by
  have hone : ∀ p : Path, (∃ p' ∈ if p.isDocument then [p] else [], p'.same d = true) ↔
      p.isDocument = true ∧ p.same d = true := by
    intro p
    by_cases hp : p.isDocument = true
    · simp [hp]
    · simp [hp]
  have hlist : out.revalidated = if target.isDocument then [target] else [] := by
    rw [h, ← Bool.and_true target.isDocument]
    rfl
  have hforgotten : forgotten (.renamed source target) =
      if source.isDocument then [source] else [] :=
    List.append_nil _
  unfold Reached
  rw [hlist, hforgotten, hone, hone]
  simp [affectedSchemas]

/-- An event that reloads the schema that it names leaves a new reading of it in the store. -/
theorem entry_of_reloaded [Retrieval] {e : FileEvent} {out : EventOutcome} (hw : Bounded w)
    (he : e = .created p ∨ e = .modified p) (h : Executes (Workspace.handleEvent e) w out w')
    (hout : out.store = .reloaded) :
    ∃ v, w'.store.cache.get? p = some ⟨w.store.nextHandle, v⟩ := by
  obtain ⟨store, hevent, hrenews, -⟩ := renews_of_handleEvent hw h
  have hreload : Executes (Store.reload p) w.store out.store store := by
    rcases he with rfl | rfl <;> exact hevent
  obtain ⟨-, hnot | hnot⟩ | ⟨-, v, rfl⟩ := Store.reload_cases hreload
  · rw [hout] at hnot
    cases hnot
  · rw [hout] at hnot
    cases hnot
  · exact ⟨v, hrenews.entry _ _ (Store.get?_put_of_same v (Path.same_refl p))⟩

/-- Whenever an event replaces or removes the entry of a schema, it reaches the documents that were
validated against that schema, and leaves on the board no outcome that the store does not bear
out.  The documents that it misses are told exactly. -/
theorem changed_schema_reaches_documents [Retrieval] {settings : Settings} {S : Session repertoire}
    (hS : S.Reachable (.ofSettings settings)) (hauto : S.state.settings.autolint = true)
    (e : FileEvent) : SchemaChangeReaches S.state e := by
  have hw := bounded_of_reachable hS
  intro out w' h schema c hc hchanged d hd
  obtain ⟨store, hevent, hrenews, ds, hlist, hfailed, hlisted⟩ := renews_of_handleEvent hw h
  -- later steps keep what is in the store, so that it was the event that changed it
  have hstore : store.cache.get? schema ≠ some c := fun hkept =>
    hchanged (hrenews.entry schema c hkept)
  have hreached : Reached e out d ↔ ∃ p ∈ out.revalidated ++ forgotten e, p.same d = true := by
    simp only [Reached, List.mem_append, or_and_right, exists_or]
  have hreach : Reached e out d ↔ ¬ Missed e out d := by
    obtain ⟨hupdate, hnamed⟩ | ⟨hupdate, source, target, rfl, -⟩ :=
      Store.changed_cases hevent hc hstore
    · have hmissed : ¬ Missed e out d := by
        rintro ⟨hfail, -⟩
        rw [hfail] at hupdate
        exact absurd hupdate (by simp)
      obtain ⟨p, hp, hpd⟩ := hlisted hupdate hauto d schema hd hnamed
      refine iff_of_true (.inl ⟨p, ?_, hpd⟩) hmissed
      rw [hlist]
      exact List.mem_append_left _ hp
    · rw [hfailed hupdate, hauto, List.nil_append] at hlist
      rw [reached_iff_of_reloadFailed hlist]
      simp only [Missed, hupdate, true_and, not_not]
  refine ⟨fun hmissed => ⟨hreach.2 hmissed, ?_⟩, fun hmissed => ?_⟩
  · obtain ⟨new, hnew, hlt, hfrom⟩ := hrenews.renewed d (hreached.1 (hreach.2 hmissed))
    obtain ⟨o, ho, -⟩ := hd
    obtain ⟨old, hold, -⟩ := Option.bind_eq_some_iff.1 ho
    exact ⟨old, new, hold, hnew, Nat.lt_of_le_of_lt (hw d old hold) hlt, hfrom⟩
  · have hnot : ¬ Reached e out d := fun hr => hreach.1 hr hmissed
    exact ⟨hnot, hrenews.frame d fun hr => hnot (hreached.2 hr)⟩

/-- The schema of the note is read again, and so the note is validated again. -/
theorem reread_schema_reaches_note : ∃ (S : Session repertoire) (out : EventOutcome) (w' : Workspace),
    S.Reachable (.ofSettings {}) ∧ S.state.settings.autolint = true ∧
      Executes (Workspace.handleEvent (.modified ⟨"schemas/note.json"⟩)) S.state out w' ∧
      ValidatedAgainst S.state ⟨"a.md"⟩ ⟨"schemas/note.json"⟩ ∧
      Reached (.modified ⟨"schemas/note.json"⟩) out ⟨"a.md"⟩ ∧
      ∃ new, w'.board.slots.get? ⟨"a.md"⟩ = some new ∧ 1 < new.runId ∧ FromStore w'.store new := by
  obtain ⟨S, e, hS, hstate⟩ := exists_reachable_afterRun
  have hauto : S.state.settings.autolint = true := by
    rw [hstate]
    rfl
  have hknown : S.state.store.cache.get? ⟨"schemas/note.json"⟩ = some ⟨0, listSchema⟩ := by
    rw [hstate]
    rfl
  have hvalidated : ValidatedAgainst S.state ⟨"a.md"⟩ ⟨"schemas/note.json"⟩ := by
    rw [hstate]
    exact ⟨_, rfl, Path.same_refl _⟩
  have hrun := executes_alone listHost
    (Workspace.handleEvent (.modified ⟨"schemas/note.json"⟩)) S.state
  have hout : ((Workspace.handleEvent (.modified ⟨"schemas/note.json"⟩)).alone listHost
      S.state).1.store = .reloaded := by
    have haccept : S.state.store.isSchemaFile ⟨"schemas/note.json"⟩ = true := by
      rw [hstate, isSchemaFile_afterRun]
      decide
    rw [store_alone_handleEvent]
    exact congrArg Prod.fst (Store.alone_reload haccept serves_listSchema)
  -- the new reading has a handle of its own
  obtain ⟨v, hv⟩ := entry_of_reloaded (bounded_of_reachable hS) (.inr rfl) hrun hout
  have hhandle : S.state.store.nextHandle = 1 := by
    rw [hstate]
    rfl
  rw [hhandle] at hv
  have hchanged : some ⟨1, v⟩ ≠ some (⟨0, listSchema⟩ : Cached) := fun heq => by cases heq
  obtain ⟨hreached, old, new, hold, hnew, hlt, hfrom⟩ :=
    (changed_schema_reaches_documents hS hauto _ _ _ hrun _ _ hknown (hv.trans_ne hchanged) _
      hvalidated).1 fun hmissed => by cases hout.symm.trans hmissed.1
  rw [hstate] at hold
  cases hold
  exact ⟨S, _, _, hS, hauto, hrun, hvalidated, hreached, new, hnew, hlt, hfrom⟩

/-- A known schema that is moved to where there is no file is dropped, and nothing else happens:
whatever was validated against it stays on the board. -/
theorem alone_handleEvent_of_moved_away [Retrieval] {host : (q : Request) → q.Reply}
    {source target : Path}
    (hsource : w.store.isSchemaFile source = true) (htarget : w.store.isSchemaFile target = true)
    (hknown : w.store.cache.contains source = true) (hfile : host (.isFile target) = false)
    (hs : source.isDocument = false) (ht : target.isDocument = false) :
    (Workspace.handleEvent (.renamed source target)).alone host w =
      (⟨.reloadFailed, []⟩, { w with store := w.store.drop source }) := by
  have hstore : (Store.handleEvent (.renamed source target)).alone host w.store =
      (.reloadFailed, w.store.drop source) := by
    have htarget' : (w.store.drop source).isSchemaFile target = true := htarget
    simp [Store.handleEvent, Store.evict, Store.reload, loadSchema, Program.look, exchange,
      Program.request, Bind.bind, Pure.pure, Program.bind, alone, hsource, htarget', hknown, hfile]
  have hdependents : ∀ w, (updateDependents (.renamed source target) .reloadFailed).alone host w =
      ([], w) := fun w => rfl
  have hforget : ∀ w, (forgetSource (.renamed source target)).alone host w = ((), w) := by
    intro w
    simp only [forgetSource, hs]
    rfl
  have hupdate : ∀ w, (updateDocument (.renamed source target)).alone host w = ([], w) := by
    intro w
    have hpath : (FileEvent.renamed source target).path.isDocument = false := ht
    unfold updateDocument
    rw [hpath]
    rfl
  have hevent := @alone_onStore _ host w (Store.handleEvent (.renamed source target))
  rw [hstore] at hevent
  simp only [Workspace.handleEvent, Bind.bind, alone_bind, hevent, hdependents, hforget, hupdate]
  rfl

/-- The event reaches no document at all. -/
theorem not_reached_of_moved_away [Retrieval] (host : (q : Request) → q.Reply)
    (source target : Path)
    (hsource : w.store.isSchemaFile source = true) (htarget : w.store.isSchemaFile target = true)
    (hknown : w.store.cache.contains source = true) (hfile : host (.isFile target) = false)
    (hs : source.isDocument = false) (ht : target.isDocument = false) :
    ∃ out w', Executes (Workspace.handleEvent (.renamed source target)) w out w' ∧
      w'.store.cache.get? source = none ∧ ∀ d, ¬ Reached (.renamed source target) out d := by
  have hrun := executes_alone host (Workspace.handleEvent (.renamed source target)) w
  rw [alone_handleEvent_of_moved_away hsource htarget hknown hfile hs ht] at hrun
  refine ⟨_, _, hrun, PathMap.get?_erase_self w.store.cache source, fun d => ?_⟩
  have hforgotten : forgotten (.renamed source target) = [] := by
    simp [forgotten, movedAway, removed, hs]
  rintro (⟨p, hp, -⟩ | ⟨p, hp, -⟩)
  · cases hp
  · rw [hforgotten] at hp
    cases hp

/-- Not every document is reached: the outcome of the note stays when its schema is moved to where
it cannot be read. -/
theorem moved_schema_misses_note :
    ¬ ∀ (settings : Settings) (S : Session repertoire), S.Reachable (.ofSettings settings) →
      S.state.settings.autolint = true →
        ∀ e out w', Executes (Workspace.handleEvent e) S.state out w' →
          ∀ schema c, S.state.store.cache.get? schema = some c →
            w'.store.cache.get? schema ≠ some c →
              ∀ d, ValidatedAgainst S.state d schema → Reached e out d := by
  intro h
  obtain ⟨S, e, hS, hstate⟩ := exists_reachable_afterRun
  have haccept : ∀ p, (Store.ofRoot ⟨"schemas"⟩).isSchemaFile p = true →
      S.state.store.isSchemaFile p = true := by
    intro p hp
    rw [hstate, isSchemaFile_afterRun, hp]
  obtain ⟨out, w', hrun, hgone, hnot⟩ := not_reached_of_moved_away (w := S.state)
    listHost ⟨"schemas/note.json"⟩ ⟨"schemas/new.json"⟩
    (haccept _ (by decide)) (haccept _ (by decide)) (by rw [hstate]; rfl) (by rfl) (by decide)
    (by decide)
  have hknown : S.state.store.cache.get? ⟨"schemas/note.json"⟩ = some ⟨0, listSchema⟩ := by
    rw [hstate]
    rfl
  refine hnot ⟨"a.md"⟩ (h {} S hS ?_ _ out w' hrun _ _ hknown ?_ _ ?_)
  · rw [hstate]
    rfl
  · rw [hgone]
    exact (Option.some_ne_none _).symm
  · rw [hstate]
    exact ⟨_, rfl, Path.same_refl _⟩

end DocSchema.Workspace
