/-
  DocSchema/Proofs/Workspace/Operation.lean
  =========================================
  **The operations of a workspace that take the number of a run.**

  To validate a document and to forget one are operations of the same shape: they take a number,
  do some work that only concerns the store, and report what they found (`program_eq`).
  Everything that clients ask of a workspace, the handling of events included, is made of these
  (`composes_of_client`).  `StoreOnly` is what the work in between may change.
-/
import DocSchema.Proofs.Session
import DocSchema.Workspace

namespace DocSchema.Workspace

open DocSchema.Program

/-! ### Changes of the store alone -/

/-- A change that touches nothing but the store. -/
def StoreOnly (change : Workspace → Workspace) : Prop :=
  ∀ w, ∃ store, change w = { w with store }

theorem storeOnly_id : StoreOnly id :=
  fun w => ⟨w.store, rfl⟩

theorem keeps_onStore {α : Type} (p : Program Store α) : Keeps StoreOnly (onStore p) :=
  (Keeps.any p).onPart fun change _ w => ⟨change w.store, rfl⟩

/-- A program on the store runs as it does on the store alone. -/
theorem executes_onStore {α : Type} {p : Program Store α} {w w' : Workspace} {a : α}
    (h : Executes (onStore p) w a w') :
    ∃ store, Executes p w.store a store ∧ w' = { w with store } := by
  refine Executes.of_onPart ?_ ?_ ?_ h
  · exact fun _ _ => rfl
  · exact fun _ _ _ => rfl
  · exact fun _ => rfl

theorem alone_onStore {α : Type} {host : (q : Request) → q.Reply} {w : Workspace}
    (p : Program Store α) :
    (onStore p).alone host w =
      ((p.alone host w.store).1, { w with store := (p.alone host w.store).2 }) :=
  @alone_onPart _ _ _ Workspace.store (fun store w => { w with store }) (fun _ _ => rfl)
    (fun _ _ _ => rfl) (fun _ => rfl) host p w

/-- A validation changes nothing but what it takes to get the schema. -/
theorem keeps_validateParsed [Retrieval] {Q : (Workspace → Workspace) → Prop} (hid : Q id)
    (hget : ∀ schema, Keeps Q (onStore (Store.get schema))) (document : Path) (runId : Nat)
    (d : Document) : Keeps Q (validateParsed document runId d) := by
  refine (Keeps.look hid).bind fun root => ?_
  cases DocSchema.schemaRef? d.metadata root with
  | none => exact .done _
  | some schema =>
    refine (hget schema).bind fun found => ?_
    cases found with
    | none => exact .done _
    | some cached =>
      dsimp only
      cases validateLocated document d.root cached.schema with
      | error e => exact .done _
      | ok errors => exact .done _

/-- An outcome is of the document that was validated, and of the run that validated it. -/
theorem outcome_of_leads [Retrieval] {document : Path} {n : Nat} {parsed : Document} {o : Outcome}
    {seen : List (Observation Workspace)}
    (h : (validateParsed document n parsed).Leads seen (.done (.ok (some o)))) :
    ∃ w later schema c errors, seen = .saw w :: later ∧
      DocSchema.schemaRef? parsed.metadata w.store.root = some schema ∧
      validateLocated document parsed.root c = .ok errors ∧
      o = ⟨document, n, schema, errors⟩ := by
  obtain ⟨-, hdone⟩ | ⟨w, later, rfl, hrest⟩ := h.of_step
  · cases hdone
  · have hanswers : Answers _ (Except.ok (some o) : RunResult) := ⟨later, hrest⟩
    cases href : DocSchema.schemaRef? parsed.metadata w.store.root with
    | none =>
      simp only [Program.bind, href] at hanswers
      cases answers_done.1 hanswers
    | some schema =>
      simp only [Program.bind, href] at hanswers
      obtain ⟨found, -, hfound⟩ := hanswers.of_bind
      cases found with
      | none => cases answers_done.1 hfound
      | some c =>
        dsimp only at hfound
        cases hresult : validateLocated document parsed.root c.schema with
        | error e =>
          rw [hresult] at hfound
          cases answers_done.1 hfound
        | ok errors =>
          rw [hresult] at hfound
          cases answers_done.1 hfound
          exact ⟨w, later, schema, c.schema, errors, rfl, href, hresult, rfl⟩

/-! ### Operations -/

/-- The operations that take the number of a run. -/
inductive Operation where
  | revalidate (document : Path)
  | forget (document : Path)
  /-- Validates a text without a report. -/
  | validateText (document : Path) (text : String)

/-- What a run makes of a document, as the host has read it. -/
def judge [Retrieval] (document : Path) (runId : Nat) :
    Except HostError String → Program Workspace RunResult
  | .error e => .done (.error (.documentRead document e))
  | .ok text => validateParsed document runId (Document.parse text)

/-- Takes the number of a run. -/
def countRun (w : Workspace) : Workspace :=
  { w with runs := w.runs + 1 }

def reported (document : Path) (runId : Nat) (verdict : Verdict) (w : Workspace) : Workspace :=
  { w with board := w.board.apply document runId verdict }

namespace Operation

abbrev Result : Operation → Type
  | .revalidate _ => RunResult
  | .forget _ => Unit
  | .validateText _ _ => RunResult

def program [Retrieval] : (o : Operation) → Program Workspace o.Result
  | .revalidate d => Workspace.revalidate d
  | .forget d => Workspace.forget d
  | .validateText d text => Workspace.validateText d text

/-- The document that an operation reports on. -/
def subject? : Operation → Option Path
  | .revalidate d => some d
  | .forget d => some d
  | .validateText _ _ => none

/-- Whether an operation reports on a document. -/
def On (d : Path) (o : Operation) : Prop :=
  ∃ p, o.subject? = some p ∧ p.same d = true

def verdict : (o : Operation) → o.Result → Verdict
  | .revalidate _, r => r.verdict
  | .forget _, _ => .cleared
  | .validateText _ _, r => r.verdict

/-- What an operation does between taking its number and reporting. -/
def work [Retrieval] : (o : Operation) → Nat → Program Workspace o.Result
  | .revalidate d, n => .ask (.readText d) (judge d n)
  | .forget _, _ => .done ()
  | .validateText d text, n => validateParsed d n (Document.parse text)

def conclude (o : Operation) (n : Nat) (r : o.Result) : Program Workspace o.Result :=
  match o.subject? with
  | some d => .step (reported d n (o.verdict r)) fun _ => .done r
  | none => .done r

theorem program_eq [Retrieval] (o : Operation) :
    o.program =
      .step countRun fun w => (o.work (w.runs + 1)).bind (o.conclude (w.runs + 1)) := by
  cases o with
  | revalidate d =>
    simp only [program, Workspace.revalidate, takeRun, exchange, work, Program.bind, Bind.bind,
      Pure.pure, request, report, Program.change]
    refine congrArg (Program.step countRun) (funext fun w => ?_)
    refine congrArg (Program.ask _) (funext fun r => ?_)
    cases r with
    | error e => rfl
    | ok text => rfl
  | forget d => rfl
  | validateText d text =>
    refine congrArg (Program.step countRun) (funext fun w => ?_)
    exact (bind_done _).symm

theorem keeps_work [Retrieval] {Q : (Workspace → Workspace) → Prop} (hid : Q id)
    (hget : ∀ schema, Keeps Q (onStore (Store.get schema))) (o : Operation) (n : Nat) :
    Keeps Q (o.work n) := by
  cases o with
  | revalidate d =>
    refine .ask fun r => ?_
    cases r with
    | error e => exact .done _
    | ok text => exact keeps_validateParsed hid hget _ _ _
  | forget d => exact .done _
  | validateText d text => exact keeps_validateParsed hid hget _ _ _

theorem storeOnly_work [Retrieval] (o : Operation) (n : Nat) : Keeps StoreOnly (o.work n) :=
  keeps_work storeOnly_id (fun _ => keeps_onStore _) o n

/-! ### Where an operation is -/

/-- The number that an operation has taken: its first action takes it. -/
def number? : List (Observation Workspace) → Option Nat
  | .saw w :: _ => some (w.runs + 1)
  | _ => none

theorem number?_concat {seen : List (Observation Workspace)} (h : seen ≠ [])
    (x : Observation Workspace) : number? (seen ++ [x]) = number? seen := by
  cases seen with
  | nil => exact absurd rfl h
  | cons y seen => cases y <;> rfl

/-- An operation is at its beginning, at its work, or past its report. -/
theorem leads_cases [Retrieval] {o : Operation} {seen : List (Observation Workspace)}
    {left : Program Workspace o.Result} (h : o.program.Leads seen left) :
    (seen = [] ∧ left = o.program) ∨ ∃ w later, seen = .saw w :: later ∧
      ((∃ p, (o.work (w.runs + 1)).Leads later p ∧ left = p.bind (o.conclude (w.runs + 1))) ∨
        ∃ d r before w', o.subject? = some d ∧ later = before ++ [.saw w'] ∧
          (o.work (w.runs + 1)).Leads before (.done r) ∧ left = .done r) := by
  rw [program_eq] at h ⊢
  obtain ⟨rfl, rfl⟩ | ⟨w, later, rfl, hlater⟩ := h.of_step
  · exact .inl ⟨rfl, rfl⟩
  · refine .inr ⟨w, later, rfl, ?_⟩
    obtain ⟨p, hp, rfl⟩ | ⟨r, before, after, rfl, hwork, hend⟩ := hlater.of_bind
    · exact .inl ⟨p, hp, rfl⟩
    · unfold conclude at hend ⊢
      cases hd : o.subject? with
      | none =>
        rw [hd] at hend
        obtain ⟨rfl, rfl⟩ := hend.of_done
        exact .inl ⟨.done r, by simpa using hwork, rfl⟩
      | some d =>
        rw [hd] at hend
        obtain ⟨rfl, rfl⟩ | ⟨w', rest, rfl, hrest⟩ := hend.of_step
        · exact .inl ⟨.done r, by simpa using hwork, rfl⟩
        · obtain ⟨rfl, rfl⟩ := hrest.of_done
          exact .inr ⟨d, r, before, w', rfl, rfl, hwork, rfl⟩

/-- An operation asks for nothing before it has taken its number. -/
theorem seen_ne_nil_of_ask [Retrieval] {o : Operation} {seen : List (Observation Workspace)}
    {q : Request}
    {next : q.Reply → Program Workspace o.Result} (h : o.program.Leads seen (.ask q next)) :
    seen ≠ [] := by
  rintro rfl
  rw [program_eq] at h
  cases h

/-- The changes of an operation: it takes its number, works on the store, and reports. -/
theorem change_cases [Retrieval] {o : Operation} {seen : List (Observation Workspace)}
    {change : Workspace → Workspace} {next : Workspace → Program Workspace o.Result}
    (h : o.program.Leads seen (.step change next)) :
    (seen = [] ∧ change = countRun) ∨
      (seen ≠ [] ∧ StoreOnly change ∧ ∀ d, o.On d → ∀ w r, next w ≠ .done r) ∨
      ∃ n d r, number? seen = some n ∧ o.subject? = some d ∧
        change = reported d n (o.verdict r) ∧ next = fun _ => .done r := by
  obtain ⟨rfl, hleft⟩ | ⟨w, later, rfl, ⟨p, hp, hleft⟩ | ⟨d, r, before, w', -, -, -, hleft⟩⟩ :=
    leads_cases h
  · rw [program_eq] at hleft
    cases hleft
    exact .inl ⟨rfl, rfl⟩
  · cases p with
    | done r =>
      simp only [Program.bind, conclude] at hleft
      cases hd : o.subject? with
      | none =>
        rw [hd] at hleft
        cases hleft
      | some d =>
        rw [hd] at hleft
        cases hleft
        exact .inr (.inr ⟨_, d, r, rfl, rfl, rfl, rfl⟩)
    | step c rest =>
      cases hleft
      refine .inr (.inl ⟨List.cons_ne_nil _ _, ((storeOnly_work _ _).leads hp).of_step, ?_⟩)
      rintro d ⟨p, hsubject, -⟩ v r hdone
      cases hrest : rest v with
      | done r' => simp [hrest, Program.bind, conclude, hsubject] at hdone
      | step c' rest' => simp [hrest, Program.bind] at hdone
      | ask q rest' => simp [hrest, Program.bind] at hdone
    | ask q rest => cases hleft
  · cases hleft

end Operation

/-! ### Clients -/

/-- What clients ask of a workspace. -/
inductive Client [Retrieval] : Program Workspace Unit → Prop
  | revalidate (d : Path) : Client ((Workspace.revalidate d).bind fun _ => .done ())
  | forget (d : Path) : Client (Workspace.forget d)
  | handleEvent (e : FileEvent) : Client ((Workspace.handleEvent e).bind fun _ => .done ())
  | sweep (ds : List Path) : Client ((Workspace.sweep ds).bind fun _ => .done ())
  | validateText (d : Path) (text : String) :
      Client ((Workspace.validateText d text).bind fun _ => .done ())
  | onStore {α : Type} (p : Program Store α) :
      Client ((Workspace.onStore p).bind fun _ => .done ())

def repertoire [Retrieval] : Repertoire Workspace where
  Operation := Operation
  Result := Operation.Result
  program := Operation.program
  Idle := StoreOnly
  Client := Client

/-- A kind of programs that has sequences in it, and validating and forgetting documents, and
what the store does about an event. -/
structure Suffices [Retrieval] (P : {α : Type} → Program Workspace α → Prop) : Prop where
  done : ∀ {α : Type} (a : α), P (.done a)
  bind : ∀ {α β : Type} {p : Program Workspace α} {f : α → Program Workspace β},
    P p → (∀ a, P (f a)) → P (p.bind f)
  look : ∀ {α : Type} (f : Workspace → α), P (Program.look f)
  revalidate : ∀ d, P (Workspace.revalidate d)
  forget : ∀ d, P (Workspace.forget d)
  store : ∀ e, P (onStore (Store.handleEvent e))

namespace Suffices

variable [Retrieval] {P : {α : Type} → Program Workspace α → Prop} (hP : Suffices P)

include hP

theorem forEach {α β : Type} {f : α → Program Workspace β} (h : ∀ a, P (f a)) (as : List α) :
    P (Program.forEach f as) := by
  induction as with
  | nil => exact hP.done _
  | cons a as ih => exact hP.bind (h a) fun b => hP.bind ih fun bs => hP.done (b :: bs)

theorem sweep (ds : List Path) : P (Workspace.sweep ds) :=
  hP.forEach (fun d => hP.bind (hP.revalidate d) fun r => hP.done (d, r)) ds

theorem updateDependents (e : FileEvent) (update : StoreUpdate) :
    P (Workspace.updateDependents e update) := by
  refine hP.bind (hP.look _) fun autolint => ?_
  split
  · refine hP.bind (hP.forEach (fun schema => ?_) _) fun ds => hP.done _
    exact hP.bind (hP.look _) fun ds => hP.bind (hP.sweep ds) fun _ => hP.done _
  · exact hP.done _

theorem forgetSource (e : FileEvent) : P (Workspace.forgetSource e) := by
  unfold Workspace.forgetSource
  split
  · split
    · exact hP.forget _
    · exact hP.done _
  · exact hP.done _

theorem updateDocument (e : FileEvent) : P (Workspace.updateDocument e) := by
  unfold Workspace.updateDocument
  split
  · exact hP.done _
  · split
    · exact hP.bind (hP.forget _) fun _ => hP.done _
    · refine hP.bind (hP.look _) fun autolint => ?_
      split
      · exact hP.bind (hP.revalidate _) fun _ => hP.done _
      · exact hP.done _

theorem handleEvent (e : FileEvent) : P (Workspace.handleEvent e) :=
  hP.bind (hP.store e) fun _ => hP.bind (hP.updateDependents e _) fun _ =>
    hP.bind (hP.forgetSource e) fun _ => hP.bind (hP.updateDocument e) fun _ => hP.done _

end Suffices

theorem suffices_repertoire [Retrieval] : Suffices repertoire.Composes where
  done := .done
  bind := .bind
  look _ := .step storeOnly_id fun _ => .done _
  revalidate d := .operation (R := repertoire) (Operation.revalidate d)
  forget d := .operation (R := repertoire) (Operation.forget d)
  store _ := .of_keeps (keeps_onStore _)

/-- Everything that clients ask for is made of operations. -/
theorem composes_of_client [Retrieval] (p : Program Workspace Unit) (h : Client p) :
    repertoire.Composes p := by
  have hR := suffices_repertoire
  cases h with
  | revalidate d => exact (hR.revalidate d).bind fun _ => .done ()
  | forget d => exact hR.forget d
  | handleEvent e => exact (hR.handleEvent e).bind fun _ => .done ()
  | sweep ds => exact (hR.sweep ds).bind fun _ => .done ()
  | validateText d text =>
    exact .call (R := repertoire) (Operation.validateText d text) fun _ => .done ()
  | onStore p => exact (Repertoire.Composes.of_keeps (keeps_onStore p)).bind fun _ => .done ()

/-- Whatever order the actions of clients come in, they do so in a session. -/
theorem exists_session_of_interleaves [Retrieval] {settings : Settings}
    {c : Workspace × List (Program Workspace Unit)}
    (h : Relation.ReflTransGen (Interleaves repertoire) (.ofSettings settings, []) c) :
    ∃ S : Session repertoire, S.Reachable (.ofSettings settings) ∧ S.state = c.1 ∧
      S.programs = c.2 := by
  obtain ⟨S, hreach, hstate, hprograms, -⟩ := Session.exists_session composes_of_client h
  exact ⟨S, hreach, hstate, hprograms⟩

end DocSchema.Workspace
