/-
  DocSchema/Proofs/Session.lean
  =============================
  **Programs that take turns on one state.**

  In a session clients start programs, and the programs take turns, one action at a time and in
  any order.  To speak of the operations that a program is made of, a session keeps apart what
  a program does inside of an operation and what it does outside of any: it knows what each
  operation has observed so far (`Thread.inside`), and of the operations that have ended what
  they observed and answered (`Call`).

  Keeping this apart does not restrict the programs.  Whatever order they take their turns in,
  some session takes the same (`exists_session`), as long as they are made of operations
  (`Repertoire.Composes`).
-/
import DocSchema.Proofs.Execution
import Mathlib.Logic.Relation

namespace DocSchema

open Program Relation

variable {σ α β : Type}

/-! ### Operations -/

/-- The operations that programs on a state are made of. -/
structure Repertoire (σ : Type) where
  Operation : Type
  Result : Operation → Type
  program (o : Operation) : Program σ (Result o)
  /-- The changes that programs may make outside of operations. -/
  Idle : (σ → σ) → Prop
  /-- The programs that clients may start. -/
  Client : Program σ Unit → Prop

/-- The programs that are made of operations, of idle changes and of requests. -/
inductive Repertoire.Composes (R : Repertoire σ) : Program σ α → Prop
  | done (a : α) : Composes R (.done a)
  | step {change : σ → σ} {rest : σ → Program σ α} (h : R.Idle change)
      (hrest : ∀ s, Composes R (rest s)) : Composes R (.step change rest)
  | ask {q : Request} {rest : q.Reply → Program σ α} (hrest : ∀ r, Composes R (rest r)) :
      Composes R (.ask q rest)
  | call (o : R.Operation) {rest : R.Result o → Program σ α} (hrest : ∀ a, Composes R (rest a)) :
      Composes R ((R.program o).bind rest)

namespace Repertoire.Composes

variable {R : Repertoire σ}

theorem bind {p : Program σ α} {f : α → Program σ β} (h : R.Composes p)
    (hf : ∀ a, R.Composes (f a)) : R.Composes (p.bind f) := by
  induction h with
  | done a => exact hf a
  | step hchange _ ih => exact .step hchange ih
  | ask _ ih => exact .ask ih
  | call o _ ih =>
    rw [bind_assoc]
    exact .call o ih

theorem operation (o : R.Operation) : R.Composes (R.program o) := by
  have h : R.Composes ((R.program o).bind .done) := .call o fun a => .done a
  rwa [bind_done] at h

/-- A program whose changes are all idle needs no operations. -/
theorem of_keeps {p : Program σ α} (h : Keeps R.Idle p) : R.Composes p := by
  induction h with
  | done a => exact .done a
  | step hchange _ ih => exact .step hchange ih
  | ask _ ih => exact .ask ih

end Repertoire.Composes

/-! ### Sessions -/

/-- A program under way: outside of operations, or in one that has made observations and has
some of its program left, while `rest` comes after it. -/
inductive Thread (R : Repertoire σ) where
  | outside (p : Program σ Unit)
  | inside (o : R.Operation) (seen : List (Observation σ)) (left : Program σ (R.Result o))
      (rest : R.Result o → Program σ Unit)

/-- An operation that has ended. -/
structure Call (R : Repertoire σ) where
  operation : R.Operation
  seen : List (Observation σ)
  result : R.Result operation

/-- Programs under way on a state, and the operations that have ended so far. -/
structure Session (R : Repertoire σ) where
  state : σ
  threads : List (Thread R) := []
  ended : List (Call R) := []

variable {R : Repertoire σ}

def Thread.program : Thread R → Program σ Unit
  | .outside p => p
  | .inside _ _ left rest => left.bind rest

/-- One turn of a thread, with its effect on the state and on the calls that have ended. -/
inductive Turn : σ × Thread R × List (Call R) → σ × Thread R × List (Call R) → Prop
  | idle {s : σ} {change : σ → σ} {rest : σ → Program σ Unit} {ended : List (Call R)}
      (h : R.Idle change) :
      Turn (s, .outside (.step change rest), ended) (change s, .outside (rest s), ended)
  | request {s : σ} {q : Request} {rest : q.Reply → Program σ Unit} {ended : List (Call R)}
      (r : q.Reply) : Turn (s, .outside (.ask q rest), ended) (s, .outside (rest r), ended)
  | enter {s : σ} (o : R.Operation) {rest : R.Result o → Program σ Unit}
      {ended : List (Call R)} :
      Turn (s, .outside ((R.program o).bind rest), ended)
        (s, .inside o [] (R.program o) rest, ended)
  | change {s : σ} {o : R.Operation} {seen : List (Observation σ)} {change : σ → σ}
      {next : σ → Program σ (R.Result o)} {rest : R.Result o → Program σ Unit}
      {ended : List (Call R)} :
      Turn (s, .inside o seen (.step change next) rest, ended)
        (change s, .inside o (seen ++ [.saw s]) (next s) rest, ended)
  | hear {s : σ} {o : R.Operation} {seen : List (Observation σ)} {q : Request}
      {next : q.Reply → Program σ (R.Result o)} {rest : R.Result o → Program σ Unit}
      {ended : List (Call R)} (r : q.Reply) :
      Turn (s, .inside o seen (.ask q next) rest, ended)
        (s, .inside o (seen ++ [.heard q r]) (next r) rest, ended)
  | leave {s : σ} {o : R.Operation} {seen : List (Observation σ)} {a : R.Result o}
      {rest : R.Result o → Program σ Unit} {ended : List (Call R)} :
      Turn (s, .inside o seen (.done a) rest, ended)
        (s, .outside (rest a), ⟨o, seen, a⟩ :: ended)

namespace Session

/-- What may happen next: a client starts a program, or a thread takes its turn. -/
inductive Step : Session R → Session R → Prop
  | start {s : σ} {threads : List (Thread R)} {ended : List (Call R)} {p : Program σ Unit}
      (h : R.Client p) : Step ⟨s, threads, ended⟩ ⟨s, .outside p :: threads, ended⟩
  | turn {s s' : σ} {before after : List (Thread R)} {t t' : Thread R}
      {ended ended' : List (Call R)} (h : Turn (s, t, ended) (s', t', ended')) :
      Step ⟨s, before ++ t :: after, ended⟩ ⟨s', before ++ t' :: after, ended'⟩

theorem Step.first {s s' : σ} {t t' : Thread R} {after : List (Thread R)}
    {ended ended' : List (Call R)} (h : Turn (s, t, ended) (s', t', ended')) :
    Step ⟨s, t :: after, ended⟩ ⟨s', t' :: after, ended'⟩ :=
  show Step ⟨s, [] ++ t :: after, ended⟩ ⟨s', [] ++ t' :: after, ended'⟩ from .turn h

theorem Step.second {s s' : σ} {t t' u : Thread R} {after : List (Thread R)}
    {ended ended' : List (Call R)} (h : Turn (s, t, ended) (s', t', ended')) :
    Step ⟨s, u :: t :: after, ended⟩ ⟨s', u :: t' :: after, ended'⟩ :=
  show Step ⟨s, [u] ++ t :: after, ended⟩ ⟨s', [u] ++ t' :: after, ended'⟩ from .turn h

/-- `S.Leads S'`: the session may go on from `S` to `S'`. -/
def Leads : Session R → Session R → Prop :=
  ReflTransGen Step

/-- The sessions that may come about when clients come to a state. -/
def Reachable (init : σ) (S : Session R) : Prop :=
  Leads ⟨init, [], []⟩ S

/-- A session knows its operations: their programs lead to where they are. -/
structure Faithful (S : Session R) : Prop where
  inside : ∀ {o seen left rest}, Thread.inside o seen left rest ∈ S.threads →
    (R.program o).Leads seen left
  ended : ∀ c ∈ S.ended, (R.program c.operation).Leads c.seen (.done c.result)

theorem Faithful.step {S S' : Session R} (hS : S.Faithful) (h : Step S S') : S'.Faithful := by
  cases h with
  | start _ =>
    refine ⟨fun {o seen left rest} ht => ?_, hS.ended⟩
    rcases List.mem_cons.1 ht with ht | ht
    · cases ht
    · exact hS.inside ht
  | @turn s s' before after t t' ended ended' h =>
    -- the other threads are where they were
    have hother : ∀ {o seen left rest}, Thread.inside o seen left rest ∈ before ++ t' :: after →
        Thread.inside o seen left rest = t' ∨ (R.program o).Leads seen left := by
      intro o seen left rest ht
      rcases List.mem_append.1 ht with ht | ht
      · exact .inr (hS.inside (List.mem_append_left _ ht))
      · rcases List.mem_cons.1 ht with ht | ht
        · exact .inl ht
        · exact .inr (hS.inside (List.mem_append_right _ (List.mem_cons_of_mem _ ht)))
    have hself : t ∈ before ++ t :: after := by simp
    cases h with
    | idle _ | request _ =>
      refine ⟨fun {o seen left rest} ht => ?_, hS.ended⟩
      rcases hother ht with ht | ht
      · cases ht
      · exact ht
    | enter o =>
      refine ⟨fun {o seen left rest} ht => ?_, hS.ended⟩
      rcases hother ht with ht | ht
      · cases ht
        exact .refl _
      · exact ht
    | change =>
      refine ⟨fun {o seen left rest} ht => ?_, hS.ended⟩
      rcases hother ht with ht | ht
      · cases ht
        exact (hS.inside hself).saw _
      · exact ht
    | hear r =>
      refine ⟨fun {o seen left rest} ht => ?_, hS.ended⟩
      rcases hother ht with ht | ht
      · cases ht
        exact (hS.inside hself).heard r
      · exact ht
    | leave =>
      refine ⟨fun {o seen left rest} ht => ?_, fun c hc => ?_⟩
      · rcases hother ht with ht | ht
        · cases ht
        · exact ht
      · rcases List.mem_cons.1 hc with rfl | hc
        · exact hS.inside hself
        · exact hS.ended c hc

theorem Faithful.leads {S S' : Session R} (hS : S.Faithful) (h : S.Leads S') : S'.Faithful := by
  induction h with
  | refl => exact hS
  | tail _ hstep ih => exact ih.step hstep

theorem Reachable.faithful {init : σ} {S : Session R} (h : Reachable init S) : S.Faithful :=
  Faithful.leads ⟨fun ht => absurd ht List.not_mem_nil, fun _ hc => absurd hc List.not_mem_nil⟩ h

/-- What has ended stays in the record. -/
theorem ended_subset_of_leads {S S' : Session R} (h : S.Leads S') : S.ended ⊆ S'.ended := by
  induction h with
  | refl => exact List.Subset.refl _
  | tail _ hstep ih =>
    refine List.Subset.trans ih ?_
    cases hstep with
    | start _ => exact List.Subset.refl _
    | turn hturn =>
      cases hturn with
      | leave => exact List.subset_cons_self _ _
      | idle _ | request _ | enter _ | change | hear _ => exact List.Subset.refl _

end Session

/-! ### Operations that nothing interrupts -/

namespace Session

/-- An operation may go on while all other threads wait. -/
theorem turns_of_advances {o : R.Operation} {rest : R.Result o → Program σ Unit}
    {ended : List (Call R)} {left left' : Program σ (R.Result o)} {s s' : σ}
    {later : List (Observation σ)} (h : Advances left s later left' s')
    (seen : List (Observation σ)) :
    ReflTransGen Turn (s, .inside o seen left rest, ended)
      (s', .inside o (seen ++ later) left' rest, ended) := by
  induction h generalizing seen with
  | refl p s => simpa using ReflTransGen.refl
  | @step change next s s' later left _ ih =>
    have h := ih (seen ++ [.saw s])
    rw [List.append_assoc] at h
    exact .head .change h
  | @ask q next r s s' later left _ ih =>
    have h := ih (seen ++ [.heard q r])
    rw [List.append_assoc] at h
    exact .head (.hear r) h

variable {S S' : Session R}

/-- A client may call an operation, which goes on while all other threads wait. -/
theorem Leads.enter (h : S.Leads S') {o : R.Operation} {s : σ} {seen : List (Observation σ)}
    {left : Program σ (R.Result o)}
    (hclient : R.Client ((R.program o).bind fun _ => .done ()))
    (hadvances : Advances (R.program o) S'.state seen left s) :
    S.Leads ⟨s, .inside o seen left (fun _ => .done ()) :: S'.threads, S'.ended⟩ := by
  obtain ⟨s', threads, ended⟩ := S'
  have hturns : ReflTransGen Turn (s', .outside ((R.program o).bind fun _ => .done ()), ended)
      (s, .inside o seen left fun _ => .done (), ended) :=
    .head (.enter o) (turns_of_advances hadvances [])
  let whole (c : σ × Thread R × List (Call R)) : Session R := ⟨c.1, c.2.1 :: threads, c.2.2⟩
  exact (h.tail (.start hclient)).trans
    (ReflTransGen.lift whole (fun _ _ hturn => Step.first hturn) _ _ hturns)

/-- A client may call an operation that comes to its end before anything else happens. -/
theorem Leads.call_of_advances (h : S.Leads S') {o : R.Operation} {s : σ}
    {seen : List (Observation σ)} {a : R.Result o}
    (hclient : R.Client ((R.program o).bind fun _ => .done ()))
    (hadvances : Advances (R.program o) S'.state seen (.done a) s) :
    S.Leads ⟨s, .outside (.done ()) :: S'.threads, ⟨o, seen, a⟩ :: S'.ended⟩ :=
  (h.enter hclient hadvances).tail (Step.first .leave)

theorem Leads.call (h : S.Leads S') (host : (q : Request) → q.Reply)
    (o : R.Operation) (hclient : R.Client ((R.program o).bind fun _ => .done ())) :
    S.Leads ⟨((R.program o).alone host S'.state).2, .outside (.done ()) :: S'.threads,
      ⟨o, (R.program o).trace host S'.state, ((R.program o).alone host S'.state).1⟩ ::
        S'.ended⟩ :=
  h.call_of_advances hclient (advances_alone host _ _)

/-- What a session does, it may also do while further threads wait. -/
theorem Leads.frame (h : S.Leads S') (threads : List (Thread R)) :
    Leads ⟨S.state, S.threads ++ threads, S.ended⟩ ⟨S'.state, S'.threads ++ threads, S'.ended⟩ := by
  let framed (T : Session R) : Session R := ⟨T.state, T.threads ++ threads, T.ended⟩
  have hframed : ∀ T T', Step T T' → Step (framed T) (framed T') := by
    intro T T' hstep
    cases hstep with
    | start hclient => exact .start hclient
    | turn hturn =>
      simp only [framed, List.append_assoc, List.cons_append]
      exact .turn hturn
  exact ReflTransGen.lift framed hframed _ _ h

/-- An operation may wait before its last action for whatever else happens. -/
theorem Leads.late {o : R.Operation} {init s : σ} {seen : List (Observation σ)} {change : σ → σ}
    {rest : σ → Program σ (R.Result o)} {a : R.Result o}
    (hclient : R.Client ((R.program o).bind fun _ => .done ()))
    (hadvances : Advances (R.program o) init seen (.step change rest) s)
    (h : Leads ⟨s, [], []⟩ S) (hdone : rest S.state = .done a) :
    Leads ⟨init, [], []⟩ ⟨change S.state, S.threads ++ [.outside (.done ())],
      ⟨o, seen ++ [.saw S.state], a⟩ :: S.ended⟩ := by
  have henter := Leads.enter (S := ⟨init, [], []⟩) .refl hclient hadvances
  have hwait := henter.trans (h.frame [.inside o seen (.step change rest) fun _ => .done ()])
  refine (hwait.tail (.turn .change)).tail (.turn ?_)
  rw [hdone]
  exact .leave

end Session

/-! ### What has been observed -/

/-- How far an operation has come: what it has observed. -/
structure Progress (R : Repertoire σ) where
  operation : R.Operation
  seen : List (Observation σ)

def Thread.progress? : Thread R → Option (Progress R)
  | .outside _ => none
  | .inside o seen _ _ => some ⟨o, seen⟩

def Call.progress (c : Call R) : Progress R :=
  ⟨c.operation, c.seen⟩

/-- What an operation answers is decided by what it has observed. -/
theorem Session.Faithful.call_eq {S : Session R} (hS : S.Faithful) {c c' : Call R}
    (hc : c ∈ S.ended) (hc' : c' ∈ S.ended) (h : c.progress = c'.progress) : c = c' := by
  obtain ⟨o, seen, a⟩ := c
  obtain ⟨o', seen', a'⟩ := c'
  cases h
  have hdone := (hS.ended ⟨o, seen, a⟩ hc).unique (hS.ended ⟨o, seen, a'⟩ hc')
  cases hdone
  rfl

/-- The operations that have begun, whether they have ended or not. -/
def Session.begun (S : Session R) : List (Progress R) :=
  S.threads.filterMap Thread.progress? ++ S.ended.map Call.progress

namespace Session

variable {S : Session R} {b : Progress R}

/-- An operation that has begun is under way or has ended. -/
theorem inside_or_ended (hb : b ∈ S.begun) :
    (∃ left rest, .inside b.operation b.seen left rest ∈ S.threads) ∨
      ∃ a, ⟨b.operation, b.seen, a⟩ ∈ S.ended := by
  rcases List.mem_append.1 hb with hb | hb
  · obtain ⟨t, ht, htb⟩ := List.mem_filterMap.1 hb
    cases t with
    | outside p => cases htb
    | inside o seen left rest =>
      cases htb
      exact .inl ⟨left, rest, ht⟩
  · obtain ⟨c, hc, rfl⟩ := List.mem_map.1 hb
    exact .inr ⟨c.result, hc⟩

theorem mem_begun_of_ended {c : Call R} (hc : c ∈ S.ended) : c.progress ∈ S.begun :=
  List.mem_append_right _ (List.mem_map_of_mem hc)

/-- A session knows all operations that have begun. -/
theorem Faithful.exists_leads (hS : S.Faithful) (hb : b ∈ S.begun) :
    ∃ left, (R.program b.operation).Leads b.seen left := by
  obtain ⟨left, rest, ht⟩ | ⟨a, hc⟩ := inside_or_ended hb
  · exact ⟨left, hS.inside ht⟩
  · exact ⟨.done a, hS.ended _ hc⟩

end Session

/-- What a step of a session means for the state and for the operations that have begun. -/
inductive Effect : σ × List (Progress R) → σ × List (Progress R) → Prop
  | none (s : σ) (begun : List (Progress R)) : Effect (s, begun) (s, begun)
  | idle {s : σ} {begun : List (Progress R)} {change : σ → σ} (h : R.Idle change) :
      Effect (s, begun) (change s, begun)
  | enter {s : σ} {begun : List (Progress R)} (o : R.Operation) :
      Effect (s, begun) (s, ⟨o, []⟩ :: begun)
  | change {s : σ} {others : List (Progress R)} {o : R.Operation} {seen : List (Observation σ)}
      {change : σ → σ} {next : σ → Program σ (R.Result o)}
      (h : (R.program o).Leads seen (.step change next)) :
      Effect (s, ⟨o, seen⟩ :: others) (change s, ⟨o, seen ++ [.saw s]⟩ :: others)
  | hear {s : σ} {others : List (Progress R)} {o : R.Operation} {seen : List (Observation σ)}
      {q : Request} {next : q.Reply → Program σ (R.Result o)} (r : q.Reply)
      (h : (R.program o).Leads seen (.ask q next)) :
      Effect (s, ⟨o, seen⟩ :: others) (s, ⟨o, seen ++ [.heard q r]⟩ :: others)

namespace Session

/-- The operation of a thread comes first among those that have begun, up to their order. -/
theorem begun_perm_of_inside {s : σ} {before after : List (Thread R)} {ended : List (Call R)}
    {o : R.Operation} {seen : List (Observation σ)} {left : Program σ (R.Result o)}
    {rest : R.Result o → Program σ Unit} :
    (Session.begun ⟨s, before ++ .inside o seen left rest :: after, ended⟩).Perm
      (⟨o, seen⟩ :: (before.filterMap Thread.progress? ++ after.filterMap Thread.progress? ++
        ended.map Call.progress)) := by
  simp only [begun, List.filterMap_append, List.filterMap_cons, Thread.progress?, List.append_assoc,
    List.cons_append]
  exact List.perm_middle

theorem begun_of_outside {s : σ} {before after : List (Thread R)} {ended : List (Call R)}
    {p : Program σ Unit} :
    Session.begun ⟨s, before ++ .outside p :: after, ended⟩ =
      before.filterMap Thread.progress? ++ after.filterMap Thread.progress? ++
        ended.map Call.progress := by
  simp [begun, List.filterMap_cons, Thread.progress?]

theorem Step.effect {S S' : Session R} (hS : S.Faithful) (h : Step S S') :
    ∃ begun begun', S.begun.Perm begun ∧ S'.begun.Perm begun' ∧
      Effect (S.state, begun) (S'.state, begun') := by
  cases h with
  | start _ => exact ⟨_, _, .refl _, .refl _, .none _ _⟩
  | @turn s s' before after t t' ended ended' h =>
    have hself : t ∈ before ++ t :: after := by simp
    cases h with
    | idle hidle =>
      refine ⟨_, _, .refl _, .refl _, ?_⟩
      rw [begun_of_outside, begun_of_outside]
      exact .idle hidle
    | request r =>
      refine ⟨_, _, .refl _, .refl _, ?_⟩
      rw [begun_of_outside, begun_of_outside]
      exact .none _ _
    | enter o => exact ⟨_, _, .of_eq begun_of_outside, begun_perm_of_inside, .enter o⟩
    | change => exact ⟨_, _, begun_perm_of_inside, begun_perm_of_inside, .change (hS.inside hself)⟩
    | hear r => exact ⟨_, _, begun_perm_of_inside, begun_perm_of_inside, .hear r (hS.inside hself)⟩
    | leave =>
      refine ⟨_, _, begun_perm_of_inside, ?_, .none _ _⟩
      rw [begun_of_outside, List.map_cons]
      exact List.perm_middle

/-- What holds at first and is kept by every effect, holds in all reachable sessions. -/
theorem Reachable.induct {P : σ → List (Progress R) → Prop} {init : σ}
    (hperm : ∀ {s begun begun'}, begun.Perm begun' → P s begun → P s begun')
    (hinit : P init [])
    (hstep : ∀ {s s' begun begun'}, Effect (s, begun) (s', begun') → P s begun → P s' begun')
    {S : Session R} (h : Reachable init S) : P S.state S.begun := by
  induction h with
  | refl => exact hinit
  | @tail T T' hreach hturn ih =>
    obtain ⟨begun, begun', hT, hT', heffect⟩ := hturn.effect (Reachable.faithful hreach)
    exact hperm hT'.symm (hstep heffect (hperm hT ih))

end Session

/-! ### Every order of turns -/

/-- One action of several programs on a state: one of them acts, or a client starts another. -/
inductive Interleaves (R : Repertoire σ) :
    σ × List (Program σ Unit) → σ × List (Program σ Unit) → Prop
  | start {s : σ} {ps : List (Program σ Unit)} {p : Program σ Unit} (h : R.Client p) :
      Interleaves R (s, ps) (s, p :: ps)
  | step {s : σ} {before after : List (Program σ Unit)} {change : σ → σ}
      {rest : σ → Program σ Unit} :
      Interleaves R (s, before ++ .step change rest :: after) (change s, before ++ rest s :: after)
  | ask {s : σ} {before after : List (Program σ Unit)} {q : Request}
      {rest : q.Reply → Program σ Unit} (r : q.Reply) :
      Interleaves R (s, before ++ .ask q rest :: after) (s, before ++ rest r :: after)

namespace Thread

/-- What comes after the operation of the thread is made of operations. -/
def Composed : Thread R → Prop
  | .outside p => R.Composes p
  | .inside _ _ _ rest => ∀ a, R.Composes (rest a)

/-- A thread whose next turn is the next action of its program, if there is any. -/
inductive Ready : Thread R → Prop
  | done (a : Unit) : Ready (.outside (.done a))
  | idle {change : σ → σ} {rest : σ → Program σ Unit} (h : R.Idle change)
      (hrest : ∀ s, R.Composes (rest s)) : Ready (.outside (.step change rest))
  | request {q : Request} {rest : q.Reply → Program σ Unit} (hrest : ∀ r, R.Composes (rest r)) :
      Ready (.outside (.ask q rest))
  | change {o : R.Operation} {seen : List (Observation σ)} {change : σ → σ}
      {next : σ → Program σ (R.Result o)} {rest : R.Result o → Program σ Unit}
      (hrest : ∀ a, R.Composes (rest a)) : Ready (.inside o seen (.step change next) rest)
  | hear {o : R.Operation} {seen : List (Observation σ)} {q : Request}
      {next : q.Reply → Program σ (R.Result o)} {rest : R.Result o → Program σ Unit}
      (hrest : ∀ a, R.Composes (rest a)) : Ready (.inside o seen (.ask q next) rest)

/-- Entering and leaving operations, `t` becomes ready. -/
def Settles (t : Thread R) : Prop :=
  ∀ s ended, ∃ t' ended', ReflTransGen Turn (s, t, ended) (s, t', ended') ∧
    t'.program = t.program ∧ t'.Ready

theorem settles_inside {o : R.Operation} {seen : List (Observation σ)}
    {left : Program σ (R.Result o)} {rest : R.Result o → Program σ Unit}
    (hrest : ∀ a, R.Composes (rest a)) (h : ∀ a, Settles (.outside (rest a) : Thread R)) :
    Settles (.inside o seen left rest) := by
  intro s ended
  cases left with
  | done a =>
    obtain ⟨t', ended', hturns, hprogram, hready⟩ := h a s (⟨o, seen, a⟩ :: ended)
    exact ⟨t', ended', .head .leave hturns, hprogram, hready⟩
  | step change next => exact ⟨_, _, .refl, rfl, .change hrest⟩
  | ask q next => exact ⟨_, _, .refl, rfl, .hear hrest⟩

theorem settles_outside {p : Program σ Unit} (h : R.Composes p) :
    Settles (.outside p : Thread R) := by
  induction h with
  | done a => exact fun s ended => ⟨_, _, .refl, rfl, .done a⟩
  | step hidle hrest _ => exact fun s ended => ⟨_, _, .refl, rfl, .idle hidle hrest⟩
  | ask hrest _ => exact fun s ended => ⟨_, _, .refl, rfl, .request hrest⟩
  | call o hrest ih =>
    intro s ended
    have hinside : Settles (.inside o [] (R.program o) _ : Thread R) := settles_inside hrest ih
    obtain ⟨t', ended', hturns, hprogram, hready⟩ := hinside s ended
    exact ⟨t', ended', .head (.enter o) hturns, hprogram, hready⟩

theorem Composed.settles {t : Thread R} (h : t.Composed) : t.Settles := by
  cases t with
  | outside p => exact settles_outside h
  | inside o seen left rest => exact settles_inside h fun a => settles_outside (h a)

theorem Ready.step {t : Thread R} (h : t.Ready) {change : σ → σ} {rest : σ → Program σ Unit}
    (hprogram : t.program = .step change rest) (s : σ) (ended : List (Call R)) :
    ∃ t', Turn (s, t, ended) (change s, t', ended) ∧ t'.program = rest s ∧ t'.Composed := by
  cases h with
  | done a => cases hprogram
  | idle hidle hrest =>
    cases hprogram
    exact ⟨_, .idle hidle, rfl, hrest s⟩
  | request _ => cases hprogram
  | change hrest =>
    cases hprogram
    exact ⟨_, .change, rfl, hrest⟩
  | hear _ => cases hprogram

theorem Ready.ask {t : Thread R} (h : t.Ready) {q : Request} {rest : q.Reply → Program σ Unit}
    (hprogram : t.program = .ask q rest) (r : q.Reply) (s : σ) (ended : List (Call R)) :
    ∃ t', Turn (s, t, ended) (s, t', ended) ∧ t'.program = rest r ∧ t'.Composed := by
  cases h with
  | done a => cases hprogram
  | idle _ _ => cases hprogram
  | request hrest =>
    cases hprogram
    exact ⟨_, .request r, rfl, hrest r⟩
  | change _ => cases hprogram
  | hear hrest =>
    cases hprogram
    exact ⟨_, .hear r, rfl, hrest⟩

end Thread

namespace Session

/-- The programs of a session, as far as they are left. -/
def programs (S : Session R) : List (Program σ Unit) :=
  S.threads.map Thread.program

theorem leads_of_turns {before after : List (Thread R)} {s s' : σ} {t t' : Thread R}
    {ended ended' : List (Call R)} (h : ReflTransGen Turn (s, t, ended) (s', t', ended')) :
    Leads ⟨s, before ++ t :: after, ended⟩ ⟨s', before ++ t' :: after, ended'⟩ := by
  let whole (c : σ × Thread R × List (Call R)) : Session R := ⟨c.1, before ++ c.2.1 :: after, c.2.2⟩
  exact ReflTransGen.lift whole (fun _ _ hturn => Step.turn hturn) _ _ h

/-- When one of the programs of a session acts, a thread of the session does the same. -/
theorem leads_of_acts {S : Session R} (hS : ∀ t ∈ S.threads, t.Composed) {s' : σ}
    {before after : List (Program σ Unit)} {p p' : Program σ Unit}
    (hprograms : S.programs = before ++ p :: after)
    (hact : ∀ t : Thread R, t.Ready → t.program = p → ∀ ended, ∃ t',
      Turn (S.state, t, ended) (s', t', ended) ∧ t'.program = p' ∧ t'.Composed) :
    ∃ S', S.Leads S' ∧ S'.state = s' ∧ S'.programs = before ++ p' :: after ∧
      ∀ t ∈ S'.threads, t.Composed := by
  obtain ⟨s, threads, ended⟩ := S
  obtain ⟨ts, us, rfl, rfl, hus⟩ := List.map_eq_append_iff.1 hprograms
  obtain ⟨t, vs, rfl, rfl, rfl⟩ := List.map_eq_cons_iff.1 hus
  obtain ⟨u, ended', hturns, hu, hready⟩ := (hS t (by simp)).settles s ended
  obtain ⟨t', hturn, hprogram, hcomposed⟩ := hact u hready hu ended'
  refine ⟨⟨s', ts ++ t' :: vs, ended'⟩, leads_of_turns (hturns.tail hturn), rfl, ?_, ?_⟩
  · simp [programs, hprogram]
  · intro x hx
    rcases List.mem_append.1 hx with hx | hx
    · exact hS x (List.mem_append_left _ hx)
    · rcases List.mem_cons.1 hx with rfl | hx
      · exact hcomposed
      · exact hS x (List.mem_append_right _ (List.mem_cons_of_mem _ hx))

/-- Whatever order programs take their turns in, they do so in some session. -/
theorem exists_session (hR : ∀ p, R.Client p → R.Composes p) {init : σ}
    {c : σ × List (Program σ Unit)} (h : ReflTransGen (Interleaves R) (init, []) c) :
    ∃ S : Session R, Reachable init S ∧ S.state = c.1 ∧ S.programs = c.2 ∧
      ∀ t ∈ S.threads, t.Composed := by
  induction h with
  | refl => exact ⟨⟨init, [], []⟩, .refl, rfl, rfl, by simp⟩
  | tail _ hstep ih =>
    obtain ⟨S, hreach, hstate, hprograms, hcomposed⟩ := ih
    cases hstep with
    | @start s ps p hp =>
      refine ⟨⟨S.state, .outside p :: S.threads, S.ended⟩, hreach.tail (.start hp), hstate, ?_, ?_⟩
      · simpa [programs, Thread.program] using hprograms
      · intro t ht
        rcases List.mem_cons.1 ht with rfl | ht
        · exact hR p hp
        · exact hcomposed t ht
    | @step s before after change rest =>
      change S.state = s at hstate
      subst hstate
      obtain ⟨S', hleads, hS'⟩ := leads_of_acts hcomposed hprograms
        fun t ht htp ended => ht.step htp S.state ended
      exact ⟨S', hreach.trans hleads, hS'⟩
    | @ask s before after q rest r =>
      change S.state = s at hstate
      subst hstate
      obtain ⟨S', hleads, hS'⟩ := leads_of_acts hcomposed hprograms
        fun t ht htp ended => ht.ask htp r S.state ended
      exact ⟨S', hreach.trans hleads, hS'⟩

end Session

end DocSchema
