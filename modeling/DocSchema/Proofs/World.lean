/-
  DocSchema/Proofs/World.lean
  ===========================
  **Sessions in which files change and time passes.**

  A world holds a state, the host as it is at the time, and the moment, which counts the actions
  so far.  In a world a request is an action like any other, replied to by the host of the moment
  (`Program.inWorld`), and in between somebody may change what the host has.  So every
  observation of an operation is dated, and of two observations one can tell which is the earlier.

  The main statement is about where a property of the state comes from: it has held from the
  beginning, or the action of an operation has made it true and no operation has found it
  otherwise since then (`explained_of_reachable`).
-/
import DocSchema.Proofs.Session

namespace DocSchema

open Program

variable {σ α β : Type}

/-! ### Worlds -/

abbrev Host : Type := (q : Request) → q.Reply

/-- A state, the host of the moment, and the moment. -/
structure World (σ : Type) where
  state : σ
  host : Host
  moment : Nat := 0

namespace World

/-- The world after an action on its state. -/
def next (change : σ → σ) (w : World σ) : World σ :=
  ⟨change w.state, w.host, w.moment + 1⟩

/-- The world after some actions that leave its state alone. -/
def later (w : World σ) (n : Nat) : World σ :=
  ⟨w.state, w.host, w.moment + n⟩

/-- The world after somebody has changed what the host has. -/
def rehost (f : Host → Host) (w : World σ) : World σ :=
  ⟨w.state, f w.host, w.moment + 1⟩

end World

namespace Program

/-- A program in a world: each action takes its moment, and requests go to the host of the world.
None of the requests changes what the host has. -/
def inWorld : Program σ α → Program (World σ) α
  | .done a => .done a
  | .step change rest => .step (World.next change) fun w => (rest w.state).inWorld
  | .ask q rest => .step (World.next id) fun w => (rest (w.host q)).inWorld

theorem inWorld_bind (p : Program σ α) (f : α → Program σ β) :
    (p.bind f).inWorld = p.inWorld.bind fun a => (f a).inWorld := by
  induction p with
  | done a => rfl
  | step change rest ih => simp only [bind, inWorld, ih]
  | ask q rest ih => simp only [bind, inWorld, ih]

theorem Leads.exists_inWorld {p : Program σ α} {seen : List (Observation (World σ))}
    {left : Program (World σ) α} (h : Leads p.inWorld seen left) :
    ∃ p' : Program σ α, left = p'.inWorld := by
  -- the program varies along the run, so the induction must know that it is one in a world
  generalize hp : p.inWorld = whole at h
  induction h generalizing p with
  | refl _ => exact ⟨p, hp.symm⟩
  | @step change rest w seen left _ ih =>
    cases p with
    | done a => cases hp
    | step f next =>
      cases hp
      exact ih rfl
    | ask q next =>
      cases hp
      exact ih rfl
  | ask _ _ => cases p <;> cases hp

/-- Its actions take a moment each, and leave the host alone. -/
theorem Leads.exists_next {p : Program σ α} {seen : List (Observation (World σ))}
    {change : World σ → World σ} {rest : World σ → Program (World σ) α}
    (h : Leads p.inWorld seen (.step change rest)) : ∃ f, change = World.next f := by
  obtain ⟨p', hleft⟩ := h.exists_inWorld
  cases p' with
  | done a => cases hleft
  | step f next =>
    cases hleft
    exact ⟨f, rfl⟩
  | ask q next =>
    cases hleft
    exact ⟨id, rfl⟩

end Program

/-! ### Operations in a world -/

namespace Repertoire

variable {R : Repertoire σ}

/-- What changes a world outside of operations. -/
inductive Passes (R : Repertoire σ) : (World σ → World σ) → Prop
  | idle {change : σ → σ} (h : R.Idle change) : Passes R (World.next change)
  | rehost (f : Host → Host) : Passes R (World.rehost f)

/-- Who comes to a world: the clients, and whoever changes files. -/
inductive Visits (R : Repertoire σ) : Program (World σ) Unit → Prop
  | client {p : Program σ Unit} (h : R.Client p) : Visits R p.inWorld
  | rehost (f : Host → Host) : Visits R (Program.change (World.rehost f))

def inWorld (R : Repertoire σ) : Repertoire (World σ) where
  Operation := R.Operation
  Result := R.Result
  program o := (R.program o).inWorld
  Idle := R.Passes
  Client := R.Visits

theorem visits_call {p : Program σ α} {f : α → Program σ Unit} (h : R.Client (p.bind f)) :
    R.Visits (p.inWorld.bind fun a => (f a).inWorld) := by
  rw [← inWorld_bind]
  exact .client h

theorem Composes.inWorld (hid : R.Idle id) {p : Program σ α} (h : R.Composes p) :
    R.inWorld.Composes p.inWorld := by
  induction h with
  | done a => exact .done a
  | step hchange _ ih => exact .step (.idle hchange) fun w => ih w.state
  | ask _ ih => exact .step (.idle hid) fun w => ih _
  | call o _ ih =>
    rw [inWorld_bind]
    exact .call (R := R.inWorld) o ih

theorem composes_of_visits (hid : R.Idle id) (hR : ∀ p, R.Client p → R.Composes p)
    (p : Program (World σ) Unit) (h : R.Visits p) : R.inWorld.Composes p := by
  cases h with
  | client h => exact (hR _ h).inWorld hid
  | rehost f => exact .step (.rehost f) fun _ => .done ()

end Repertoire

variable {R : Repertoire σ}

/-- At any time somebody may change what the host has. -/
theorem Session.Leads.rehost {S S' : Session R.inWorld} (h : S.Leads S') (f : Host → Host) :
    S.Leads ⟨S'.state.rehost f, .outside (.done ()) :: S'.threads, S'.ended⟩ :=
  (h.tail (.start (.rehost f))).tail (Step.first (.idle (.rehost f)))

/-! ### Actions of operations -/

/-- The operation acted in the world `v`, and left the state `x`. -/
def Acts (b : Progress R.inWorld) (v : World σ) (x : σ) : Prop :=
  ∃ before later change rest, b.seen = before ++ .saw v :: later ∧
    (R.program b.operation).inWorld.Leads before (.step change rest) ∧ x = (change v).state

/-- Some of the operations acted in the world `v`, and left the state `x`. -/
def Acted (begun : List (Progress R.inWorld)) (v : World σ) (x : σ) : Prop :=
  ∃ b ∈ begun, Acts b v x

theorem acted_cons {b : Progress R.inWorld} {others : List (Progress R.inWorld)} {v : World σ}
    {x : σ} : Acted (b :: others) v x ↔ Acts b v x ∨ Acted others v x := by
  simp [Acted]

theorem not_acts_nil {o : R.Operation} {v : World σ} {x : σ} :
    ¬ Acts (R := R) ⟨o, []⟩ v x := by
  rintro ⟨before, later, change, rest, hseen, -, -⟩
  simp at hseen

/-- One more observation is one more action. -/
theorem acts_concat_iff {o : R.Operation} {seen : List (Observation (World σ))}
    {change : World σ → World σ} {rest : World σ → Program (World σ) (R.Result o)}
    (h : (R.program o).inWorld.Leads seen (.step change rest)) {w v : World σ} {x : σ} :
    Acts (R := R) ⟨o, seen ++ [.saw w]⟩ v x ↔
      Acts (R := R) ⟨o, seen⟩ v x ∨ v = w ∧ x = (change w).state := by
  constructor
  · rintro ⟨before, later, change', rest', hseen, hleads, rfl⟩
    -- the action is the last one, or the observations after it are more than one
    obtain rfl | ⟨later, last, rfl⟩ := later.eq_nil_or_concat
    · obtain ⟨rfl, hlast⟩ := List.append_inj' hseen rfl
      cases hlast
      cases h.unique hleads
      exact .inr ⟨rfl, rfl⟩
    · rw [List.concat_eq_append, ← List.cons_append, ← List.append_assoc] at hseen
      obtain ⟨rfl, -⟩ := List.append_inj' hseen rfl
      exact .inl ⟨before, later, change', rest', rfl, hleads, rfl⟩
  · rintro (⟨before, later, change', rest', hseen, hleads, rfl⟩ | ⟨rfl, rfl⟩)
    · refine ⟨before, later ++ [.saw w], change', rest', ?_, hleads, rfl⟩
      change seen = before ++ .saw v :: later at hseen
      simp [hseen]
    · exact ⟨seen, [], change, rest, rfl, h, rfl⟩

/-- Whatever an operation has observed, it was at an action of its own. -/
theorem acts_of_mem {b : Progress R.inWorld}
    {left : Program (World σ) (R.inWorld.Result b.operation)}
    (h : (R.inWorld.program b.operation).Leads b.seen left) {v : World σ} (hv : .saw v ∈ b.seen) :
    ∃ x, Acts b v x := by
  obtain ⟨before, later, hseen⟩ := List.append_of_mem hv
  rw [hseen] at h
  obtain ⟨change, rest, hleads, -⟩ := h.of_append_saw
  exact ⟨_, before, later, change, rest, hseen, hleads, rfl⟩

/-- A step of a session passes the operations by, or it is one more action of theirs. -/
theorem Effect.inWorld_cases {w w' : World σ} {begun begun' : List (Progress R.inWorld)}
    (h : Effect (w, begun) (w', begun')) :
    ((w' = w ∨ ∃ change, R.Passes change ∧ w' = change w) ∧
        ∀ v x, Acted begun' v x ↔ Acted begun v x) ∨
      ∃ f, w' = w.next f ∧
        ∀ v x, Acted begun' v x ↔ Acted begun v x ∨ v = w ∧ x = f w.state := by
  cases h with
  | none => exact .inl ⟨.inl rfl, fun v x => Iff.rfl⟩
  | idle hidle => exact .inl ⟨.inr ⟨_, hidle, rfl⟩, fun v x => Iff.rfl⟩
  | enter o =>
    exact .inl ⟨.inl rfl, fun v x => acted_cons.trans (or_iff_right not_acts_nil)⟩
  | change hleads =>
    obtain ⟨f, rfl⟩ := hleads.exists_next
    refine .inr ⟨f, rfl, fun v x => ?_⟩
    simp only [acted_cons, acts_concat_iff hleads, World.next]
    exact or_right_comm
  | hear r hleads =>
    obtain ⟨p, hp⟩ := Leads.exists_inWorld hleads
    cases p <;> cases hp

/-! ### The order of observations -/

/-- The first of two observations was made earlier. -/
def Earlier : Observation (World σ) → Observation (World σ) → Prop
  | .saw v, .saw w => v.moment < w.moment
  | _, _ => True

/-- All observations are past, and each operation has made its own one after the other. -/
structure Dated (w : World σ) (begun : List (Progress R.inWorld)) : Prop where
  past : ∀ b ∈ begun, ∀ v, .saw v ∈ b.seen → v.moment < w.moment
  ordered : ∀ b ∈ begun, b.seen.Pairwise Earlier

namespace Dated

variable {w : World σ} {begun others : List (Progress R.inWorld)} {o : R.inWorld.Operation}
  {seen : List (Observation (World σ))}

theorem passes (h : Dated w begun) {change : World σ → World σ} (hchange : R.Passes change) :
    Dated (change w) begun where
  past b hb v hv := by
    have hlt := h.past b hb v hv
    cases hchange with
    | idle _ | rehost _ => exact Nat.lt_succ_of_lt hlt
  ordered := h.ordered

theorem enter (h : Dated w begun) : Dated w (⟨o, []⟩ :: begun) where
  past := List.forall_mem_cons.2 ⟨fun _ hv => absurd hv List.not_mem_nil, h.past⟩
  ordered := List.forall_mem_cons.2 ⟨List.Pairwise.nil, h.ordered⟩

theorem acts (h : Dated w (⟨o, seen⟩ :: others)) (f : σ → σ) :
    Dated (w.next f) (⟨o, seen ++ [.saw w]⟩ :: others) := by
  obtain ⟨hpast, hpasts⟩ := List.forall_mem_cons.1 h.past
  obtain ⟨hordered, hordereds⟩ := List.forall_mem_cons.1 h.ordered
  refine ⟨List.forall_mem_cons.2 ⟨fun v hv => ?_, fun b hb v hv => ?_⟩,
    List.forall_mem_cons.2 ⟨List.pairwise_append.2 ⟨hordered, List.pairwise_singleton _ _, ?_⟩,
      hordereds⟩⟩
  · rcases List.mem_append.1 hv with hv | hv
    · exact Nat.lt_succ_of_lt (hpast v hv)
    · cases List.mem_singleton.1 hv
      exact Nat.lt_succ_self _
  · exact Nat.lt_succ_of_lt (hpasts b hb v hv)
  · intro x hx y hy
    cases List.mem_singleton.1 hy
    cases x with
    | saw v => exact hpast v hx
    | heard q r => trivial

/-- What an operation observed first is the earliest. -/
theorem first_lt (h : Dated w begun) {b : Progress R.inWorld} (hb : b ∈ begun) {u v : World σ}
    {later : List (Observation (World σ))} (hseen : b.seen = .saw u :: later)
    (hv : .saw v ∈ later) : u.moment < v.moment := by
  have hordered := h.ordered b hb
  rw [hseen] at hordered
  exact List.rel_of_pairwise_cons hordered hv

end Dated

theorem dated_of_reachable {init : World σ} {S : Session R.inWorld} (hS : S.Reachable init) :
    Dated S.state S.begun := by
  refine Session.Reachable.induct (P := fun w begun => Dated w begun)
    (fun hperm h => ⟨fun b hb => h.past b (hperm.mem_iff.2 hb),
      fun b hb => h.ordered b (hperm.mem_iff.2 hb)⟩)
    ⟨fun b hb => absurd hb List.not_mem_nil, fun b hb => absurd hb List.not_mem_nil⟩
    (fun heffect h => ?_) hS
  cases heffect with
  | none => exact h
  | idle hidle => exact h.passes hidle
  | enter o => exact h.enter
  | change hleads =>
    obtain ⟨f, rfl⟩ := hleads.exists_next
    exact h.acts f
  | hear r hleads =>
    obtain ⟨p, hp⟩ := Leads.exists_inWorld hleads
    cases p <;> cases hp

/-- Actions come one at a time: at a moment there is no more than one. -/
structure Successive (w : World σ) (acted : World σ → σ → Prop) : Prop where
  past : ∀ v x, acted v x → v.moment < w.moment
  unique : ∀ v x v' x', acted v x → acted v' x' → v.moment = v'.moment → v = v' ∧ x = x'

theorem successive_of_reachable {init : World σ} {S : Session R.inWorld} (hS : S.Reachable init) :
    Successive S.state (Acted S.begun) := by
  refine Session.Reachable.induct (P := fun w begun => Successive w (Acted begun))
    (fun {w begun begun'} hperm h => ?_) ⟨fun v x hv => ?_, fun v x _ _ hv => ?_⟩
    (fun {w w' begun begun'} heffect h => ?_) hS
  · have heq : Acted begun = Acted begun' := by
      funext v x
      simp only [Acted, hperm.mem_iff]
    rwa [← heq]
  · obtain ⟨b, hb, -⟩ := hv
    exact absurd hb List.not_mem_nil
  · obtain ⟨b, hb, -⟩ := hv
    exact absurd hb List.not_mem_nil
  · obtain ⟨hw, hacted⟩ | ⟨f, rfl, hacted⟩ := heffect.inWorld_cases
    · have hle : w.moment ≤ w'.moment := by
        obtain rfl | ⟨change, hchange, rfl⟩ := hw
        · exact Nat.le_refl _
        · cases hchange with
          | idle _ | rehost _ => exact Nat.le_succ _
      refine ⟨fun v x hv => ?_, fun v x v' x' hv hv' => ?_⟩
      · exact Nat.lt_of_lt_of_le (h.past v x ((hacted v x).1 hv)) hle
      · exact h.unique v x v' x' ((hacted v x).1 hv) ((hacted v' x').1 hv')
    · refine ⟨fun v x hv => ?_, fun v x v' x' hv hv' hmoment => ?_⟩
      · obtain hv | ⟨rfl, -⟩ := (hacted v x).1 hv
        · exact Nat.lt_succ_of_lt (h.past v x hv)
        · exact Nat.lt_succ_self _
      · -- this action is later than all others
        obtain hv | ⟨rfl, rfl⟩ := (hacted v x).1 hv <;>
          obtain hv' | ⟨rfl, rfl⟩ := (hacted v' x').1 hv'
        · exact h.unique v x v' x' hv hv' hmoment
        · exact absurd (h.past v x hv) (by omega)
        · exact absurd (h.past v' x' hv') (by omega)
        · exact ⟨rfl, rfl⟩

/-! ### Where a property comes from -/

section Origin

variable {P : σ → Prop} {acted acted' : World σ → σ → Prop} {start : σ} {m n n' : Nat}

/-- From the moment `m` up to the moment `n`, operations have found and left states with `P`. -/
def Held (P : σ → Prop) (acted : World σ → σ → Prop) (m n : Nat) : Prop :=
  ∀ v x, acted v x → v.moment < n → (m ≤ v.moment → P v.state) ∧ (m ≤ v.moment + 1 → P x)

/-- The action in the world `v` made `P` true, and so it has been up to the moment `n`. -/
structure Makes (P : σ → Prop) (acted : World σ → σ → Prop) (n : Nat) (v : World σ) (x : σ) :
    Prop where
  acts : acted v x
  past : v.moment < n
  before : ¬ P v.state
  after : P x
  held : Held P acted (v.moment + 1) n

/-- `P` has held from the beginning up to the moment `n`, or has been made true. -/
def Origin (P : σ → Prop) (start : σ) (acted : World σ → σ → Prop) (n : Nat) : Prop :=
  (P start ∧ Held P acted 0 n) ∨ ∃ v x, Makes P acted n v x

/-- Further actions make no difference, if they find and leave `P` true. -/
theorem Origin.extend (h : Origin P start acted n) (hn : n ≤ n')
    (hold : ∀ v x, acted v x → acted' v x)
    (hnew : ∀ v x, acted' v x → v.moment < n' → acted v x ∧ v.moment < n ∨ P v.state ∧ P x) :
    Origin P start acted' n' := by
  have hheld : ∀ m, Held P acted m n → Held P acted' m n' := by
    intro m hm v x hv hlt
    obtain ⟨hv, hlt⟩ | ⟨hfound, hleft⟩ := hnew v x hv hlt
    · exact hm v x hv hlt
    · exact ⟨fun _ => hfound, fun _ => hleft⟩
  obtain ⟨hstart, hm⟩ | ⟨v, x, hv⟩ := h
  · exact .inl ⟨hstart, hheld 0 hm⟩
  · exact .inr ⟨v, x, hold v x hv.acts, Nat.lt_of_lt_of_le hv.past hn, hv.before, hv.after,
      hheld _ hv.held⟩

/-- All actions are past, and `P` has an origin wherever it holds: now and whenever operations have
found it. -/
structure Explained (P : σ → Prop) (start : σ) (w : World σ) (acted : World σ → σ → Prop) :
    Prop where
  past : ∀ v x, acted v x → v.moment < w.moment
  now : P w.state → Origin P start acted w.moment
  found : ∀ v x, acted v x → P v.state → Origin P start acted v.moment

theorem Explained.of_passes {w w' : World σ} (h : Explained P start w acted)
    (hstate : P w'.state ↔ P w.state) (hmoment : w.moment ≤ w'.moment) :
    Explained P start w' acted where
  past v x hv := Nat.lt_of_lt_of_le (h.past v x hv) hmoment
  now hP := (h.now (hstate.1 hP)).extend hmoment (fun _ _ hv => hv)
    fun v x hv _ => .inl ⟨hv, h.past v x hv⟩
  found := h.found

theorem Explained.of_acts {w : World σ} (h : Explained P start w acted) (f : σ → σ)
    (hacted : ∀ v x, acted' v x ↔ acted v x ∨ v = w ∧ x = f w.state) :
    Explained P start (w.next f) acted' := by
  have hold : ∀ v x, acted v x → acted' v x := fun v x hv => (hacted v x).2 (.inl hv)
  -- at the moment of an earlier action, or of this one, this one is yet to come
  have hfound : ∀ m, m ≤ w.moment → Origin P start acted m → Origin P start acted' m := by
    intro m hm horigin
    refine horigin.extend (Nat.le_refl _) hold fun v x hv hlt => ?_
    obtain hv | ⟨rfl, -⟩ := (hacted v x).1 hv
    · exact .inl ⟨hv, hlt⟩
    · exact absurd hlt (Nat.not_lt.2 hm)
  refine ⟨fun v x hv => ?_, fun hleft => ?_, fun v x hv hv' => ?_⟩
  · obtain hv | ⟨rfl, -⟩ := (hacted v x).1 hv
    · exact Nat.lt_succ_of_lt (h.past v x hv)
    · exact Nat.lt_succ_self _
  · by_cases hP : P w.state
    · refine (h.now hP).extend (Nat.le_succ _) hold fun v x hv _ => ?_
      obtain hv | ⟨rfl, rfl⟩ := (hacted v x).1 hv
      · exact .inl ⟨hv, h.past v x hv⟩
      · exact .inr ⟨hP, hleft⟩
    · refine .inr ⟨w, f w.state, (hacted _ _).2 (.inr ⟨rfl, rfl⟩), Nat.lt_succ_self _, hP, hleft, ?_⟩
      intro v x hv _
      obtain hv | ⟨rfl, rfl⟩ := (hacted v x).1 hv
      · have hlt := h.past v x hv
        exact ⟨fun hle => by omega, fun hle => by omega⟩
      · exact ⟨fun hle => by omega, fun _ => hleft⟩
  · obtain hv | ⟨rfl, -⟩ := (hacted v x).1 hv
    · exact hfound _ (Nat.le_of_lt (h.past v x hv)) (h.found v x hv hv')
    · exact hfound _ (Nat.le_refl _) (h.now hv')

/-- In every session, a property that nothing but operations can change has been there from the
beginning, or some action of an operation has made it true. -/
theorem explained_of_reachable {init : World σ} {S : Session R.inWorld} (hS : S.Reachable init)
    (hP : ∀ f, R.Idle f → ∀ s, P (f s) ↔ P s) :
    Explained P init.state S.state (Acted S.begun) := by
  have hnone : ∀ v x, ¬ Acted (R := R) [] v x := by
    rintro v x ⟨b, hb, -⟩
    exact absurd hb List.not_mem_nil
  refine Session.Reachable.induct (P := fun w begun => Explained P init.state w (Acted begun))
    (fun {w begun begun'} hperm h => ?_) ?_ (fun {w w' begun begun'} heffect h => ?_) hS
  · have heq : Acted begun = Acted begun' := by
      funext v x
      simp only [Acted, hperm.mem_iff]
    rwa [← heq]
  · exact ⟨fun v x hv => absurd hv (hnone v x),
      fun hstart => .inl ⟨hstart, fun v x hv => absurd hv (hnone v x)⟩,
      fun v x hv => absurd hv (hnone v x)⟩
  · obtain ⟨hw, hacted⟩ | ⟨f, rfl, hacted⟩ := heffect.inWorld_cases
    · -- nobody has acted, and what passes leaves `P` alone
      rw [show Acted begun' = Acted begun from funext fun v => funext fun x =>
        propext (hacted v x)]
      obtain rfl | ⟨change, hchange, rfl⟩ := hw
      · exact h
      · cases hchange with
        | idle hidle => exact h.of_passes (hP _ hidle _) (Nat.le_succ _)
        | rehost f => exact h.of_passes Iff.rfl (Nat.le_succ _)
    · exact h.of_acts f hacted

end Origin

end DocSchema
