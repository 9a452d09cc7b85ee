/-
  DocSchema/Proofs/Execution.lean
  ===============================
  **What a program does, one action after the other.**

  A program on shared state does not have the state to itself: other programs may run between
  two of its actions.  All that it learns is the state before each of its changes and the
  replies of the host.  `Program.Leads` says what is left of a program once it has observed
  something, whatever its surroundings do meanwhile; `Program.Answers` says what it may answer
  in the end, and `Program.Ensures` what holds of all its answers.  `Program.Executes` is the
  special case of a program that runs alone.

  `Program.Keeps` is about the changes that a program makes itself.  What all of them keep, the
  program keeps when it runs alone (`Executes.keeps`).
-/
import DocSchema.Program

namespace DocSchema.Program

variable {σ τ α β : Type}

theorem onPart_bind {get : τ → σ} {set : σ → τ → τ} (p : Program σ α) (f : α → Program σ β) :
    (p.bind f).onPart get set = (p.onPart get set).bind fun a => (f a).onPart get set := by
  induction p with
  | done a => rfl
  | step change rest ih => simp only [bind, onPart, ih]
  | ask q rest ih => simp only [bind, onPart, ih]

/-! ### Observations -/

/-- What a program learns by one action: the state before its change, or a reply. -/
inductive Observation (σ : Type) where
  | saw (s : σ)
  | heard (q : Request) (r : q.Reply)

/-- `Leads p seen left`: when `p` has made the observations `seen`, then `left` is left of it. -/
inductive Leads : Program σ α → List (Observation σ) → Program σ α → Prop
  | refl (p : Program σ α) : Leads p [] p
  | step {change : σ → σ} {rest : σ → Program σ α} {s : σ} {seen : List (Observation σ)}
      {left : Program σ α} (h : Leads (rest s) seen left) :
      Leads (.step change rest) (.saw s :: seen) left
  | ask {q : Request} {rest : q.Reply → Program σ α} {r : q.Reply}
      {seen : List (Observation σ)} {left : Program σ α} (h : Leads (rest r) seen left) :
      Leads (.ask q rest) (.heard q r :: seen) left

/-- The answers that a program may come to, whatever happens between its actions. -/
def Answers (p : Program σ α) (a : α) : Prop :=
  ∃ seen, Leads p seen (.done a)

namespace Leads

variable {p q left : Program σ α} {seen more : List (Observation σ)}

theorem trans (h : Leads p seen q) (h' : Leads q more left) : Leads p (seen ++ more) left := by
  induction h with
  | refl p => exact h'
  | step _ ih => exact .step (ih h')
  | ask _ ih => exact .ask (ih h')

theorem saw {change : σ → σ} {rest : σ → Program σ α} (h : Leads p seen (.step change rest))
    (s : σ) : Leads p (seen ++ [.saw s]) (rest s) :=
  h.trans (.step (.refl _))

theorem heard {q : Request} {rest : q.Reply → Program σ α} (h : Leads p seen (.ask q rest))
    (r : q.Reply) : Leads p (seen ++ [.heard q r]) (rest r) :=
  h.trans (.ask (.refl _))

theorem of_done {a : α} (h : Leads (.done a) seen left) : seen = [] ∧ left = .done a := by
  cases h
  exact ⟨rfl, rfl⟩

/-- A step has been taken or not. -/
theorem of_step {change : σ → σ} {rest : σ → Program σ α}
    (h : Leads (.step change rest) seen left) :
    (seen = [] ∧ left = .step change rest) ∨
      ∃ s later, seen = .saw s :: later ∧ Leads (rest s) later left := by
  cases h with
  | refl => exact .inl ⟨rfl, rfl⟩
  | step h => exact .inr ⟨_, _, rfl, h⟩

/-- A request has been made or not. -/
theorem of_ask {q : Request} {rest : q.Reply → Program σ α} (h : Leads (.ask q rest) seen left) :
    (seen = [] ∧ left = .ask q rest) ∨
      ∃ r later, seen = .heard q r :: later ∧ Leads (rest r) later left := by
  cases h with
  | refl => exact .inl ⟨rfl, rfl⟩
  | ask h => exact .inr ⟨_, _, rfl, h⟩

/-- A program that has come to its end makes way for the next. -/
theorem bind {p : Program σ α} {f : α → Program σ β} {left : Program σ β} {a : α}
    (h : Leads p seen (.done a)) (hf : Leads (f a) more left) :
    Leads (p.bind f) (seen ++ more) left := by
  induction p generalizing seen with
  | done b =>
    obtain ⟨rfl, hb⟩ := h.of_done
    cases hb
    exact hf
  | step change rest ih =>
    cases h with
    | step h => exact .step (ih _ h)
  | ask q rest ih =>
    cases h with
    | ask h => exact .ask (ih _ h)

/-- What is left of a program is decided by what it has observed. -/
theorem unique (h : Leads p seen q) (h' : Leads p seen left) : q = left := by
  induction h with
  | refl p =>
    cases h'
    rfl
  | step _ ih =>
    cases h' with
    | step h' => exact ih h'
  | ask _ ih =>
    cases h' with
    | ask h' => exact ih h'

/-- In a sequence, either the first program is still under way or the second has begun. -/
theorem of_bind {p : Program σ α} {f : α → Program σ β} {left : Program σ β}
    (h : Leads (p.bind f) seen left) :
    (∃ p', Leads p seen p' ∧ left = p'.bind f) ∨
      ∃ a before after, seen = before ++ after ∧ Leads p before (.done a) ∧
        Leads (f a) after left := by
  induction p generalizing seen with
  | done a => exact .inr ⟨a, [], seen, rfl, .refl _, h⟩
  | step change rest ih =>
    obtain ⟨rfl, rfl⟩ | ⟨s, later, rfl, hrest⟩ := of_step h
    · exact .inl ⟨_, .refl _, rfl⟩
    · obtain ⟨p', hp, rfl⟩ | ⟨a, before, after, rfl, hp, hf⟩ := ih s hrest
      · exact .inl ⟨p', .step hp, rfl⟩
      · exact .inr ⟨a, .saw s :: before, after, rfl, .step hp, hf⟩
  | ask q rest ih =>
    obtain ⟨rfl, rfl⟩ | ⟨r, later, rfl, hrest⟩ := of_ask h
    · exact .inl ⟨_, .refl _, rfl⟩
    · obtain ⟨p', hp, rfl⟩ | ⟨a, before, after, rfl, hp, hf⟩ := ih r hrest
      · exact .inl ⟨p', .ask hp, rfl⟩
      · exact .inr ⟨a, .heard q r :: before, after, rfl, .ask hp, hf⟩

/-- What has been observed first leads to a program that the rest is observed by. -/
theorem of_append (h : Leads p (seen ++ more) left) :
    ∃ q, Leads p seen q ∧ Leads q more left := by
  induction seen generalizing p with
  | nil => exact ⟨p, .refl p, h⟩
  | cons x seen ih =>
    cases h with
    | step h =>
      obtain ⟨q, hq, hmore⟩ := ih h
      exact ⟨q, .step hq, hmore⟩
    | ask h =>
      obtain ⟨q, hq, hmore⟩ := ih h
      exact ⟨q, .ask hq, hmore⟩

/-- A program that goes on after an observation of the state was about to change it. -/
theorem of_append_saw {s : σ} (h : Leads p (seen ++ .saw s :: more) left) :
    ∃ change rest, Leads p seen (.step change rest) ∧ Leads (rest s) more left := by
  obtain ⟨q, hq, hmore⟩ := h.of_append
  cases hmore with
  | step hrest => exact ⟨_, _, hq, hrest⟩

/-- A program that goes on after a reply had asked for it. -/
theorem of_append_heard {q : Request} {r : q.Reply}
    (h : Leads p (seen ++ .heard q r :: more) left) :
    ∃ rest, Leads p seen (.ask q rest) ∧ Leads (rest r) more left := by
  obtain ⟨p', hp', hmore⟩ := h.of_append
  cases hmore with
  | ask hrest => exact ⟨_, hp', hrest⟩

end Leads

theorem answers_done {a b : α} : Answers (.done a : Program σ α) b ↔ b = a := by
  constructor
  · rintro ⟨seen, h⟩
    obtain ⟨-, h⟩ := h.of_done
    exact (Program.done.inj h.symm).symm
  · rintro rfl
    exact ⟨[], .refl _⟩

/-- What a sequence answers, the second program answers from an answer of the first. -/
theorem Answers.of_bind {p : Program σ α} {f : α → Program σ β} {b : β}
    (h : Answers (p.bind f) b) : ∃ a, Answers p a ∧ Answers (f a) b := by
  obtain ⟨seen, h⟩ := h
  obtain ⟨p', hp, hdone⟩ | ⟨a, before, after, -, hp, hf⟩ := h.of_bind
  · cases p' with
    | done a => exact ⟨a, ⟨_, hp⟩, ⟨[], hdone ▸ .refl _⟩⟩
    | step change rest => cases hdone
    | ask q rest => cases hdone
  · exact ⟨a, ⟨_, hp⟩, ⟨_, hf⟩⟩

/-- Whatever happens between the actions of `p`, what it answers is as `Q` says. -/
def Ensures (p : Program σ α) (Q : α → Prop) : Prop :=
  ∀ a, Answers p a → Q a

theorem Ensures.done {Q : α → Prop} {a : α} (h : Q a) : Ensures (.done a : Program σ α) Q := by
  intro b hb
  rw [answers_done.1 hb]
  exact h

/-- The second program of a sequence has to ensure `Q` for every answer of the first. -/
theorem Ensures.bind {p : Program σ α} {f : α → Program σ β} {Q : β → Prop}
    (h : ∀ a, Ensures (f a) Q) : Ensures (p.bind f) Q := by
  intro b hb
  obtain ⟨a, -, ha⟩ := hb.of_bind
  exact h a b ha

/-! ### Changes -/

/-- `Keeps Q p`: every change that `p` may make is one of `Q`. -/
inductive Keeps (Q : (σ → σ) → Prop) : Program σ α → Prop
  | done (a : α) : Keeps Q (.done a)
  | step {change : σ → σ} {rest : σ → Program σ α} (h : Q change)
      (hrest : ∀ s, Keeps Q (rest s)) : Keeps Q (.step change rest)
  | ask {q : Request} {rest : q.Reply → Program σ α} (hrest : ∀ r, Keeps Q (rest r)) :
      Keeps Q (.ask q rest)

namespace Keeps

variable {Q : (σ → σ) → Prop} {p : Program σ α}

theorem bind {f : α → Program σ β} (h : Keeps Q p) (hf : ∀ a, Keeps Q (f a)) :
    Keeps Q (p.bind f) := by
  induction h with
  | done a => exact hf a
  | step hchange _ ih => exact .step hchange ih
  | ask _ ih => exact .ask ih

theorem look {f : σ → α} (h : Q id) : Keeps Q (Program.look f) :=
  .step h fun _ => .done _

theorem leads {left : Program σ α} {seen : List (Observation σ)} (h : Keeps Q p)
    (hleads : Leads p seen left) : Keeps Q left := by
  induction hleads with
  | refl p => exact h
  | step _ ih =>
    cases h with
    | step _ hrest => exact ih (hrest _)
  | ask _ ih =>
    cases h with
    | ask hrest => exact ih (hrest _)

theorem of_step {change : σ → σ} {rest : σ → Program σ α} (h : Keeps Q (.step change rest)) :
    Q change := by
  cases h with
  | step hchange _ => exact hchange

/-- A program on a part changes the whole as it changes the part. -/
theorem onPart {get : τ → σ} {set : σ → τ → τ} {Q' : (τ → τ) → Prop} (hp : Keeps Q p)
    (h : ∀ change : σ → σ, Q change → Q' fun t => set (change (get t)) t) :
    Keeps Q' (p.onPart get set) := by
  induction hp with
  | done a => exact .done a
  | step hchange _ ih => exact .step (h _ hchange) fun t => ih (get t)
  | ask _ ih => exact .ask ih

theorem any (p : Program σ α) : Keeps (fun _ => True) p := by
  induction p with
  | done a => exact .done a
  | step change rest ih => exact .step trivial ih
  | ask q rest ih => exact .ask ih

end Keeps

/-! ### Running alone -/

/-- `Executes p s a s'`: alone from the state `s`, with some replies of the host, `p` answers `a`
and leaves the state `s'`. -/
inductive Executes : Program σ α → σ → α → σ → Prop
  | done (a : α) (s : σ) : Executes (.done a) s a s
  | step {change : σ → σ} {rest : σ → Program σ α} {s s' : σ} {a : α}
      (h : Executes (rest s) (change s) a s') : Executes (.step change rest) s a s'
  | ask {q : Request} {rest : q.Reply → Program σ α} {s s' : σ} {a : α} (r : q.Reply)
      (h : Executes (rest r) s a s') : Executes (.ask q rest) s a s'

namespace Executes

variable {p : Program σ α} {s s' : σ} {a : α}

theorem of_done {b : α} (h : Executes (.done b) s a s') : a = b ∧ s' = s := by
  cases h
  exact ⟨rfl, rfl⟩

theorem of_step {change : σ → σ} {rest : σ → Program σ α}
    (h : Executes (.step change rest) s a s') : Executes (rest s) (change s) a s' := by
  cases h with
  | step h => exact h

theorem of_ask {q : Request} {rest : q.Reply → Program σ α} (h : Executes (.ask q rest) s a s') :
    ∃ r, Executes (rest r) s a s' := by
  cases h with
  | ask r h => exact ⟨r, h⟩

/-- A sequence runs its first program to the end and then its second. -/
theorem of_bind {f : α → Program σ β} {b : β} (h : Executes (p.bind f) s b s') :
    ∃ a t, Executes p s a t ∧ Executes (f a) t b s' := by
  induction p generalizing s with
  | done a => exact ⟨a, s, .done a s, h⟩
  | step change rest ih =>
    obtain ⟨a, t, hp, hf⟩ := ih s h.of_step
    exact ⟨a, t, .step hp, hf⟩
  | ask q rest ih =>
    obtain ⟨r, h⟩ := h.of_ask
    obtain ⟨a, t, hp, hf⟩ := ih r h
    exact ⟨a, t, .ask r hp, hf⟩

theorem of_onPart {get : τ → σ} {set : σ → τ → τ} {t t' : τ}
    (hget : ∀ s t, get (set s t) = s) (hset : ∀ s s' t, set s (set s' t) = set s t)
    (hself : ∀ t, set (get t) t = t) (h : Executes (p.onPart get set) t a t') :
    ∃ s', Executes p (get t) a s' ∧ t' = set s' t := by
  induction p generalizing t with
  | done b =>
    obtain ⟨rfl, rfl⟩ := h.of_done
    exact ⟨get t', .done _ _, (hself t').symm⟩
  | step change rest ih =>
    obtain ⟨s', hp, rfl⟩ := ih (get t) h.of_step
    rw [hget] at hp
    exact ⟨s', .step hp, hset _ _ _⟩
  | ask q rest ih =>
    obtain ⟨r, h⟩ := h.of_ask
    obtain ⟨s', hp, rfl⟩ := ih r h
    exact ⟨s', .ask r hp, rfl⟩

/-- What every change of a program keeps from state to state, the program keeps. -/
theorem keeps {R : σ → σ → Prop} (hrefl : ∀ s, R s s)
    (htrans : ∀ s t u, R s t → R t u → R s u)
    (hp : Keeps (fun change => ∀ s, R s (change s)) p) (h : Executes p s a s') : R s s' := by
  induction h with
  | done a s => exact hrefl s
  | step _ ih =>
    cases hp with
    | step hchange hrest => exact htrans _ _ _ (hchange _) (ih (hrest _))
  | ask r _ ih =>
    cases hp with
    | ask hrest => exact ih (hrest r)

end Executes

/-- Runs a program alone, with a host that always replies the same. -/
def alone (host : (q : Request) → q.Reply) : Program σ α → σ → α × σ
  | .done a, s => (a, s)
  | .step change rest, s => (rest s).alone host (change s)
  | .ask q rest, s => (rest (host q)).alone host s

theorem executes_alone (host : (q : Request) → q.Reply) (p : Program σ α) (s : σ) :
    Executes p s (p.alone host s).1 (p.alone host s).2 := by
  induction p generalizing s with
  | done a => exact .done a s
  | step change rest ih => exact .step (ih s (change s))
  | ask q rest ih => exact .ask (host q) (ih (host q) s)

@[simp] theorem alone_bind (host : (q : Request) → q.Reply) (p : Program σ α)
    (f : α → Program σ β) (s : σ) :
    (p.bind f).alone host s = (f (p.alone host s).1).alone host (p.alone host s).2 := by
  induction p generalizing s with
  | done a => rfl
  | step change rest ih => exact ih s (change s)
  | ask q rest ih => exact ih (host q) s

/-- `Advances p s seen left s'`: alone from the state `s`, with some replies of the host, `p` observes
`seen` and comes to the state `s'`, where `left` is left of it. -/
inductive Advances : Program σ α → σ → List (Observation σ) → Program σ α → σ → Prop
  | refl (p : Program σ α) (s : σ) : Advances p s [] p s
  | step {change : σ → σ} {rest : σ → Program σ α} {s s' : σ} {seen : List (Observation σ)}
      {left : Program σ α} (h : Advances (rest s) (change s) seen left s') :
      Advances (.step change rest) s (.saw s :: seen) left s'
  | ask {q : Request} {rest : q.Reply → Program σ α} (r : q.Reply) {s s' : σ}
      {seen : List (Observation σ)} {left : Program σ α} (h : Advances (rest r) s seen left s') :
      Advances (.ask q rest) s (.heard q r :: seen) left s'

theorem Advances.saw {p : Program σ α} {s s' : σ} {seen : List (Observation σ)} {change : σ → σ}
    {rest : σ → Program σ α} (h : Advances p s seen (.step change rest) s') :
    Advances p s (seen ++ [.saw s']) (rest s') (change s') := by
  generalize hleft : Program.step change rest = left at h
  induction h with
  | refl p s =>
    subst hleft
    exact .step (.refl _ _)
  | step _ ih => exact .step (ih hleft)
  | ask r _ ih => exact .ask r (ih hleft)

/-- What a program observes when it runs alone. -/
def trace (host : (q : Request) → q.Reply) : Program σ α → σ → List (Observation σ)
  | .done _, _ => []
  | .step change rest, s => .saw s :: (rest s).trace host (change s)
  | .ask q rest, s => .heard q (host q) :: (rest (host q)).trace host s

theorem advances_alone (host : (q : Request) → q.Reply) (p : Program σ α) (s : σ) :
    Advances p s (p.trace host s) (.done (p.alone host s).1) (p.alone host s).2 := by
  induction p generalizing s with
  | done a => exact .refl _ s
  | step change rest ih => exact .step (ih s (change s))
  | ask q rest ih => exact .ask (host q) (ih (host q) s)

theorem alone_onPart {get : τ → σ} {set : σ → τ → τ} (hget : ∀ s t, get (set s t) = s)
    (hset : ∀ s s' t, set s (set s' t) = set s t) (hself : ∀ t, set (get t) t = t)
    (host : (q : Request) → q.Reply) (p : Program σ α) (t : τ) :
    (p.onPart get set).alone host t = ((p.alone host (get t)).1, set (p.alone host (get t)).2 t) := by
  induction p generalizing t with
  | done a => simp [onPart, alone, hself]
  | step change rest ih => simp [onPart, alone, ih, hget, hset]
  | ask q rest ih => simp [onPart, alone, ih]

end DocSchema.Program
