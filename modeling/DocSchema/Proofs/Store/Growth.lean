/-
  DocSchema/Proofs/Store/Growth.lean
  ==================================
  **What a store comes to know.**

  A store that is asked for a schema answers what it knows of it, or else what the host has
  (`known?`), and may know it from then on (`asked`).  So a store grows by what the host has
  (`Grown`), and what is known of a schema stays when the schema is asked for (`known?_asked`).  If
  the host makes no difference between the spellings of a path, what a store answers does not
  depend on how far it has grown (`known?_of_grown`).
-/
import DocSchema.Proofs.Store

namespace DocSchema

open DocSchema.Json DocSchema.Program

variable {host : (q : Request) → q.Reply} {p : Path} {s s' s'' : Store}

/-! ### What the host has -/

/-- The value in a file, from what a host says of it. -/
def valueIn (isFile : Bool) (text : Except HostError String) : Option Value :=
  if isFile then text.toOption.bind fun text => (Json.read text).toOption else none

/-- The value in a file. -/
def loaded? (host : (q : Request) → q.Reply) (p : Path) : Option Value :=
  valueIn (host (.isFile p)) (host (.readText p))

/-- The host makes no difference between the spellings of a path. -/
def Uniform (host : (q : Request) → q.Reply) : Prop :=
  ∀ p q : Path, p.same q = true →
    host (.isFile p) = host (.isFile q) ∧ host (.readText p) = host (.readText q)

theorem alone_loadSchema_eq {σ : Type} (host : (q : Request) → q.Reply) (p : Path) (t : σ) :
    ((loadSchema p).alone host t).1.toOption = loaded? host p ∧
      ((loadSchema p).alone host t).2 = t := by
  unfold loadSchema loaded? valueIn
  cases hfile : host (.isFile p) with
  | false =>
    simp [Program.request, Bind.bind, Pure.pure, Program.bind, alone, hfile, Except.toOption]
  | true =>
    cases htext : host (.readText p) with
    | error e =>
      simp [Program.request, Bind.bind, Pure.pure, Program.bind, alone, hfile, htext,
        Except.toOption]
    | ok text =>
      simp only [Program.request, Bind.bind, Pure.pure, Program.bind, alone, hfile, htext, if_true,
        and_true, Except.toOption, Option.bind_some]
      cases Json.read text <;> rfl

namespace Store

/-- What a store knows of a schema, or else what the host has. -/
def known? (host : (q : Request) → q.Reply) (s : Store) (p : Path) : Option Value :=
  match s.cache.get? p with
  | some c => some c.schema
  | none => if s.isSchemaFile p then loaded? host p else none

/-- The store once it has been asked for a schema. -/
def asked (host : (q : Request) → q.Reply) (p : Path) (s : Store) : Store :=
  match s.cache.get? p, s.known? host p with
  | none, some v => s.put p v
  | _, _ => s

theorem alone_get_eq (host : (q : Request) → q.Reply) (s : Store) (p : Path) :
    ((Store.get p).alone host s).1.map (·.schema) = s.known? host p ∧
      ((Store.get p).alone host s).2 = s.asked host p := by
  cases hcache : s.cache.get? p with
  | some c =>
    simp [Store.get, Program.look, Bind.bind, Pure.pure, Program.bind, alone, known?, asked, hcache]
  | none =>
    cases haccept : s.isSchemaFile p with
    | false =>
      simp [Store.get, load, Program.look, Bind.bind, Pure.pure, Program.bind, alone, known?, asked,
        hcache, haccept]
    | true =>
      obtain ⟨hload, hsame⟩ := alone_loadSchema_eq host p s
      have hsettled : ∀ v, s.settled p v = ⟨s.nextHandle, v⟩ := fun v => by
        simp [settled, hcache]
      have hput : ∀ v, s.putNew p v = s.put p v := fun v => by
        simp [putNew, PathMap.contains, hcache]
      simp only [Store.get, load, Program.look, exchange, Bind.bind, Pure.pure, Program.bind, alone,
        known?, asked, hcache, haccept, id, if_true, alone_bind]
      rw [hsame, ← hload]
      cases ((loadSchema p).alone host s).1 with
      | error e => exact ⟨rfl, rfl⟩
      | ok v =>
        simp only [alone, hsettled, hput, Except.toOption, Option.map_some, and_self]

/-- The schema that a store has for a path. -/
def value? (s : Store) (p : Path) : Option Value :=
  (s.cache.get? p).map (·.schema)

theorem known?_eq (host : (q : Request) → q.Reply) (s : Store) (p : Path) : s.known? host p =
    (s.value? p).or (if s.isSchemaFile p then loaded? host p else none) := by
  unfold known? value?
  cases s.cache.get? p <;> rfl

theorem value?_asked_of_same {q : Path} (h : q.same p = true) :
    (s.asked host q).value? p = s.known? host q := by
  have hcongr : ∀ m : PathMap Cached, m.get? p = m.get? q := fun m =>
    m.get?_congr (Path.same_iff.1 h).symm
  unfold value? asked
  rw [hcongr]
  cases hcache : s.cache.get? q with
  | some c => simp [known?, hcache]
  | none =>
    cases hknown : s.known? host q with
    | none => simp [hcache]
    | some v => simp [put, PathMap.get?_insert_self]

theorem value?_asked_of_not_same {q : Path} (h : ¬ q.same p = true) :
    (s.asked host q).value? p = s.value? p := by
  unfold value? asked
  split
  · rw [get?_put_of_not_same _ h]
  · rfl

/-- On the way from one store to another, some schemas that were not known have been read. -/
structure Grown (host : (q : Request) → q.Reply) (s s' : Store) : Prop where
  root : s'.root = s.root
  entry : ∀ p c, s.cache.get? p = some c → s'.cache.get? p = some c
  loaded : ∀ p c, s'.cache.get? p = some c → s.cache.get? p = some c ∨ s.cache.get? p = none ∧
    ∃ q, q.same p = true ∧ s.isSchemaFile q = true ∧ loaded? host q = some c.schema

namespace Grown

theorem refl (host : (q : Request) → q.Reply) (s : Store) : Grown host s s :=
  ⟨rfl, fun _ _ hc => hc, fun _ _ hc => .inl hc⟩

theorem trans (h : Grown host s s') (h' : Grown host s' s'') : Grown host s s'' where
  root := h'.root.trans h.root
  entry p c hc := h'.entry p c (h.entry p c hc)
  loaded p c hc := by
    obtain hc | ⟨hnone, q, hq, haccept, hload⟩ := h'.loaded p c hc
    · exact h.loaded p c hc
    · rw [isSchemaFile_congr (Path.same_refl _) h.root] at haccept
      refine .inr ⟨?_, q, hq, haccept, hload⟩
      cases hold : s.cache.get? p with
      | none => rfl
      | some c' =>
        rw [h.entry p c' hold] at hnone
        cases hnone

/-- A store grows by what it is asked for. -/
theorem asked (host : (q : Request) → q.Reply) (s : Store) (p : Path) :
    Grown host s (s.asked host p) := by
  unfold Store.asked known?
  cases hcache : s.cache.get? p with
  | some c => exact refl host s
  | none =>
    dsimp only
    cases haccept : s.isSchemaFile p with
    | false => exact refl host s
    | true =>
      rw [if_pos rfl]
      cases hload : loaded? host p with
      | none => exact refl host s
      | some v =>
        refine ⟨rfl, fun q c hc => ?_, fun q c hc => ?_⟩
        · have hne : ¬ p.same q = true := fun hq => by
            rw [← s.cache.get?_congr (Path.same_iff.1 hq), hcache] at hc
            cases hc
          exact (get?_put_of_not_same v hne).trans hc
        · by_cases hq : p.same q = true
          · have hc' := (get?_put_of_same v hq).symm.trans hc
            cases hc'
            refine .inr ⟨?_, p, hq, haccept, hload⟩
            rw [← s.cache.get?_congr (Path.same_iff.1 hq), hcache]
          · exact .inl ((get?_put_of_not_same v hq).symm.trans hc)

end Grown

/-- What is known of a path stays when its schema is asked for, as long as the spellings that are
used make no difference. -/
theorem known?_asked {q : Path} (h : q.same p = true → s.known? host q = s.known? host p) :
    (s.asked host q).known? host p = s.known? host p := by
  have haccept : (s.asked host q).isSchemaFile p = s.isSchemaFile p :=
    isSchemaFile_congr (Path.same_refl _) (Grown.asked host s q).root
  rw [known?_eq, haccept]
  by_cases hq : q.same p = true
  · rw [value?_asked_of_same hq, h hq, known?_eq, Option.or_assoc, Option.or_self]
  · rw [value?_asked_of_not_same hq, ← known?_eq]

theorem loaded?_congr (hhost : Uniform host) {p q : Path} (h : p.same q = true) :
    loaded? host p = loaded? host q := by
  obtain ⟨hfile, htext⟩ := hhost p q h
  exact congrArg₂ valueIn hfile htext

/-- To a host without such differences, what can be known of a schema does not change as the store
grows. -/
theorem known?_of_grown (hhost : Uniform host) (h : Grown host s s') (p : Path) :
    s'.known? host p = s.known? host p := by
  unfold known?
  cases hold : s.cache.get? p with
  | some c => rw [h.entry p c hold]
  | none =>
    cases hnew : s'.cache.get? p with
    | none =>
      dsimp only
      rw [isSchemaFile_congr (Path.same_refl _) h.root]
    | some c =>
      obtain hc | ⟨-, q, hq, haccept, hload⟩ := h.loaded p c hnew
      · rw [hold] at hc
        cases hc
      · rw [isSchemaFile_congr hq rfl] at haccept
        simp [haccept, ← loaded?_congr hhost hq, hload]

end Store

end DocSchema
