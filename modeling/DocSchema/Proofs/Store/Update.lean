/-
  DocSchema/Proofs/Store/Update.lean
  ==================================
  **What the answer to an event says of the store.**

  As long as a store is used by one client at a time (`Sequential`), its entries are at paths that
  it accepts, and no path has two of them (`Orderly`).  So a path that the store refuses has no
  entry to lose, and one that it accepts loses a single entry (`evict_cases_alone`).  To read a file
  again makes one entry or none (`reload_cases_alone`).

  From the answer to an event, all of that can be told (`update_tells`): for two paths are concerned
  only where a file is moved, and there the answer is about the new path unless it is refused.
-/
import DocSchema.Proofs.Path.Map
import DocSchema.Proofs.SchemaRef
import DocSchema.Proofs.Store.Growth

namespace DocSchema

open DocSchema.Json DocSchema.Program

/-- The path that an event has taken a file away from. -/
def FileEvent.vacated? : FileEvent → Option Path
  | .created _ => none
  | .modified _ => none
  | .renamed source _ => some source
  | .deleted p => some p

namespace Store

variable {host : (q : Request) → q.Reply} {root p : Path} {s s' : Store}

/-! ### One use after the other -/

/-- What becomes of a new store when each use of it ends before the next one begins.  From one use
to the next, the host may change. -/
inductive Sequential (root : Path) : Store → Prop
  | start : Sequential root (.ofRoot root)
  | get {s : Store} (h : Sequential root s) (host : (q : Request) → q.Reply) (p : Path) :
      Sequential root ((Store.get p).alone host s).2
  | handleEvent {s : Store} (h : Sequential root s) (host : (q : Request) → q.Reply)
      (e : FileEvent) : Sequential root ((Store.handleEvent e).alone host s).2
  | setRoot {s : Store} (h : Sequential root s) (host : (q : Request) → q.Reply) (root' : Path) :
      Sequential root ((Store.setRoot root').alone host s).2

/-- The entries are at accepted paths, and no path has two of them. -/
structure Orderly (s : Store) : Prop where
  accepted : ∀ e ∈ s.cache, s.isSchemaFile e.1 = true
  distinct : s.cache.Distinct

namespace Orderly

theorem empty (root : Path) (n : Nat) : Orderly ⟨root, [], n⟩ :=
  ⟨fun _ he => absurd he List.not_mem_nil, List.Pairwise.nil⟩

theorem put (h : s.Orderly) (haccept : s.isSchemaFile p = true) (v : Value) :
    (s.put p v).Orderly where
  accepted e he := by
    obtain hp | ⟨f, hf, hpath⟩ := PathMap.path_of_mem_insert he
    · rw [hp]
      exact haccept
    · rw [← hpath]
      exact h.accepted f hf
  distinct := h.distinct.insert p _

theorem drop (h : s.Orderly) (p : Path) : (s.drop p).Orderly where
  accepted e he := h.accepted e (List.mem_filter.1 he).1
  distinct := h.distinct.erase p

theorem asked (h : s.Orderly) (host : (q : Request) → q.Reply) (p : Path) :
    (s.asked host p).Orderly := by
  unfold Store.asked known?
  cases hcache : s.cache.get? p with
  | some c => exact h
  | none =>
    cases haccept : s.isSchemaFile p with
    | false => exact h
    | true =>
      cases loaded? host p with
      | none => exact h
      | some v => exact h.put haccept v

/-- A refused path has no entry. -/
theorem get?_of_refused (h : s.Orderly) (hrefuse : s.isSchemaFile p = false) :
    s.cache.get? p = none := by
  cases hcache : s.cache.get? p with
  | none => rfl
  | some c =>
    obtain ⟨q, hq, hsame⟩ := PathMap.mem_of_get? hcache
    have haccept : s.isSchemaFile q = true := h.accepted (q, c) hq
    rw [isSchemaFile_congr hsame rfl, hrefuse] at haccept
    cases haccept

end Orderly

/-! ### Reading again and dropping -/

theorem serves_of_loaded? {v : Value} (h : loaded? host p = some v) : Serves host p v := by
  unfold loaded? valueIn at h
  split at h
  · rename_i hfile
    obtain ⟨text, htext, hvalue⟩ := Option.bind_eq_some_iff.1 h
    refine ⟨hfile, text, ?_, ?_⟩
    · cases hreply : host (.readText p) with
      | error e => simp [hreply, Except.toOption] at htext
      | ok text' =>
        rw [hreply] at htext
        cases htext
        rfl
    · cases hread : Json.read text with
      | error e => simp [hread, Except.toOption] at hvalue
      | ok v' =>
        rw [hread] at hvalue
        cases hvalue
        rfl
  · cases h

/-- To read a file again is refused, or fails, or puts what the host has into the store. -/
theorem reload_cases_alone (host : (q : Request) → q.Reply) (p : Path) (s : Store) :
    (Store.reload p).alone host s = (.ignored, s) ∨
      (Store.reload p).alone host s = (.reloadFailed, s) ∨
      ∃ v, s.isSchemaFile p = true ∧ Serves host p v ∧
        (Store.reload p).alone host s = (.reloaded, s.put p v) := by
  cases haccept : s.isSchemaFile p with
  | false =>
    left
    simp [Store.reload, Program.look, Bind.bind, Pure.pure, Program.bind, alone, haccept]
  | true =>
    right
    cases hloaded : loaded? host p with
    | some v =>
      have hserves : Serves host p v := serves_of_loaded? hloaded
      exact .inr ⟨v, rfl, hserves, alone_reload haccept hserves⟩
    | none =>
      left
      obtain ⟨hload, hsame⟩ := alone_loadSchema_eq host p s
      rw [hloaded] at hload
      simp only [Store.reload, Program.look, change, Bind.bind, Pure.pure, Program.bind, alone, id,
        haccept, if_true, alone_bind, hsame]
      cases hread : ((loadSchema p).alone host s).1 with
      | error e => rfl
      | ok v => simp [hread, Except.toOption] at hload

/-- The store has lost one entry, which was at the path `p`, and nothing else has changed. -/
structure LosesOne (p : Path) (s s' : Store) : Prop where
  gone : s'.cache.get? p = none
  one : ∃ before q c after, s.cache = before ++ (q, c) :: after ∧ q.same p = true ∧
    s' = { s with cache := before ++ after }

/-- To drop a schema takes its one entry out, or there is none and nothing changes. -/
theorem evict_cases_alone (hs : s.Orderly) (host : (q : Request) → q.Reply) (p : Path) :
    ((Store.evict p).alone host s = (.ignored, s) ∧ s.cache.get? p = none) ∨
      ((Store.evict p).alone host s = (.evicted, s.drop p) ∧ LosesOne p s (s.drop p)) := by
  cases haccept : s.isSchemaFile p with
  | false =>
    refine .inl ⟨?_, hs.get?_of_refused haccept⟩
    simp [Store.evict, Program.look, Bind.bind, Pure.pure, Program.bind, alone, haccept]
  | true =>
    simp only [Store.evict, Program.look, exchange, Bind.bind, Pure.pure, Program.bind, alone, id,
      haccept, if_true, PathMap.contains]
    cases hcache : s.cache.get? p with
    | none => exact .inl ⟨by simp [alone, drop_of_unknown hcache], rfl⟩
    | some c =>
      obtain ⟨before, q, after, hcache', hq, herase⟩ := PathMap.exists_erase_eq hs.distinct hcache
      refine .inr ⟨by simp [alone], get?_drop_of_same (Path.same_refl p), ?_⟩
      exact ⟨before, q, c, after, hcache', hq, by rw [Store.drop, herase]⟩

/-- In the end there is no entry at the path, and the others are what they were. -/
theorem frame_of_evict (hs : s.Orderly) (host : (q : Request) → q.Reply) (p : Path) :
    ((Store.evict p).alone host s).2.root = s.root ∧
      ((Store.evict p).alone host s).2.cache.get? p = none ∧
      ∀ q, ¬ p.same q = true →
        ((Store.evict p).alone host s).2.cache.get? q = s.cache.get? q := by
  obtain ⟨hrun, hnone⟩ | ⟨hrun, hloses⟩ := evict_cases_alone hs host p
  · rw [hrun]
    exact ⟨rfl, hnone, fun q _ => rfl⟩
  · rw [hrun]
    exact ⟨rfl, hloses.gone, fun q hq => get?_drop_of_not_same hq⟩

theorem Orderly.reload (h : s.Orderly) (host : (q : Request) → q.Reply) (p : Path) :
    ((Store.reload p).alone host s).2.Orderly := by
  obtain hrun | hrun | ⟨v, haccept, -, hrun⟩ := reload_cases_alone host p s
  · rwa [hrun]
  · rwa [hrun]
  · rw [hrun]
    exact h.put haccept v

theorem Orderly.evict (h : s.Orderly) (host : (q : Request) → q.Reply) (p : Path) :
    ((Store.evict p).alone host s).2.Orderly := by
  obtain ⟨hrun, -⟩ | ⟨hrun, -⟩ := evict_cases_alone h host p
  · rwa [hrun]
  · rw [hrun]
    exact h.drop p

/-- Where a file is moved, the answer is about the new path unless that is refused. -/
theorem alone_renamed (host : (q : Request) → q.Reply) (source target : Path) (s : Store) :
    (Store.handleEvent (.renamed source target)).alone host s =
      let dropped := (Store.evict source).alone host s
      let loaded := (Store.reload target).alone host dropped.2
      (if loaded.1 = .ignored then dropped.1 else loaded.1, loaded.2) := by
  simp only [Store.handleEvent, Bind.bind, Pure.pure, alone_bind]
  cases ((Store.reload target).alone host ((Store.evict source).alone host s).2).1 <;> rfl

theorem Orderly.handleEvent (h : s.Orderly) (host : (q : Request) → q.Reply) (e : FileEvent) :
    ((Store.handleEvent e).alone host s).2.Orderly := by
  cases e with
  | created p => exact h.reload host p
  | modified p => exact h.reload host p
  | deleted p => exact h.evict host p
  | renamed source target =>
    rw [alone_renamed]
    exact (h.evict host source).reload host target

theorem orderly_of_sequential (h : Sequential root s) : s.Orderly := by
  induction h with
  | start => exact .empty root 0
  | @get s _ host p ih =>
    rw [(alone_get_eq host s p).2]
    exact ih.asked host p
  | handleEvent _ host e ih => exact ih.handleEvent host e
  | @setRoot s _ host root' _ => exact .empty root' s.nextHandle

/-! ### Answers -/

/-- Away from the path of an event all is as it was, but for the path that the file has left: that
has no entry. -/
structure Elsewhere (e : FileEvent) (s s' : Store) : Prop where
  root : s'.root = s.root
  vacated : ∀ p, e.vacated? = some p → s'.cache.get? p = none
  others : ∀ q, ¬ e.path.same q = true → (∀ p, e.vacated? = some p → ¬ p.same q = true) →
    s'.cache.get? q = s.cache.get? q

/-- What the answer to an event says of the store before and after it. -/
def Tells (host : (q : Request) → q.Reply) (e : FileEvent) (s : Store) :
    StoreUpdate → Store → Prop
  | .ignored, s' => s' = s
  | .evicted, s' => ∃ p, e.vacated? = some p ∧ LosesOne p s s'
  | .reloaded, s' =>
    (∃ c, s'.cache.get? e.path = some c ∧ Serves host e.path c.schema) ∧ Elsewhere e s s'
  | .reloadFailed, s' => s'.cache.get? e.path = s.cache.get? e.path ∧ Elsewhere e s s'

/-- To read the file of an event again, after the path that it has left has lost its entry. -/
theorem reload_tells (host : (q : Request) → q.Reply) {e : FileEvent} (hroot : s'.root = s.root)
    (hvacated : ∀ p, e.vacated? = some p → ¬ p.same e.path = true ∧ s'.cache.get? p = none)
    (hothers : ∀ q, (∀ p, e.vacated? = some p → ¬ p.same q = true) →
      s'.cache.get? q = s.cache.get? q) :
    (Store.reload e.path).alone host s' = (.ignored, s') ∨
      ∃ update t, (Store.reload e.path).alone host s' = (update, t) ∧ update ≠ .ignored ∧
        Tells host e s update t := by
  obtain hrun | hrun | ⟨v, -, hserves, hrun⟩ := reload_cases_alone host e.path s'
  · exact .inl hrun
  · refine .inr ⟨.reloadFailed, s', hrun, by decide, hothers _ fun p hp => (hvacated p hp).1, ?_⟩
    exact ⟨hroot, fun p hp => (hvacated p hp).2, fun q _ hq => hothers q hq⟩
  · refine .inr ⟨.reloaded, s'.put e.path v, hrun, by decide, ?_⟩
    refine ⟨⟨_, get?_put_of_same v (Path.same_refl _), hserves⟩, hroot, fun p hp => ?_,
      fun q hne hq => ?_⟩
    · obtain ⟨hne, hnone⟩ := hvacated p hp
      rw [get?_put_of_not_same v (Path.not_same_symm hne), hnone]
    · rw [get?_put_of_not_same v hne, hothers q hq]

/-- Where no file has left its path, the answer is about the path of the event. -/
theorem tells_of_reload (host : (q : Request) → q.Reply) (s : Store) {e : FileEvent}
    (h : e.vacated? = none) :
    Tells host e s ((Store.reload e.path).alone host s).1
      ((Store.reload e.path).alone host s).2 := by
  have hvacated : ∀ p, e.vacated? ≠ some p := fun p hp => by simp [h] at hp
  obtain hrun | ⟨update, t, hrun, -, htells⟩ := reload_tells host (e := e) (s := s) rfl
    (fun p hp => absurd hp (hvacated p)) fun q _ => rfl
  · rw [hrun]
    rfl
  · rwa [hrun]

/-- Where nothing else is done, the answer is about the path that the file has left. -/
theorem tells_of_evict (hs : s.Orderly) (host : (q : Request) → q.Reply) {e : FileEvent}
    (h : e.vacated? = some p) :
    Tells host e s ((Store.evict p).alone host s).1 ((Store.evict p).alone host s).2 := by
  obtain ⟨hrun, -⟩ | ⟨hrun, hloses⟩ := evict_cases_alone hs host p
  · rw [hrun]
    rfl
  · rw [hrun]
    exact ⟨p, h, hloses⟩

/-- **The answer to an event tells what has happened to the store.**  An ignored event has changed
nothing; an eviction has taken out one entry and changed nothing else; after a reload the entry at
the path of the event is the JSON value of what the host has there; and a reload that fails has left
that entry as it was.  In the last two cases the other entries are as they were, except that a file
that was moved has lost the entry of its old path. -/
theorem update_tells (hs : Sequential root s) (host : (q : Request) → q.Reply) (e : FileEvent)
    (he : ∀ source target, e = .renamed source target → ¬ source.same target = true) :
    Tells host e s ((Store.handleEvent e).alone host s).1
      ((Store.handleEvent e).alone host s).2 := by
  have horderly : s.Orderly := orderly_of_sequential hs
  cases e with
  | created p => exact tells_of_reload host s (e := .created p) rfl
  | modified p => exact tells_of_reload host s (e := .modified p) rfl
  | deleted p => exact tells_of_evict horderly host (e := .deleted p) rfl
  | renamed source target =>
    have hne : ¬ source.same target = true := he source target rfl
    obtain ⟨hroot, hnone, hothers⟩ := frame_of_evict horderly host source
    rw [alone_renamed]
    obtain hrun | ⟨update, t, hrun, hupdate, htells⟩ :=
      reload_tells host (e := .renamed source target) hroot
        (fun p hp => by cases hp; exact ⟨hne, hnone⟩) fun q hq => hothers q (hq source rfl)
    · -- the new path is refused, and the answer is about the old one
      simp only [FileEvent.path] at hrun
      simpa [hrun] using tells_of_evict horderly host (e := .renamed source target) rfl
    · simp only [FileEvent.path] at hrun
      simpa [hrun, hupdate] using htells

/-- A schema is read, and then its file is moved and changed. -/
theorem update_of_moved_note : ∃ host s s', Sequential ⟨"schemas"⟩ s ∧
    s.cache = [(⟨"schemas/note.json"⟩, ⟨0, .bool true⟩)] ∧
    s'.cache = [(⟨"schemas/new.json"⟩, ⟨1, .object []⟩)] ∧
    (Store.handleEvent (.renamed ⟨"schemas/note.json"⟩ ⟨"schemas/new.json"⟩)).alone host s =
      (.reloaded, s') ∧
    Tells host (.renamed ⟨"schemas/note.json"⟩ ⟨"schemas/new.json"⟩) s .reloaded s' := by
  have hnote : Serves (hostOf [(⟨"schemas/note.json"⟩, "true")]) ⟨"schemas/note.json"⟩
      (.bool true) := serves_hostOf (by rfl) (by cbv)
  have hnew : Serves (hostOf [(⟨"schemas/new.json"⟩, "\x7b\x7d")]) ⟨"schemas/new.json"⟩
      (.object []) := serves_hostOf (by rfl) (by cbv)
  obtain ⟨s, heq, hs⟩ : ∃ s, s = (Store.ofRoot ⟨"schemas"⟩).putNew ⟨"schemas/note.json"⟩
      (.bool true) ∧ Sequential ⟨"schemas"⟩ s := by
    have hget : Sequential ⟨"schemas"⟩ _ :=
      .get .start (hostOf [(⟨"schemas/note.json"⟩, "true")]) ⟨"schemas/note.json"⟩
    rw [alone_get (by decide) hnote] at hget
    exact ⟨_, rfl, hget⟩
  have hevict : (Store.evict ⟨"schemas/note.json"⟩).alone
      (hostOf [(⟨"schemas/new.json"⟩, "\x7b\x7d")]) s =
      (.evicted, s.drop ⟨"schemas/note.json"⟩) := by
    rw [heq]
    rfl
  have hreload := alone_reload (s := s.drop ⟨"schemas/note.json"⟩)
    (by rw [heq]; decide) hnew
  have hrun := alone_renamed (hostOf [(⟨"schemas/new.json"⟩, "\x7b\x7d")])
    ⟨"schemas/note.json"⟩ ⟨"schemas/new.json"⟩ s
  simp only [hevict, hreload, reduceCtorEq, if_false] at hrun
  have htells := update_tells hs (hostOf [(⟨"schemas/new.json"⟩, "\x7b\x7d")])
    (.renamed ⟨"schemas/note.json"⟩ ⟨"schemas/new.json"⟩) (by rintro _ _ ⟨⟩; decide)
  rw [hrun] at htells
  exact ⟨_, s, _, hs, by rw [heq]; rfl, by rw [heq]; rfl, hrun, htells⟩

end Store

end DocSchema
