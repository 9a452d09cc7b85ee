/-
  DocSchema/Proofs/Store.lean
  ===========================
  **What the programs of a store do to its entries.**

  To get a schema keeps every entry and answers one that the store now has (`keeps_get`,
  `entry_of_get`).  An event changes the entries of its own paths only, and what it answers tells
  whether it did, with one exception: a file that is moved away loses its entry even where the
  answer is about the place that it was moved to (`changed_cases`).
-/
import Mathlib.Tactic.ByContra
import DocSchema.Proofs.Execution
import DocSchema.Proofs.Path.Map
import DocSchema.Workspace

namespace DocSchema.Store

open DocSchema.Json DocSchema.Program

variable {s s' : Store} {p q : Path} {c : Cached} {update : StoreUpdate}

/-! ### Entries -/

/-- Whether a path is accepted depends on its components and on the root. -/
theorem isSchemaFile_congr (hp : p.same q = true) (hroot : s.root = s'.root) :
    s.isSchemaFile p = s'.isSchemaFile q := by
  unfold isSchemaFile Path.climbs Path.startsWith
  rw [Path.same_iff.1 hp, hroot]

/-- A change that leaves the entries alone, though it may add to them. -/
def KeepsEntries (change : Store → Store) : Prop :=
  ∀ s q c, s.cache.get? q = some c → (change s).cache.get? q = some c

theorem get?_drop_of_not_same (h : ¬ p.same q = true) :
    (s.drop p).cache.get? q = s.cache.get? q :=
  PathMap.get?_erase_of_ne _ fun hc => h (Path.same_iff.2 hc.symm)

theorem get?_put_of_not_same (v : Value) (h : ¬ p.same q = true) :
    (s.put p v).cache.get? q = s.cache.get? q :=
  PathMap.get?_insert_of_ne _ _ fun hc => h (Path.same_iff.2 hc.symm)

theorem get?_put_of_same (v : Value) (h : p.same q = true) :
    (s.put p v).cache.get? q = some ⟨s.nextHandle, v⟩ := by
  rw [(s.put p v).cache.get?_congr (Path.same_iff.1 h).symm]
  exact PathMap.get?_insert_self _ _ _

theorem get?_drop_of_same (h : p.same q = true) : (s.drop p).cache.get? q = none := by
  rw [(s.drop p).cache.get?_congr (Path.same_iff.1 h).symm]
  exact PathMap.get?_erase_self _ _

/-- Nothing is dropped where there is no entry. -/
theorem drop_of_unknown (h : s.cache.get? p = none) : s.drop p = s := by
  unfold drop
  rw [PathMap.erase_of_unknown h]

theorem keepsEntries_putNew (p : Path) (v : Value) : KeepsEntries (putNew p v) := by
  intro s q c hc
  unfold putNew
  split
  · exact hc
  · rename_i hnew
    have hpq : ¬ p.same q = true := by
      intro hsame
      have hp : s.cache.get? p = some c := by
        rw [s.cache.get?_congr (Path.same_iff.1 hsame), hc]
      exact hnew (by simp [PathMap.contains, hp])
    rw [get?_put_of_not_same v hpq, hc]

/-- What a reading settles to is the entry in the end. -/
theorem get?_putNew (s : Store) (p : Path) (v : Value) :
    (s.putNew p v).cache.get? p = some (s.settled p v) := by
  unfold putNew settled
  cases hs : s.cache.get? p with
  | some c => simp [PathMap.contains, hs]
  | none => simp [PathMap.contains, hs, put, PathMap.get?_insert_self]

theorem get?_putNew_of_unknown (v : Value) (h : s.cache.get? p = none) :
    (s.putNew p v).cache.get? p = some ⟨s.nextHandle, v⟩ := by
  rw [get?_putNew, settled, h, Option.getD_none]

/-! ### Reading -/

/-- To read a file changes nothing. -/
theorem keeps_loadSchema {σ : Type} {Q : (σ → σ) → Prop} (p : Path) :
    Keeps Q (loadSchema p : Program σ (Except LoadError Value)) := by
  refine .ask fun found => ?_
  cases found with
  | false => exact .done _
  | true =>
    refine .ask fun r => ?_
    cases r with
    | error e => exact .done _
    | ok text => exact .done _

theorem state_of_loadSchema {r : Except LoadError Value} (h : Executes (loadSchema p) s r s') :
    s' = s :=
  (h.keeps (R := Eq) (fun _ => rfl) (fun _ _ _ => Eq.trans) (keeps_loadSchema p)).symm

theorem keeps_get (p : Path) : Keeps KeepsEntries (Store.get p) := by
  have hid : KeepsEntries id := fun _ _ _ hc => hc
  have hload : Keeps KeepsEntries (load p) := by
    refine (Keeps.look hid).bind fun accepted => ?_
    cases accepted with
    | true => exact keeps_loadSchema p
    | false => exact (Keeps.look hid).bind fun root => .done _
  refine (Keeps.look hid).bind fun known => ?_
  cases known with
  | some c => exact .done _
  | none =>
    refine hload.bind fun r => ?_
    cases r with
    | error e => exact .done _
    | ok v => exact .step (keepsEntries_putNew p v) fun s => .done _

/-- What a store answers for a path is its entry. -/
theorem entry_of_get (h : Executes (Store.get p) s (some c) s') : s'.cache.get? p = some c := by
  have hlook := h.of_step
  cases hcache : s.cache.get? p with
  | some c' =>
    rw [show id s = s from rfl] at hlook
    simp only [Program.bind, hcache] at hlook
    obtain ⟨hc, rfl⟩ := hlook.of_done
    cases hc
    exact hcache
  | none =>
    rw [show id s = s from rfl] at hlook
    simp only [Program.bind, hcache] at hlook
    obtain ⟨r, t, -, hrest⟩ := hlook.of_bind
    cases r with
    | error e =>
      obtain ⟨hc, -⟩ := hrest.of_done
      cases hc
    | ok v =>
      obtain ⟨hc, rfl⟩ := hrest.of_step.of_done
      cases hc
      exact get?_putNew _ _ _

/-- A store answers for what it knows and for what it accepts. -/
theorem known_or_accepted_of_get (h : Executes (Store.get p) s (some c) s') :
    (∃ c', s.cache.get? p = some c') ∨ s.isSchemaFile p = true := by
  have hlook := h.of_step
  rw [show id s = s from rfl] at hlook
  cases hcache : s.cache.get? p with
  | some c' => exact .inl ⟨c', rfl⟩
  | none =>
    right
    simp only [Program.bind, hcache] at hlook
    obtain ⟨r, t, hload, hrest⟩ := hlook.of_bind
    cases haccept : s.isSchemaFile p with
    | true => rfl
    | false =>
      have hrefuse := hload.of_step
      rw [show id s = s from rfl] at hrefuse
      simp only [Program.bind, haccept] at hrefuse
      obtain ⟨rfl, -⟩ := hrefuse.of_step.of_done
      obtain ⟨hc, -⟩ := hrest.of_done
      cases hc

/-! ### Events -/

/-- A file is read again with success, or nothing changes. -/
theorem reload_cases (h : Executes (reload p) s update s') :
    (s' = s ∧ (update = .ignored ∨ update = .reloadFailed)) ∨
      (update = .reloaded ∧ ∃ v, s' = s.put p v) := by
  have hlook := h.of_step
  dsimp only [id] at hlook
  cases haccept : s.isSchemaFile p with
  | false =>
    simp only [haccept, Program.bind] at hlook
    obtain ⟨rfl, rfl⟩ := hlook.of_done
    exact .inl ⟨rfl, .inl rfl⟩
  | true =>
    simp only [haccept, Program.bind] at hlook
    obtain ⟨r, t, hload, hrest⟩ := hlook.of_bind
    have ht := state_of_loadSchema hload
    subst ht
    cases r with
    | error e =>
      obtain ⟨rfl, rfl⟩ := hrest.of_done
      exact .inl ⟨rfl, .inr rfl⟩
    | ok v =>
      obtain ⟨rfl, rfl⟩ := hrest.of_step.of_done
      exact .inr ⟨rfl, v, rfl⟩

/-- A schema is dropped, or the entries stay what they are. -/
theorem evict_cases (h : Executes (evict p) s update s') :
    (update = .ignored ∧ ∀ q, s'.cache.get? q = s.cache.get? q) ∨
      (update = .evicted ∧ s' = s.drop p) := by
  have hlook := h.of_step
  dsimp only [id] at hlook
  cases haccept : s.isSchemaFile p with
  | false =>
    simp only [haccept, Program.bind] at hlook
    obtain ⟨rfl, rfl⟩ := hlook.of_done
    exact .inl ⟨rfl, fun q => rfl⟩
  | true =>
    simp only [haccept, Program.bind] at hlook
    have hdrop := hlook.of_step
    cases hcontains : s.cache.contains p with
    | false =>
      simp only [hcontains, Program.bind] at hdrop
      obtain ⟨rfl, rfl⟩ := hdrop.of_done
      have hnone : s.cache.get? p = none := by simpa [PathMap.contains] using hcontains
      exact .inl ⟨rfl, fun q => by rw [drop_of_unknown hnone]⟩
    | true =>
      simp only [hcontains, Program.bind] at hdrop
      obtain ⟨rfl, rfl⟩ := hdrop.of_done
      exact .inr ⟨rfl, rfl⟩

/-- Where an entry changes, the event names its path and the answer tells of a change, unless the
file was moved away and could not be read at its new place. -/
theorem changed_cases {e : FileEvent} (h : Executes (Store.handleEvent e) s update s')
    (hc : s.cache.get? q = some c) (hchanged : s'.cache.get? q ≠ some c) :
    (update = .reloaded ∨ update = .evicted) ∧ (∃ p ∈ Workspace.affectedSchemas e, p.same q = true) ∨
      update = .reloadFailed ∧ ∃ source target, e = .renamed source target ∧
        source.same q = true := by
  have hreload : ∀ {p s update}, s.cache.get? q = some c → Executes (reload p) s update s' →
      update = .reloaded ∧ p.same q = true := by
    intro p s update hc h
    obtain ⟨rfl, -⟩ | ⟨rfl, v, rfl⟩ := reload_cases h
    · exact absurd hc hchanged
    · refine ⟨rfl, ?_⟩
      by_contra hpq
      rw [get?_put_of_not_same v hpq] at hchanged
      exact hchanged hc
  have hevict : ∀ {p t update}, Executes (evict p) s update t → t.cache.get? q ≠ some c →
      update = .evicted ∧ p.same q = true := by
    intro p t update h hchanged
    obtain ⟨-, hkept⟩ | ⟨rfl, rfl⟩ := evict_cases h
    · rw [hkept] at hchanged
      exact absurd hc hchanged
    · refine ⟨rfl, ?_⟩
      by_contra hpq
      rw [get?_drop_of_not_same hpq] at hchanged
      exact hchanged hc
  cases e with
  | created p =>
    obtain ⟨rfl, hp⟩ := hreload hc h
    exact .inl ⟨.inl rfl, p, List.mem_cons_self, hp⟩
  | modified p =>
    obtain ⟨rfl, hp⟩ := hreload hc h
    exact .inl ⟨.inl rfl, p, List.mem_cons_self, hp⟩
  | deleted p =>
    obtain ⟨rfl, hp⟩ := hevict h hchanged
    exact .inl ⟨.inr rfl, p, List.mem_cons_self, hp⟩
  | renamed source target =>
    obtain ⟨dropped, t, hsource, hrest⟩ := h.of_bind
    obtain ⟨loaded, u, htarget, hanswer⟩ := hrest.of_bind
    have hu : u = s' ∧ update = if loaded = .ignored then dropped else loaded := by
      cases loaded with
      | ignored | reloaded | reloadFailed | evicted =>
        obtain ⟨rfl, rfl⟩ := hanswer.of_done
        exact ⟨rfl, rfl⟩
    obtain ⟨rfl, rfl⟩ := hu
    by_cases hkept : t.cache.get? q = some c
    · obtain ⟨rfl, hp⟩ := hreload hkept htarget
      exact .inl ⟨.inl rfl, target, List.mem_cons_self, hp⟩
    · obtain ⟨rfl, hp⟩ := hevict hsource hkept
      have hnamed : ∃ p ∈ Workspace.affectedSchemas (.renamed source target), p.same q = true :=
        ⟨source, List.mem_cons_of_mem _ List.mem_cons_self, hp⟩
      -- what the answer tells is about the target
      obtain ⟨-, rfl | rfl⟩ | ⟨rfl, -⟩ := reload_cases htarget
      · exact .inl ⟨.inr rfl, hnamed⟩
      · exact .inr ⟨rfl, source, target, rfl, hp⟩
      · exact .inl ⟨.inl rfl, hnamed⟩

end DocSchema.Store
