/-
  DocSchema/Proofs/Store/Handles.lean
  ===================================
  **A schema that has been got stays the same reading.**

  Two operations that get one schema answer the same handle, as long as no operation in between
  sets the root, drops the schema or reads it again (`Undisturbed`).  They may overlap, they may
  both have read the file, and the file may have changed between their readings: it is the first
  reading in the store that counts.

  The argument is about one entry.  Only an operation that concerns its path can take it away or
  replace it (`concerns_of_acts`), so that what is found later is what was left (`found_kept`).
-/
import DocSchema.Proofs.Store.Overlap

namespace DocSchema.Store

open DocSchema.Json DocSchema.Program DocSchema.Workspace

/-- Whether an operation is one that may take the entry of a path away, or replace it. -/
def Access.Concerns (q : Path) : Access → Prop
  | .get _ => False
  | .reload p => p.same q = true
  | .evict p => p.same q = true
  | .setRoot _ => True

/-- Between two moments nothing is done that concerns the path, but to read it again in vain. -/
def Undisturbed [Retrieval] (S : Session accesses.inWorld) (q : Path) (m n : Nat) : Prop :=
  ∀ b ∈ S.begun, Access.Concerns q b.operation →
    ∀ w, .saw w ∈ b.seen → m < w.moment → w.moment < n →
      ∃ p update, ⟨Access.reload p, b.seen, update⟩ ∈ S.ended ∧ b.operation = Access.reload p ∧
        update ≠ .reloaded

/-- The schema of `p` was got, and answered as `c` by an action in the world `u`. -/
def Got [Retrieval] (S : Session accesses.inWorld) (p : Path) (c : Cached) (u : World Workspace) :
    Prop :=
  ∃ before, ⟨Access.get p, before ++ [.saw u], some c⟩ ∈ S.ended

section Handles

variable [Retrieval] {settings : Settings} {host : Host} {S : Session accesses.inWorld}
  {b : Progress accesses.inWorld} {seen : List (Observation (World Workspace))} {p q : Path}
  {c c' : Cached} {u u' v w : World Workspace} {x y : Workspace}

/-! ### The last action -/

theorem exists_last_of_ended (hS : Arises settings host S)
    (h : ⟨Access.get p, seen, some c⟩ ∈ S.ended) : ∃ before u, seen = before ++ [.saw u] := by
  have hleads : (visit (Store.get p)).Leads seen (.done (some c)) :=
    (Session.Reachable.faithful hS).ended _ h
  obtain ⟨rest, hleft⟩ | hleft | ⟨u, c', rfl, -, -⟩ |
    ⟨r, w₀, -, -, ⟨-, rest, hleft⟩ | ⟨u, rfl, -⟩⟩ := leads_get hleads
  · cases hleft
  · cases hleft
  · exact ⟨[], u, rfl⟩
  · cases hleft
  · exact ⟨.saw w₀ :: r.seen, u, rfl⟩

/-- What is answered is the entry that the last action leaves, and the one that it finds if there is
any. -/
theorem acted_of_got (hS : Arises settings host S) (h : Got S p c u) :
    ∃ x, Acted S.begun u x ∧ x.store.cache.get? p = some c ∧
      ∀ c', u.state.store.cache.get? p = some c' → c' = c := by
  obtain ⟨before, hended⟩ := h
  have hbegun := Session.mem_begun_of_ended hended
  have hleads : (visit (Store.get p)).Leads (before ++ [.saw u]) (.done (some c)) :=
    (Session.Reachable.faithful hS).ended _ hended
  obtain ⟨change, rest, hbefore, -⟩ := hleads.of_append_saw
  have hacted : Acted S.begun u (change u).state := ⟨_, hbegun, before, [], _, _, rfl, hbefore, rfl⟩
  obtain ⟨rest', hleft⟩ | hleft | ⟨u', c', hseen, hknown, hdone⟩ |
    ⟨r, w₀, rfl, hunknown, ⟨-, rest', hleft⟩ | ⟨u', hseen, hdone⟩⟩ := leads_get hleads
  · cases hleft
  · cases hleft
  · obtain ⟨rfl, hu⟩ := List.append_inj' (show _ = [] ++ [Observation.saw u'] from hseen) rfl
    cases hu
    cases hdone
    obtain ⟨-, hleft⟩ | ⟨_, _, hlater, -⟩ := hbefore.of_step
    · cases hleft
      exact ⟨_, hacted, hknown, fun c' hc' => Option.some.inj (hc'.symm.trans hknown)⟩
    · cases hlater
  · cases hleft
  · obtain ⟨rfl, hu⟩ :=
      List.append_inj' (show _ = (.saw w₀ :: r.seen) ++ [Observation.saw u'] from hseen) rfl
    cases hu
    cases hdone
    cases (leads_putNew r hunknown).unique hbefore
    exact ⟨_, hacted, get?_putNew _ _ _, fun c' hc' => by simp [settled, hc']⟩

/-! ### What is kept -/

/-- An entry that an action takes away or replaces, it takes away or replaces by an operation that
concerns the path, and by its last action if it reads the schema again. -/
theorem concerns_of_acts (h : Acts b w x) (hbefore : w.state.store.cache.get? q = some c)
    (hafter : x.store.cache.get? q ≠ some c) : Access.Concerns q b.operation ∧
      ∀ p, b.operation = Access.reload p →
        ∃ (r : Reading) (later : List (Observation (World Workspace))),
          r.path = p ∧ b.seen = r.seen ++ .saw w :: later := by
  obtain ⟨o, seen⟩ := b
  obtain ⟨before, later, f, rfl, hdoes, hx⟩ := does_of_acts h
  rw [hx] at hafter
  cases hdoes with
  | look | reroot => exact absurd hbefore hafter
  | putNew => exact absurd (keepsEntries_putNew _ _ _ _ _ hbefore) hafter
  | put r =>
    by_cases hr : r.path.same q = true
    · refine ⟨hr, ?_⟩
      rintro p ⟨⟩
      exact ⟨r, later, rfl, rfl⟩
    · rw [get?_put_of_not_same _ hr] at hafter
      exact absurd hbefore hafter
  | @drop p w₀ haccept =>
    by_cases hp : p.same q = true
    · refine ⟨hp, ?_⟩
      rintro p ⟨⟩
    · rw [get?_drop_of_not_same hp] at hafter
      exact absurd hbefore hafter
  | clear root w₀ =>
    refine ⟨trivial, ?_⟩
    rintro p ⟨⟩

/-- An operation that has put what it read into the store has reloaded. -/
theorem eq_reloaded_of_seen {r : Reading} {later : List (Observation (World Workspace))}
    {update : StoreUpdate} (hS : Arises settings host S)
    (h : ⟨Access.reload r.path, r.seen ++ .saw w :: later, update⟩ ∈ S.ended) :
    update = .reloaded := by
  have hleads : (visit (reload r.path)).Leads (r.seen ++ .saw w :: later) (.done update) :=
    (Session.Reachable.faithful hS).ended _ h
  obtain ⟨change, rest, hput, hlater⟩ := hleads.of_append_saw
  cases (leads_put r).unique hput
  obtain ⟨-, hdone⟩ := hlater.of_done
  cases hdone
  rfl

/-- An action finds the entry that an earlier one has left, if nothing that concerns the path has
been done in between. -/
theorem found_kept (hS : Arises settings host S) (hu : Acted S.begun u x)
    (hx : x.store.cache.get? q = some c) (hv : Acted S.begun v y) (hlt : u.moment < v.moment)
    (hundisturbed : Undisturbed S q u.moment v.moment) : v.state.store.cache.get? q = some c := by
  by_contra hv'
  -- what makes the entry another one comes after `u`, so it is something that disturbs
  have hexplained : Explained (fun s => ¬ Has q (some c) s) (.ofSettings settings) S.state
      (Acted S.begun) := explained_of_reachable hS fun f hf s => by rw [Has, Has, hf s]
  obtain ⟨-, hheld⟩ | ⟨w, z, hmakes⟩ := hexplained.found v y hv hv'
  · exact (hheld u x hu hlt).2 (Nat.zero_le _) hx
  · have hafter : u.moment < w.moment := by
      by_contra hle
      exact (hmakes.held u x hu hlt).2 (by omega) hx
    obtain ⟨b, hb, hacts⟩ := hmakes.acts
    obtain ⟨hconcerns, hreload⟩ := concerns_of_acts hacts (not_not.1 hmakes.before) hmakes.after
    have hw : .saw w ∈ b.seen := by
      obtain ⟨before, later, -, -, hseen, -⟩ := hacts
      simp [hseen]
    obtain ⟨p, update, hended, hop, hne⟩ := hundisturbed b hb hconcerns w hw hafter hmakes.past
    obtain ⟨r, later, rfl, hseen⟩ := hreload p hop
    rw [hseen] at hended
    exact hne (eq_reloaded_of_seen hS hended)

theorem eq_of_got (hS : Arises settings host S) (hp : Got S p c u) (hq : Got S q c' u')
    (hsame : p.same q = true) (hle : u.moment ≤ u'.moment)
    (hundisturbed : Undisturbed S q u.moment u'.moment) : c' = c := by
  obtain ⟨x, hu, hx, -⟩ := acted_of_got hS hp
  obtain ⟨x', hu', hx', hfound⟩ := acted_of_got hS hq
  rw [x.store.cache.get?_congr (Path.same_iff.1 hsame)] at hx
  rcases Nat.eq_or_lt_of_le hle with heq | hlt
  · obtain ⟨-, rfl⟩ := (successive_of_reachable hS).unique u x u' x' hu hu' heq
    exact Option.some.inj (hx'.symm.trans hx)
  · exact (hfound c (found_kept hS hu hx hu' hlt hundisturbed)).symm

/-- An operation that gets a schema and fails leaves the store alone. -/
theorem store_of_failed_get (hS : Arises settings host S)
    (h : ⟨Access.get p, seen, none⟩ ∈ S.ended)
    (hacts : Acts (R := accesses) ⟨Access.get p, seen⟩ w x) : x.store = w.state.store := by
  obtain ⟨before, later, f, hseen, hdoes, hx⟩ := does_of_acts hacts
  rw [hx]
  cases hdoes with
  | look => rfl
  | @putNew r w₀ hunknown =>
    -- with a reading in the store it does not fail
    have hleads : (visit (Store.get r.path)).Leads seen (.done none) :=
      (Session.Reachable.faithful hS).ended _ h
    change seen = _ at hseen
    rw [hseen] at hleads
    obtain ⟨change, rest, hput, hlater⟩ := hleads.of_append_saw
    cases (leads_putNew r hunknown).unique hput
    obtain ⟨-, hdone⟩ := hlater.of_done
    cases hdone

theorem store_of_failed_reload (hS : Arises settings host S)
    (h : ⟨Access.reload p, seen, .reloadFailed⟩ ∈ S.ended)
    (hacts : Acts (R := accesses) ⟨Access.reload p, seen⟩ w x) : x.store = w.state.store := by
  obtain ⟨before, later, f, hseen, hdoes, hx⟩ := does_of_acts hacts
  rw [hx]
  cases hdoes with
  | look => rfl
  | put r =>
    change seen = _ at hseen
    rw [hseen] at h
    cases eq_reloaded_of_seen hS h

/-- To get a schema makes no difference to the entries of other paths. -/
theorem get?_of_acts_get (hacts : Acts (R := accesses) ⟨Access.get p, seen⟩ w x)
    (hq : ¬ p.same q = true) : x.store.cache.get? q = w.state.store.cache.get? q := by
  obtain ⟨before, later, f, -, hdoes, hx⟩ := does_of_acts hacts
  rw [hx]
  cases hdoes with
  | look => rfl
  | putNew =>
    unfold putNew
    split
    · rfl
    · exact get?_put_of_not_same _ hq

/-- How handles stay what they are. -/
structure HandlesStable (S : Session accesses.inWorld) : Prop where
  answered : ∀ p seen c, ⟨Access.get p, seen, some c⟩ ∈ S.ended →
    ∃ before u, seen = before ++ [.saw u]
  same_handle : ∀ p q c c' u u', Got S p c u → Got S q c' u' → p.same q = true →
    u.moment ≤ u'.moment → Undisturbed S q u.moment u'.moment → c' = c
  failed_get : ∀ p seen, ⟨Access.get p, seen, none⟩ ∈ S.ended →
    ∀ w x, Acts (R := accesses) ⟨Access.get p, seen⟩ w x → x.store = w.state.store
  other_paths : ∀ p seen, ⟨Access.get p, seen⟩ ∈ S.begun → ∀ q, ¬ p.same q = true →
    ∀ w x, Acts (R := accesses) ⟨Access.get p, seen⟩ w x →
      x.store.cache.get? q = w.state.store.cache.get? q
  failed_reload : ∀ p seen, ⟨Access.reload p, seen, .reloadFailed⟩ ∈ S.ended →
    ∀ w x, Acts (R := accesses) ⟨Access.reload p, seen⟩ w x → x.store = w.state.store

theorem handles_stable (hS : Arises settings host S) : HandlesStable S where
  answered _ _ _ h := exists_last_of_ended hS h
  same_handle _ _ _ _ _ _ hp hq := eq_of_got hS hp hq
  failed_get _ _ h _ _ := store_of_failed_get hS h
  other_paths _ _ _ _ hq _ _ hacts := get?_of_acts_get hacts hq
  failed_reload _ _ h _ _ := store_of_failed_reload hS h

/-- Two operations may both read a schema before it is known, and the file may change between their
readings. -/
theorem exists_get_over_get {v : Value} (hunknown : w.state.store.cache.get? p = none)
    (haccept : w.state.store.isSchemaFile p = true) (hserves : Serves w.host p v) {host' : Host}
    {v' : Value} (hserves' : Serves host' p v') :
    ∃ (S : Session accesses.inWorld) (r r' : Reading) (w₀ w₀' u u' : World Workspace)
      (c c' : Cached), S.Reachable w ∧ AtRest S ∧ r.value = v ∧ r'.value = v' ∧
      r.read.moment < u'.moment ∧ u'.moment < u.moment ∧
      S.ended = [⟨Access.get p, (.saw w₀ :: r.seen) ++ [.saw u], some c⟩,
        ⟨Access.get p, (.saw w₀' :: r'.seen) ++ [.saw u'], some c'⟩] ∧
      S.begun = [⟨Access.get p, (.saw w₀ :: r.seen) ++ [.saw u]⟩,
        ⟨Access.get p, (.saw w₀' :: r'.seen) ++ [.saw u']⟩] := by
  let w' : World Workspace := (w.later 4).rehost fun _ => host'
  have hchanged := Session.Leads.rehost (R := accesses) (S := ⟨w.later 4, [], []⟩) .refl
    fun _ => host'
  have hget := hchanged.call_of_advances (client_access (.get p))
    (advances_get (w := w') hunknown haccept hserves').saw
  have hlate := Session.Leads.late (client_access (.get p))
    (advances_get hunknown haccept hserves) hget rfl
  refine ⟨_, Reading.ofServes (w := w.later 1) haccept hserves,
    Reading.ofServes (w := w'.later 1) haccept hserves', w, w', _, w'.later 4, _, _, hlate, ?_, rfl,
    rfl, ?_, ?_, rfl, rfl⟩
  · simp [AtRest]
  · change w.moment + 1 + 2 < w.moment + 4 + 1 + 4
    omega
  · exact Nat.lt_succ_self _

end Handles

/-- Two operations get the schema, with another file each, and agree. -/
theorem overlapping_gets_agree : ∃ (S : Session accesses.inWorld) (r r' : Reading)
    (w₀ w₀' u u' : World Workspace) (c c' : Cached), Arises {} noteHost S ∧
    ⟨Access.get ⟨"schemas/note.json"⟩, (.saw w₀ :: r.seen) ++ [.saw u]⟩ ∈ S.begun ∧
    ⟨Access.get ⟨"schemas/note.json"⟩, (.saw w₀' :: r'.seen) ++ [.saw u']⟩ ∈ S.begun ∧
    r.value = .object [] ∧ r'.value = .bool true ∧
    (Got S ⟨"schemas/note.json"⟩ c' u' ∧ Got S ⟨"schemas/note.json"⟩ c u ∧
      u'.moment ≤ u.moment ∧ Undisturbed S ⟨"schemas/note.json"⟩ u'.moment u.moment) ∧
    c = c' := by
  obtain ⟨S, r, r', w₀, w₀', u, u', c, c', hS, -, hvalue, hvalue', -, hlt, hended, hbegun⟩ :=
    exists_get_over_get (w := noteWorld) rfl accepts_note serves_note
      (serves_changed_note _ (Path.same_refl _))
  have hlate : Got S ⟨"schemas/note.json"⟩ c u := ⟨.saw w₀ :: r.seen, by simp [hended]⟩
  have hearly : Got S ⟨"schemas/note.json"⟩ c' u' := ⟨.saw w₀' :: r'.seen, by simp [hended]⟩
  have hundisturbed : Undisturbed S ⟨"schemas/note.json"⟩ u'.moment u.moment := by
    intro b hb hconcerns
    rw [hbegun] at hb
    rcases List.mem_cons.1 hb with rfl | hb
    · cases hconcerns
    · cases List.mem_singleton.1 hb
      cases hconcerns
  refine ⟨S, r, r', w₀, w₀', u, u', c, c', hS, by simp [hbegun], by simp [hbegun], hvalue, hvalue',
    ⟨hearly, hlate, Nat.le_of_lt hlt, hundisturbed⟩, ?_⟩
  exact (handles_stable hS).same_handle _ _ _ _ _ _ hearly hlate (Path.same_refl _)
    (Nat.le_of_lt hlt) hundisturbed

end DocSchema.Store
