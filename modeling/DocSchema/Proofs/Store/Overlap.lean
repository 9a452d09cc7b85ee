/-
  DocSchema/Proofs/Store/Overlap.lean
  ===================================
  **What a store holds when operations overlap.**

  An operation checks the root, then reads the file, and only then updates the entries; only the
  update is one undivided action.  All that is promised of the entries therefore holds as long as
  nothing happens between the check or the reading and the update, and what may happen there is told
  exactly:

  - a path outside of the root has an entry only if the root was set while an operation that had
    accepted the path was under way (`entries_below_root`);
  - a reading replaces a later one only if the later one was made and put into the store while the
    earlier one was under way (`updates_not_lost`);
  - an entry that was dropped comes back with an old reading only if the reading was under way when
    the entry was dropped (`dropped_unless_under_way`).

  Each of the three does happen (`get_outlives_root`, `reload_outlives_update`,
  `get_outlives_eviction`).
-/
import DocSchema.Proofs.Store.Access

namespace DocSchema.Store

open DocSchema.Json DocSchema.Program DocSchema.Workspace

variable {settings : Settings} {host : Host} {p q : Path} {c : Cached} {e : Option Cached} {v : Value}
  {r : Reading} {u w : World Workspace} {n : Nat}

/-! ### Where entries come from -/

section Entries

variable [Retrieval] {S : Session accesses.inWorld} {begun : List (Progress accesses.inWorld)}
  {b : Progress accesses.inWorld}

/-- A session that clients have come to: a workspace without results, and a host. -/
def Arises (settings : Settings) (host : Host) (S : Session accesses.inWorld) : Prop :=
  S.Reachable ⟨.ofSettings settings, host, 0⟩

/-- What a store has for a path. -/
def Has (q : Path) (e : Option Cached) (x : Workspace) : Prop :=
  x.store.cache.get? q = e

/-- The entry `c` of the path `q` is that of the reading `r`, which an operation put into the store
of the world `u`. -/
structure ComesOf (begun : List (Progress accesses.inWorld)) (q : Path) (c : Cached) (r : Reading)
    (u : World Workspace) : Prop where
  puts : ∃ b ∈ begun, Puts b r u
  same : r.path.same q = true
  entry : c = r.entry u

theorem explained_has (hS : Arises settings host S) (q : Path) (e : Option Cached) :
    Explained (Has q e) (.ofSettings settings) S.state (Acted S.begun) :=
  explained_of_reachable hS fun f hf x => by rw [Has, Has, hf x]

theorem explained_root (hS : Arises settings host S) (root : Path) :
    Explained (fun x => x.store.root = root) (.ofSettings settings) S.state (Acted S.begun) :=
  explained_of_reachable hS fun f hf x => by rw [hf x]

theorem comesOf_of_origin (h : Origin (Has q (some c)) (.ofSettings settings) (Acted begun) n) :
    ∃ r u, ComesOf begun q c r u ∧ u.moment < n ∧
      Held (Has q (some c)) (Acted begun) (u.moment + 1) n := by
  obtain ⟨hstart, -⟩ | ⟨u, x, hmakes⟩ := h
  · cases hstart
  · obtain ⟨b, hb, hacts⟩ := hmakes.acts
    obtain ⟨r, hputs, hsame, hentry⟩ := puts_of_acts hacts hmakes.before hmakes.after
    exact ⟨r, u, ⟨⟨b, hb, hputs⟩, hsame, hentry⟩, hmakes.past, hmakes.held⟩

/-- An entry that has stayed since its reading was put into the store, was not dropped since then. -/
theorem lt_of_drops (hS : Arises settings host S) (hb : b ∈ S.begun) (hdrops : Drops b q w)
    (hheld : Held (Has q (some c)) (Acted S.begun) (u.moment + 1) S.state.moment) :
    w.moment < u.moment := by
  obtain ⟨x, hacts, hnone⟩ := acts_of_drops hdrops
  have hacted : Acted S.begun w x := ⟨b, hb, hacts⟩
  have hpast := (explained_has hS q none).past w x hacted
  -- dropped later, the entry would have been found gone
  by_contra hle
  have hkept : Has q (some c) x := (hheld w x hacted hpast).2 (by omega)
  rw [Has, hnone] at hkept
  cases hkept

/-- Where there was an entry and is none, it has been dropped since then. -/
theorem exists_drops (hS : Arises settings host S) {x : Workspace} (hacted : Acted S.begun u x)
    (hx : x.store.cache.get? q = some c) (hnone : S.state.state.store.cache.get? q = none) :
    ∃ b ∈ S.begun, ∃ w, Drops b q w ∧ u.moment < w.moment := by
  have hexplained := explained_has hS q none
  have hpast := hexplained.past u x hacted
  have hnot : ¬ Has q none x := by
    rw [Has, hx]
    exact Option.some_ne_none c
  obtain ⟨-, hheld⟩ | ⟨w, y, hmakes⟩ := hexplained.now hnone
  · exact absurd ((hheld u x hacted hpast).2 (Nat.zero_le _)) hnot
  · obtain ⟨b, hb, hacts⟩ := hmakes.acts
    refine ⟨b, hb, w, drops_of_acts hacts hmakes.before hmakes.after, ?_⟩
    by_contra hle
    exact hnot ((hmakes.held u x hacted hpast).2 (by omega))

/-- An entry is the one that there was, or has been put into the store since then. -/
theorem comesOf_since (hS : Arises settings host S) {x : Workspace} {c' : Cached}
    (hacted : Acted S.begun u x) (hx : x.store.cache.get? q = some c)
    (hc : S.state.state.store.cache.get? q = some c') :
    ∃ r u', ComesOf S.begun q c' r u' ∧ (c' = c ∨ u.moment < u'.moment) := by
  have hexplained := explained_has hS q (some c')
  obtain ⟨r, u', hcomes, -, hheld⟩ := comesOf_of_origin (hexplained.now hc)
  refine ⟨r, u', hcomes, ?_⟩
  rcases Nat.lt_or_ge u.moment u'.moment with hlt | hge
  · exact .inr hlt
  · have hkept : Has q (some c') x := (hheld u x hacted (hexplained.past u x hacted)).2 (by omega)
    rw [Has, hx] at hkept
    exact .inl (Option.some.inj hkept).symm

theorem Puts.mem_seen (h : Puts b r u) :
    .saw r.accepted ∈ b.seen ∧ .saw r.found ∈ b.seen ∧ .saw r.read ∈ b.seen ∧ .saw u ∈ b.seen := by
  cases h <;> simp [Reading.seen]

theorem acted_of_mem (hS : Arises settings host S) (hb : b ∈ S.begun) (hw : .saw w ∈ b.seen) :
    ∃ x, Acted S.begun w x := by
  obtain ⟨left, hleads⟩ := (Session.Reachable.faithful hS).exists_leads hb
  obtain ⟨x, hacts⟩ := acts_of_mem hleads hw
  exact ⟨x, b, hb, hacts⟩

/-! ### Dropped entries -/

/-- The file had been read at the moment `n`, but the reading was yet to be put into the store. -/
def UnderWay (r : Reading) (u : World Workspace) (n : Nat) : Prop :=
  r.read.moment ≤ n ∧ n < u.moment

/-- After an entry has been dropped, it only comes back with a reading that was made later, or with
one that was under way when it was dropped. -/
theorem dropped_unless_under_way (hS : Arises settings host S) (hb : b ∈ S.begun)
    (hdrops : Drops b q w) (hc : S.state.state.store.cache.get? q = some c) :
    ∃ r u, ComesOf S.begun q c r u ∧ (w.moment < r.read.moment ∨ UnderWay r u w.moment) := by
  obtain ⟨r, u, hcomes, -, hheld⟩ := comesOf_of_origin ((explained_has hS q (some c)).now hc)
  refine ⟨r, u, hcomes, ?_⟩
  rcases Nat.lt_or_ge w.moment r.read.moment with hread | hread
  · exact .inl hread
  · exact .inr ⟨hread, lt_of_drops hS hb hdrops hheld⟩

/-- Everybody who came has come to an end. -/
def AtRest (S : Session accesses.inWorld) : Prop :=
  ∀ t ∈ S.threads, t = .outside (.done ())

/-- An entry may be dropped while its schema is got, and the reading put into the store after
that. -/
theorem exists_get_over_evict (hunknown : w.state.store.cache.get? p = none)
    (haccept : w.state.store.isSchemaFile p = true) (hserves : Serves w.host p v) :
    ∃ (S : Session accesses.inWorld) (c : Cached) (u : World Workspace) (update : StoreUpdate),
      S.Reachable w ∧ AtRest S ∧ S.state.state.store.cache.get? p = some c ∧
      ⟨Access.evict p, [.saw (w.later 4), .saw (w.later 5)], update⟩ ∈ S.ended ∧
      S.begun = [⟨Access.get p,
          .saw w :: ((Reading.ofServes (w := w.later 1) haccept hserves).seen ++ [.saw u])⟩,
        ⟨Access.evict p, [.saw (w.later 4), .saw (w.later 5)]⟩] := by
  have hevict := Session.Leads.call_of_advances (S := ⟨w.later 4, [], []⟩) .refl
    (client_access (.evict p)) (advances_evict (w := w.later 4) haccept)
  have hlate := Session.Leads.late (client_access (.get p))
    (advances_get hunknown haccept hserves) hevict rfl
  refine ⟨_, ⟨w.state.store.nextHandle, v⟩, actOn (drop p) (w.later 5), _, hlate, ?_, ?_,
    List.mem_cons_of_mem _ List.mem_cons_self, rfl⟩
  · simp [AtRest]
  · exact get?_putNew_of_unknown v (PathMap.get?_erase_self _ _)

theorem read_of_puts_get {r' : Reading} {later : List (Observation (World Workspace))}
    (h : Puts ⟨Access.get p, .saw w :: (r.seen ++ later)⟩ r' u) : r'.read = r.read := by
  generalize hseen : (Observation.saw w :: (r.seen ++ later)) = seen at h
  cases h with
  | get _ _ =>
    simp only [Reading.seen, List.cons_append, List.cons.injEq] at hseen
    exact (Observation.saw.inj hseen.2.2.2.1).symm

end Entries

/-- A host with one schema file. -/
def noteHost : Host :=
  hostOf [(⟨"schemas/note.json"⟩, "\x7b\x7d")]

theorem serves_note : Serves noteHost ⟨"schemas/note.json"⟩ (.object []) :=
  serves_hostOf (by rfl) (by cbv)

/-- The world before anybody came. -/
def noteWorld : World Workspace :=
  ⟨.ofSettings {}, noteHost, 0⟩

theorem accepts_note : noteWorld.state.store.isSchemaFile ⟨"schemas/note.json"⟩ = true := by
  decide

theorem dropped_note_returns : ∃ S b w c, Arises {} noteHost S ∧ b ∈ S.begun ∧
    Drops b ⟨"schemas/note.json"⟩ w ∧
    S.state.state.store.cache.get? ⟨"schemas/note.json"⟩ = some c ∧
    ∃ r u, ComesOf S.begun ⟨"schemas/note.json"⟩ c r u ∧
      (w.moment < r.read.moment ∨ UnderWay r u w.moment) := by
  obtain ⟨S, c, u, update, hS, -, hc, hended, -⟩ := exists_get_over_evict (w := noteWorld) rfl
    accepts_note serves_note
  have hb := Session.mem_begun_of_ended hended
  have hdrops : Drops ⟨Access.evict ⟨"schemas/note.json"⟩,
      [.saw (noteWorld.later 4), .saw (noteWorld.later 5)]⟩ ⟨"schemas/note.json"⟩
      (noteWorld.later 5) :=
    .evict accepts_note (Path.same_refl _)
  exact ⟨S, _, _, c, hS, hb, hdrops, hc, dropped_unless_under_way hS hb hdrops hc⟩

/-- An entry that an event has dropped may come back with what was read before. -/
theorem get_outlives_eviction : ¬ ∀ (settings : Settings) (host : Host)
    (S : Session accesses.inWorld), Arises settings host S → AtRest S → ∀ p q w₀ w update c,
      ⟨Access.evict p, [.saw w₀, .saw w], update⟩ ∈ S.ended →
      w₀.state.store.isSchemaFile p = true → p.same q = true →
      S.state.state.store.cache.get? q = some c →
      ∃ r u, ComesOf S.begun q c r u ∧ w.moment < r.read.moment := by
  intro h
  obtain ⟨S, c, u, update, hS, hrest, hc, hended, hbegun⟩ := exists_get_over_evict
    (w := noteWorld) rfl accepts_note serves_note
  obtain ⟨r, u', hcomes, hlt⟩ :=
    h _ _ S hS hrest _ _ _ _ _ c hended accepts_note (Path.same_refl _) hc
  obtain ⟨b, hb, hputs⟩ := hcomes.puts
  rw [hbegun] at hb
  rcases List.mem_cons.1 hb with rfl | hb
  · rw [read_of_puts_get hputs] at hlt
    exact absurd hlt (show ¬ 5 < 3 by decide)
  · cases List.mem_singleton.1 hb
    cases hputs

/-! ### The root -/

theorem seen_of_setRoot {root : Path} {later : List (Observation (World Workspace))} {a : Unit}
    (h : (visit (setRoot root)).Leads (.saw w :: later) (.done a)) :
    ∃ w', later = [.saw w'] := by
  obtain ⟨h, -⟩ | ⟨w, later, h, hreroot⟩ := h.of_step
  · cases h
  cases h
  obtain ⟨-, hdone⟩ | ⟨w', later, rfl, hclear⟩ := hreroot.of_step
  · cases hdone
  · obtain ⟨rfl, -⟩ := hclear.of_done
    exact ⟨w', rfl⟩

section Root

variable [Retrieval] {S : Session accesses.inWorld} {begun : List (Progress accesses.inWorld)}
  {b : Progress accesses.inWorld}

/-- The root was set after the path had been accepted, and before the reading was put into the
store. -/
def RootSetMeanwhile (begun : List (Progress accesses.inWorld)) (r : Reading)
    (u : World Workspace) : Prop :=
  ∃ root w w', ⟨Access.setRoot root, [.saw w, .saw w']⟩ ∈ begun ∧
    r.accepted.moment ≤ w.moment ∧ w'.moment < u.moment

/-- Where an operation has found another root than there is now, the root has been set since then. -/
theorem exists_setRoot (hS : Arises settings host S)
    (hset : ∀ root seen left rest, .inside (.setRoot root) seen left rest ∉ S.threads)
    {x : Workspace} (hacted : Acted S.begun w x)
    (hroot : w.state.store.root ≠ S.state.state.store.root) :
    ∃ root v v', ⟨Access.setRoot root, [.saw v, .saw v']⟩ ∈ S.begun ∧ w.moment ≤ v.moment := by
  have hexplained := explained_root hS S.state.state.store.root
  have hpast := hexplained.past w x hacted
  obtain ⟨-, hheld⟩ | ⟨v, y, hmakes⟩ := hexplained.now rfl
  · exact absurd ((hheld w x hacted hpast).1 (Nat.zero_le _)) hroot
  · obtain ⟨b, hb, hacts⟩ := hmakes.acts
    obtain ⟨later, rfl⟩ := setRoot_of_acts hacts fun heq => hmakes.before (heq ▸ hmakes.after)
    obtain ⟨left, rest, hinside⟩ | ⟨a, hended⟩ := Session.inside_or_ended hb
    · exact absurd hinside (hset _ _ _ _)
    · obtain ⟨v', rfl⟩ := seen_of_setRoot ((Session.Reachable.faithful hS).ended _ hended)
      refine ⟨_, v, v', hb, ?_⟩
      by_contra hlt
      exact hroot ((hmakes.held w x hacted hpast).1 (by omega))

/-- A path that is below the root or, though it does not climb, has an entry that comes of a reading
during which the root was set. -/
def BelowRootOrSetMeanwhile (S : Session accesses.inWorld) (q : Path) : Prop :=
  S.state.state.store.isSchemaFile q = true ∨
    q.climbs = false ∧ ∃ c r u, S.state.state.store.cache.get? q = some c ∧
      ComesOf S.begun q c r u ∧ RootSetMeanwhile S.begun r u

/-- While nobody is about to set the root, all entries are below the root, but for those of readings
during which the root was set; and no others are got. -/
theorem entries_below_root (hS : Arises settings host S)
    (hset : ∀ root seen left rest, .inside (.setRoot root) seen left rest ∉ S.threads)
    (hq : (∃ c, S.state.state.store.cache.get? q = some c) ∨
      ∃ c s', Executes (Store.get q) S.state.state.store (some c) s') :
    BelowRootOrSetMeanwhile S q := by
  have hknown : ∀ c, S.state.state.store.cache.get? q = some c → BelowRootOrSetMeanwhile S q := by
    intro c hc
    obtain ⟨r, u, hcomes, -, hheld⟩ := comesOf_of_origin ((explained_has hS q (some c)).now hc)
    obtain ⟨b, hb, hputs⟩ := hcomes.puts
    have haccept := r.isSchemaFile
    -- accepted under this root, the path is below it; else the root was set after that
    by_cases hroot : r.accepted.state.store.root = S.state.state.store.root
    · rw [isSchemaFile_congr hcomes.same hroot] at haccept
      exact .inl haccept
    · rw [isSchemaFile_congr hcomes.same rfl] at haccept
      have hclimbs : q.climbs = false := by
        simpa [isSchemaFile] using (Bool.and_eq_true_iff.1 haccept).1
      obtain ⟨x, hacted⟩ := acted_of_mem hS hb hputs.mem_seen.1
      obtain ⟨root, v, v', hset', hle⟩ := exists_setRoot hS hset hacted hroot
      exact .inr ⟨hclimbs, c, r, u, hc, hcomes, root, v, v', hset', hle,
        lt_of_drops hS hset' .setRoot hheld⟩
  obtain ⟨c, hc⟩ | ⟨c, s', hget⟩ := hq
  · exact hknown c hc
  · obtain ⟨c', hc'⟩ | haccept := known_or_accepted_of_get hget
    · exact hknown c' hc'
    · exact .inl haccept

/-- The root may be set while a schema is got, and the reading put into the store after that. -/
theorem exists_get_over_setRoot (root : Path) (hunknown : w.state.store.cache.get? p = none)
    (haccept : w.state.store.isSchemaFile p = true) (hserves : Serves w.host p v) :
    ∃ (S : Session accesses.inWorld) (c : Cached), S.Reachable w ∧ AtRest S ∧
      S.state.state.store.root = root ∧ S.state.state.store.cache.get? p = some c := by
  have hset := Session.Leads.call_of_advances (S := ⟨w.later 4, [], []⟩) .refl
    (client_access (.setRoot root)) (advances_setRoot (w := w.later 4) root)
  have hlate := Session.Leads.late (client_access (.get p))
    (advances_get hunknown haccept hserves) hset rfl
  refine ⟨_, ⟨w.state.store.nextHandle, v⟩, hlate, ?_, rfl, ?_⟩
  · simp [AtRest]
  · exact get?_putNew_of_unknown v rfl

theorem setRoot_of_atRest (h : AtRest S) :
    ∀ root seen left rest, .inside (.setRoot root) seen left rest ∉ S.threads := by
  intro root seen left rest ht
  cases h _ ht

end Root

theorem refuses_note : (ofRoot ⟨"templates"⟩).isSchemaFile ⟨"schemas/note.json"⟩ = false := by
  decide

theorem note_stays_after_setRoot : ∃ S, Arises {} noteHost S ∧
    (∀ root seen left rest, .inside (.setRoot root) seen left rest ∉ S.threads) ∧
    (∃ c, S.state.state.store.cache.get? ⟨"schemas/note.json"⟩ = some c) ∧
    S.state.state.store.isSchemaFile ⟨"schemas/note.json"⟩ = false ∧
    BelowRootOrSetMeanwhile S ⟨"schemas/note.json"⟩ := by
  obtain ⟨S, c, hS, hrest, hroot, hc⟩ := exists_get_over_setRoot (w := noteWorld) ⟨"templates"⟩ rfl
    accepts_note serves_note
  have hrefuse : S.state.state.store.isSchemaFile ⟨"schemas/note.json"⟩ = false :=
    (isSchemaFile_congr (Path.same_refl _) hroot).trans refuses_note
  exact ⟨S, hS, setRoot_of_atRest hrest, ⟨c, hc⟩, hrefuse,
    entries_below_root hS (setRoot_of_atRest hrest) (.inl ⟨c, hc⟩)⟩

/-- When everybody has come to an end, there may be an entry that is not below the root. -/
theorem get_outlives_root : ¬ ∀ (settings : Settings) (host : Host) (S : Session accesses.inWorld),
    Arises settings host S → AtRest S →
      ∀ q c, S.state.state.store.cache.get? q = some c →
        S.state.state.store.isSchemaFile q = true := by
  intro h
  obtain ⟨S, c, hS, hrest, hroot, hc⟩ := exists_get_over_setRoot (w := noteWorld) ⟨"templates"⟩ rfl
    accepts_note serves_note
  have haccept := h _ _ S hS hrest _ c hc
  rw [(isSchemaFile_congr (Path.same_refl _) hroot).trans refuses_note] at haccept
  cases haccept

/-! ### Updates -/

section Updates

variable [Retrieval] {S : Session accesses.inWorld} {begun : List (Progress accesses.inWorld)}
  {b : Progress accesses.inWorld}

/-- The reading `r` was made later than `r'`, and was put into the store earlier. -/
def Overtakes (r : Reading) (u : World Workspace) (r' : Reading) (u' : World Workspace) : Prop :=
  r'.read.moment < r.read.moment ∧ u.moment < u'.moment

/-- A reading that replaces an entry is one of an event, and what it replaces was read earlier or
has overtaken it. -/
theorem replaced_earlier_or_overtaking (hS : Arises settings host S) (hb : b ∈ S.begun)
    (hputs : Puts b r u) (hc : u.state.store.cache.get? r.path = some c) :
    b.operation = Access.reload r.path ∧ ∃ r' u', ComesOf S.begun r.path c r' u' ∧
      (r'.read.moment ≤ r.read.moment ∨ Overtakes r' u' r u) := by
  obtain ⟨x, hacted⟩ := acted_of_mem hS hb hputs.mem_seen.2.2.2
  have horigin := (explained_has hS r.path (some c)).found u x hacted hc
  obtain ⟨r', u', hcomes, hlt, -⟩ := comesOf_of_origin horigin
  refine ⟨?_, r', u', hcomes, ?_⟩
  · cases hputs with
    | get hunknown hnew =>
      rw [hnew] at hc
      cases hc
    | reload => rfl
  · rcases Nat.lt_or_ge r.read.moment r'.read.moment with hread | hread
    · exact .inr ⟨hread, hlt⟩
    · exact .inl hread

/-- From the moment `n` on, operations have found the value `v` in the file of the path. -/
def Settled (begun : List (Progress accesses.inWorld)) (p : Path) (v : Value) (n : Nat) : Prop :=
  ∀ b ∈ begun, ∀ w, .saw w ∈ b.seen → n ≤ w.moment → ∀ q, q.same p = true → Serves w.host q v

theorem value_of_settled (h : Settled begun p v n) (hb : b ∈ begun) (hputs : Puts b r u)
    (hr : r.path.same p = true) (hread : n ≤ r.read.moment) : r.value = v := by
  obtain ⟨-, text, htext, hvalue⟩ := h b hb r.read hputs.mem_seen.2.2.1 hread r.path hr
  obtain ⟨text', htext', hvalue'⟩ := r.readText
  cases htext.symm.trans htext'
  exact Except.ok.inj (hvalue'.symm.trans hvalue)

/-- An operation that has read a settled file again has put it into the store. -/
theorem puts_of_settled (hS : Arises settings host S) (hsettled : Settled S.begun p v n)
    {later : List (Observation (World Workspace))} {update : StoreUpdate}
    (hended : ⟨Access.reload p, .saw w :: later, update⟩ ∈ S.ended) (hn : n ≤ w.moment)
    (haccept : w.state.store.isSchemaFile p = true) :
    ∃ (r : Reading) (u : World Workspace), r.path = p ∧ r.accepted = w ∧
      .saw w :: later = r.seen ++ [.saw u] := by
  have hleads : (visit (reload p)).Leads (.saw w :: later) (.done update) :=
    (Session.Reachable.faithful hS).ended _ hended
  have hbegun := Session.mem_begun_of_ended hended
  obtain ⟨rest, hleft⟩ | ⟨update, hleft, ⟨w', later', hseen, hrefuse⟩ | ⟨w', hw', hserves⟩⟩ |
    ⟨r, hr, ⟨-, rest, hleft⟩ | ⟨u, hseen, -⟩⟩ := leads_reload hleads
  · cases hleft
  · cases hseen
    rw [haccept] at hrefuse
    cases hrefuse
  · -- the file was settled when the operation began, and it has failed to read it
    have hle : w.moment ≤ w'.moment := by
      rcases List.mem_cons.1 hw' with heq | hlater
      · cases heq
        exact Nat.le_refl _
      · exact Nat.le_of_lt ((dated_of_reachable hS).first_lt hbegun rfl hlater)
    exact absurd (hsettled _ hbegun w' hw' (Nat.le_trans hn hle) p (Path.same_refl _)) (hserves v)
  · cases hleft
  · refine ⟨r, u, hr, ?_, hseen⟩
    cases hseen
    rfl

/-- What the store has for a path after an event about it: the value of the file, unless the entry
has been dropped since then, or a reading from before the moment `n` was under way. -/
def HoldsLast (S : Session accesses.inWorld) (p : Path) (v : Value) (n : Nat)
    (w : World Workspace) : Prop :=
  (∃ c, S.state.state.store.cache.get? p = some c ∧ c.schema = v) ∨
    (S.state.state.store.cache.get? p = none ∧
      ∃ b ∈ S.begun, ∃ w', Drops b p w' ∧ w.moment < w'.moment) ∨
    ∃ c r u, S.state.state.store.cache.get? p = some c ∧ ComesOf S.begun p c r u ∧
      r.read.moment < n ∧ UnderWay r u w.moment

theorem holdsLast_of_settled (hS : Arises settings host S) (hsettled : Settled S.begun p v n)
    {later : List (Observation (World Workspace))} {update : StoreUpdate}
    (hended : ⟨Access.reload p, .saw w :: later, update⟩ ∈ S.ended) (hn : n ≤ w.moment)
    (haccept : w.state.store.isSchemaFile p = true) : HoldsLast S p v n w := by
  obtain ⟨r, u, rfl, rfl, hseen⟩ := puts_of_settled hS hsettled hended hn haccept
  have hbegun := Session.mem_begun_of_ended hended
  simp only [Call.progress, hseen] at hbegun
  have hdated := dated_of_reachable hS
  have hread : r.accepted.moment < r.read.moment := hdated.first_lt hbegun rfl (by simp)
  have hput : r.accepted.moment < u.moment := hdated.first_lt hbegun rfl (by simp)
  have hvalue : r.value = v :=
    value_of_settled hsettled hbegun .reload (Path.same_refl _) (by omega)
  obtain ⟨x, hacts, hentry⟩ := acts_of_reload r u []
  have hacted : Acted S.begun u x := ⟨_, hbegun, hacts⟩
  -- the entry is the one that was put then, or a later one, or has been dropped
  cases hcache : S.state.state.store.cache.get? r.path with
  | none =>
    obtain ⟨b, hb, w', hdrops, hlt⟩ := exists_drops hS hacted hentry hcache
    exact .inr (.inl ⟨hcache, b, hb, w', hdrops, by omega⟩)
  | some c =>
    obtain ⟨r', u', hcomes, hsince⟩ := comesOf_since hS hacted hentry hcache
    obtain ⟨b, hb, hputs⟩ := hcomes.puts
    rcases Nat.lt_or_ge r'.read.moment n with hold | hnew
    · obtain rfl | hlt := hsince
      · exact .inl ⟨_, hcache, hvalue⟩
      · exact .inr (.inr ⟨c, r', u', hcache, hcomes, hold, by omega, by omega⟩)
    · refine .inl ⟨c, hcache, ?_⟩
      rw [hcomes.entry]
      exact value_of_settled hsettled hb hputs hcomes.same hnew

/-- How a store keeps updates.  A reading that replaces an entry is one of an event, and replaces none
that was made later, unless that has overtaken it.  When the last change of a file is followed by
its event, the store holds what the file holds, as far as `HoldsLast` says. -/
def KeepsUpdates (S : Session accesses.inWorld) : Prop :=
  (∀ b ∈ S.begun, ∀ r u c, Puts b r u → u.state.store.cache.get? r.path = some c →
    b.operation = Access.reload r.path ∧ ∃ r' u', ComesOf S.begun r.path c r' u' ∧
      (r'.read.moment ≤ r.read.moment ∨ Overtakes r' u' r u)) ∧
  ∀ p v n w later update, Settled S.begun p v n →
    ⟨Access.reload p, .saw w :: later, update⟩ ∈ S.ended → n ≤ w.moment →
    w.state.store.isSchemaFile p = true → HoldsLast S p v n w

/-- No update is lost, but to an operation that is under way with an older reading. -/
theorem updates_not_lost (hS : Arises settings host S) : KeepsUpdates S := by
  refine ⟨fun b hb r u c hputs hc => ?_, fun p v n w later update hsettled hended hn haccept => ?_⟩
  · exact replaced_earlier_or_overtaking hS hb hputs hc
  · exact holdsLast_of_settled hS hsettled hended hn haccept

/-- A file may be changed and read again while its former content is read again, which is put into
the store in the end. -/
theorem exists_reload_over_reload (haccept : w.state.store.isSchemaFile p = true)
    (hserves : Serves w.host p v) {host' : Host} {v' : Value}
    (hserves' : ∀ q, q.same p = true → Serves host' q v') :
    ∃ (S : Session accesses.inWorld) (c : Cached) (w' : World Workspace)
      (later : List (Observation (World Workspace))), S.Reachable w ∧ AtRest S ∧
      (S.state.state.store.cache.get? p = some c ∧ c.schema = v) ∧
      (∃ b r u c', b ∈ S.begun ∧ Puts b r u ∧ u.state.store.cache.get? r.path = some c') ∧
      Settled S.begun p v' w'.moment ∧
      ⟨Access.reload p, .saw w' :: later, .reloaded⟩ ∈ S.ended ∧
      w'.state.store.isSchemaFile p = true := by
  let w' : World Workspace := (w.later 3).rehost fun _ => host'
  have hchanged := Session.Leads.rehost (R := accesses) (S := ⟨w.later 3, [], []⟩) .refl
    fun _ => host'
  have hself := hserves' p (Path.same_refl _)
  have hreload := hchanged.call_of_advances (client_access (.reload p))
    (advances_reload (w := w') haccept hself).saw
  have hlate := Session.Leads.late (client_access (.reload p)) (advances_reload haccept hserves)
    hreload rfl
  let u : World Workspace := actOn (put p v') (w'.later 3)
  refine ⟨_, ⟨w.state.store.nextHandle + 1, v⟩, w', _, hlate, ?_, ⟨?_, rfl⟩, ?_, ?_,
    List.mem_cons_of_mem _ List.mem_cons_self, haccept⟩
  · simp [AtRest]
  · exact PathMap.get?_insert_self _ _ _
  · exact ⟨_, Reading.ofServes haccept hserves, u, _, List.mem_cons_self,
      @Puts.reload _ (Reading.ofServes haccept hserves) u [],
      PathMap.get?_insert_self _ _ _⟩
  · -- what was observed before the change was observed too early
    have hearly : ∀ n, n < 4 → ¬ w'.moment ≤ (w.later n).moment := by
      intro n hn hle
      have : w.moment + 4 ≤ w.moment + n := hle
      omega
    intro b hb x hx hle q hq
    have hseen : b.seen = [.saw w, .saw (w.later 1), .saw (w.later 2), .saw u] ∨
        b.seen = [.saw w', .saw (w'.later 1), .saw (w'.later 2), .saw (w'.later 3)] := by
      rcases List.mem_cons.1 hb with rfl | hb
      · exact .inl rfl
      · cases List.mem_singleton.1 hb
        exact .inr rfl
    have hhost : x.host = host' := by
      rcases hseen with hseen | hseen
      · rw [hseen] at hx
        simp only [List.mem_cons, Observation.saw.injEq, List.not_mem_nil, or_false] at hx
        obtain rfl | rfl | rfl | rfl := hx
        · exact absurd hle (hearly 0 (by decide))
        · exact absurd hle (hearly 1 (by decide))
        · exact absurd hle (hearly 2 (by decide))
        · rfl
      · rw [hseen] at hx
        simp only [List.mem_cons, Observation.saw.injEq, List.not_mem_nil, or_false] at hx
        obtain rfl | rfl | rfl | rfl := hx <;> rfl
    rw [hhost]
    exact hserves' q hq

end Updates

/-- The host after the schema file was changed. -/
def changedHost : Host :=
  hostOf [(⟨"schemas/note.json"⟩, "true")]

theorem serves_changed_note (q : Path) (hq : q.same ⟨"schemas/note.json"⟩ = true) :
    Serves changedHost q (.bool true) := by
  refine serves_hostOf ?_ (by cbv : Json.read "true" = .ok (.bool true))
  rw [PathMap.get?_congr _ (Path.same_iff.1 hq)]
  rfl

/-- The schema is replaced by what was read of it before it was changed. -/
theorem changed_note_reverts : ∃ S, Arises {} noteHost S ∧
    (∃ b r u c, b ∈ S.begun ∧ Puts b r u ∧ u.state.store.cache.get? r.path = some c) ∧
    (∃ v n w later update, Settled S.begun ⟨"schemas/note.json"⟩ v n ∧
      ⟨Access.reload ⟨"schemas/note.json"⟩, .saw w :: later, update⟩ ∈ S.ended ∧ n ≤ w.moment ∧
      w.state.store.isSchemaFile ⟨"schemas/note.json"⟩ = true) ∧ KeepsUpdates S := by
  obtain ⟨S, -, w, later, hS, -, -, hreplaced, hsettled, hended, haccept⟩ :=
    exists_reload_over_reload accepts_note serves_note serves_changed_note
  exact ⟨S, hS, hreplaced, ⟨_, _, w, later, _, hsettled, hended, Nat.le_refl _, haccept⟩,
    updates_not_lost hS⟩

/-- What a store without lost updates would be like: a reading replaces none that was made later, and
when the last change of a file is followed by its event, the store holds what was read last. -/
def LosesNoUpdate [Retrieval] (S : Session accesses.inWorld) : Prop :=
  (∀ b ∈ S.begun, ∀ r u c, Puts b r u → u.state.store.cache.get? r.path = some c →
    ∃ r' u', ComesOf S.begun r.path c r' u' ∧ r'.read.moment ≤ r.read.moment) ∧
  ∀ p v n w later update, Settled S.begun p v n →
    ⟨Access.reload p, .saw w :: later, update⟩ ∈ S.ended → n ≤ w.moment →
    w.state.store.isSchemaFile p = true →
    ∃ c, S.state.state.store.cache.get? p = some c ∧ c.schema = v

/-- When everybody has come to an end, the last change of a file may have been lost. -/
theorem reload_outlives_update : ¬ ∀ (settings : Settings) (host : Host)
    (S : Session accesses.inWorld), Arises settings host S → AtRest S → LosesNoUpdate S := by
  intro h
  obtain ⟨S, c, w, later, hS, hrest, ⟨hc, hvalue⟩, -, hsettled, hended, haccept⟩ :=
    exists_reload_over_reload accepts_note serves_note serves_changed_note
  obtain ⟨-, hlast⟩ := h _ _ S hS hrest
  obtain ⟨c', hc', hvalue'⟩ := hlast _ _ _ w later _ hsettled hended (Nat.le_refl _) haccept
  cases hc.symm.trans hc'
  cases hvalue.symm.trans hvalue'

end DocSchema.Store
