/-
  DocSchema/Proofs/Schema/Published.lean
  ======================================
  **What is published at the URI of draft 7.**

  A document is gathered at the URI that it gives itself, whatever the base (`eq_absolute`), and
  the parts of the published documents give themselves none (`isPart`).  The other documents have
  URIs of their own, so that nothing but the metaschema of draft 7 comes to stand at its URI
  (`settled_published`).  They are gathered to the end (`gather_published`).
-/
import DocSchema.Proofs.Schema.Retrieval
import DocSchema.Schema.Metaschema

namespace DocSchema.Metaschema

open DocSchema.Json DocSchema.Schema

/-- The URI of draft 7. -/
def uri7 : Uri :=
  ⟨some "http".toList, some "json-schema.org".toList, "/draft-07/schema".toList, none, none⟩

/-! ### URIs with a scheme -/

/-- The URI that a text with a scheme stands for. -/
def absolute (cs : List Char) : Uri :=
  let uri := Uri.ofChars cs
  ({ uri with path := Uri.rootedPath uri.path } : Uri).normalize

/-- A base has no part in what a text with a scheme stands for. -/
theorem eq_absolute {base inner : Uri} {own : String} (hhead : own.toList.head? ≠ some '#')
    (hscheme : (Uri.ofChars own.toList).scheme.isSome = true)
    (h : resolveAt base own = .ok inner) : inner = absolute own.toList := by
  have hresolve : base.resolve? (Uri.ofChars own.toList) = some { Uri.ofChars own.toList with
      path := Uri.rootedPath (Uri.ofChars own.toList).path } := if_pos hscheme
  have hown : (own.toList.head? == some '#') = false := by simpa using hhead
  unfold resolveAt at h
  dsimp only at h
  rw [hown, hresolve] at h
  split at h
  · rename_i hsuffix
    cases hsuffix
  · split at h
    · cases h
    · rename_i heq
      cases heq
    · rename_i heq
      cases heq
      exact (Except.ok.inj h).symm

theorem toList_trimFragment (raw : String) :
    (Draft.trimFragment raw).toList = (raw.toList.reverse.dropWhile (· == '#')).reverse :=
  String.toList_ofList

/-- Number signs are taken away at the end only. -/
theorem toList_trimFragment_append {raw : String} {a b : List Char} {c : Char}
    (h : raw.toList = a ++ c :: b) (hc : c ≠ '#') :
    ∃ b', (Draft.trimFragment raw).toList = a ++ c :: b' := by
  have hcons : (c :: a.reverse).dropWhile (· == '#') = c :: a.reverse := by simp [hc]
  have hreverse : (a ++ c :: b).reverse = b.reverse ++ c :: a.reverse := by simp
  rw [toList_trimFragment, h, hreverse, List.dropWhile_append, hcons]
  split
  · exact ⟨[], by simp⟩
  · exact ⟨(b.reverse.dropWhile (· == '#')).reverse, by simp⟩

theorem scheme_absolute (cs : List Char) :
    (absolute ('h' :: 't' :: 't' :: 'p' :: 's' :: ':' :: cs)).scheme =
      some ['h', 't', 't', 'p', 's'] := by
  rfl

/-! ### Documents of their own -/

theorem toList_place (d : Draft) :
    ∃ cs, (Late.place d).toList = ['h', 't', 't', 'p', 's'] ++ ':' :: cs := by
  unfold Late.place
  split
  · exact ⟨_, String.toList_ofList⟩
  · exact ⟨_, String.toList_ofList⟩

theorem map_get?_id_documents (d : Draft) : (Late.documents d).map (Value.get? · "$id") =
    ("schema" :: (Late.vocabularies d).map fun m => "meta/" ++ m.1).map
      fun name => some (.string (Late.place d ++ name)) := by
  cases d <;> rfl

/-- The documents of the later drafts are all at one place. -/
theorem get?_id_of_mem {d : Draft} {v : Value} (h : v ∈ Late.documents d) :
    ∃ name, v.get? "$id" = some (.string (Late.place d ++ name)) := by
  have hmem := List.mem_map_of_mem (f := (Value.get? · "$id")) h
  rw [map_get?_id_documents] at hmem
  obtain ⟨name, -, hname⟩ := List.mem_map.1 hmem
  exact ⟨name, hname.symm⟩

theorem ownUri?_late {d : Draft} (hd : d = .draft2019 ∨ d = .draft2020) {v : Value} {raw : String}
    (h : v.get? "$id" = some (.string raw)) : d.ownUri? v = some (Draft.trimFragment raw) := by
  cases v with
  | object members =>
    change Object.get? members "$id" = _ at h
    unfold Draft.ownUri?
    rcases hd with rfl | rfl
    · change (((Object.get? members "$id").bind Value.asString?).bind fun raw => _) = _
      rw [h]
      rfl
    · change (((Object.get? members "$id").bind Value.asString?).bind fun raw => _) = _
      rw [h]
      rfl
  | _ => cases h

theorem absolute_early : ∀ d ∈ [Draft.draft4, .draft6], (d.ownUri? d.document).any (fun own =>
    own.toList.head? != some '#' && (Uri.ofChars own.toList).scheme.isSome &&
      absolute own.toList != uri7) = true := by
  decide

theorem baseInside_eq {s : Resource} {base inner : Uri} {own : String}
    (hown : s.draft.ownUri? s.value = some own) (h : s.baseInside base = .ok inner) :
    resolveAt base own = .ok inner := by
  unfold Resource.baseInside at h
  rw [hown] at h
  exact h

theorem baseInside_early {d : Draft} (hd : d ∈ [Draft.draft4, .draft6]) {base inner : Uri}
    (h : Resource.baseInside ⟨d, d.document⟩ base = .ok inner) : inner ≠ uri7 := by
  obtain ⟨own, hown, hcheck⟩ := (Option.any_eq_true _ _).1 (absolute_early d hd)
  rw [Bool.and_eq_true, Bool.and_eq_true, bne_iff_ne, bne_iff_ne] at hcheck
  obtain ⟨⟨hhead, hscheme⟩, hne⟩ := hcheck
  rw [eq_absolute hhead hscheme (baseInside_eq hown h)]
  exact hne

theorem baseInside_late {d : Draft} (hd : d = .draft2019 ∨ d = .draft2020) {v : Value}
    (hv : v ∈ Late.documents d) {base inner : Uri}
    (h : Resource.baseInside ⟨d, v⟩ base = .ok inner) : inner ≠ uri7 := by
  obtain ⟨name, hget⟩ := get?_id_of_mem hv
  obtain ⟨cs, hcs⟩ := toList_place d
  have hraw : (Late.place d ++ name).toList =
      ['h', 't', 't', 'p', 's'] ++ ':' :: (cs ++ name.toList) := by
    rw [String.toList_append, hcs]
    rfl
  obtain ⟨cs', hown⟩ := toList_trimFragment_append hraw (by decide)
  have hinner := eq_absolute (by simp [hown]) (by rw [hown]; rfl)
    (baseInside_eq (ownUri?_late hd hget) h)
  rintro rfl
  have hscheme : uri7.scheme = some ['h', 't', 't', 'p', 's'] := by
    rw [hinner, hown]
    exact scheme_absolute cs'
  exact absurd hscheme (by decide)

/-- Of the published documents, only the metaschema of draft 7 has the URI of draft 7. -/
theorem draft_of_document {s : Resource} (hs : s.value ∈ s.draft.documents) {base : Uri}
    (h : s.baseInside base = .ok uri7) : s = ⟨.draft7, Draft.draft7.document⟩ := by
  obtain ⟨d, v⟩ := s
  cases d with
  | draft7 => exact congrArg (Resource.mk .draft7) (List.mem_singleton.1 hs)
  | draft4 =>
    obtain rfl : v = Draft.draft4.document := List.mem_singleton.1 hs
    exact absurd rfl (baseInside_early List.mem_cons_self h)
  | draft6 =>
    obtain rfl : v = Draft.draft6.document := List.mem_singleton.1 hs
    exact absurd rfl (baseInside_early (List.mem_cons_of_mem _ List.mem_cons_self) h)
  | draft2019 => exact absurd rfl (baseInside_late (.inl rfl) hs h)
  | draft2020 => exact absurd rfl (baseInside_late (.inr rfl) hs h)

/-! ### Parts -/

/-- A schema that gives neither itself nor the schemas inside it a URI or a draft, to a depth. -/
def isPart (d : Draft) : Nat → Value → Bool
  | 0, _ => false
  | n + 1, v => (v.get? "$schema").isNone && (d.ownUri? v).isNone &&
      (d.subschemas v).all (isPart d n)

theorem isPart_documents : ∀ d ∈ Draft.all, ∀ v ∈ d.documents,
    (d.subschemas v).all (isPart d 8) = true := by
  decide

theorem detect_of_isPart {d : Draft} {n : Nat} {v : Value} (h : isPart d n v = true) :
    d.detect v = .ok d ∧ d.ownUri? v = none ∧ ∃ n', (d.subschemas v).all (isPart d n') = true := by
  cases n with
  | zero => cases h
  | succ n =>
    rw [isPart, Bool.and_eq_true, Bool.and_eq_true, Option.isNone_iff_eq_none,
      Option.isNone_iff_eq_none] at h
    obtain ⟨⟨hdraft, huri⟩, hinside⟩ := h
    refine ⟨?_, huri, n, hinside⟩
    unfold Draft.detect
    rw [hdraft]
    rfl

theorem inside_of_isPart {s : Resource} {n : Nat}
    (h : (s.draft.subschemas s.value).all (isPart s.draft n) = true) :
    s.inside = .ok ((s.draft.subschemas s.value).map (⟨s.draft, ·⟩)) := by
  refine mapM_eq_ok_map fun x hx => ?_
  obtain ⟨hdetect, -, -⟩ := detect_of_isPart (List.all_eq_true.1 h x hx)
  rw [hdetect]

/-! ### Gathering -/

/-- What a registry has at the URI of draft 7 is the metaschema, without dynamic names. -/
structure Settled (r : Registry) : Prop where
  resource : ∀ e ∈ r.resources, e.1 = uri7 → e.2 = ⟨.draft7, Draft.draft7.document⟩
  anchor : ∀ a ∈ r.anchors, a.base = uri7 → a.name.isDynamic = false

/-- A published document, or a part of one; a part at the URI of draft 7 follows that draft. -/
def IsQueued (e : Uri × Resource) : Prop :=
  e.2.value ∈ e.2.draft.documents ∨
    (∃ n, isPart e.2.draft n e.2.value = true) ∧ (e.1 = uri7 → e.2.draft = .draft7)

theorem isDynamic_ownNames {v : Value} {name : Draft.Name} (h : name ∈ Draft.draft7.ownNames v) :
    name.isDynamic = false := by
  unfold Draft.ownNames at h
  dsimp only at h
  split at h
  · rw [List.mem_singleton.1 h]
  · cases h

/-- What is gathered from a schema of the queue, and the parts that it adds to the queue. -/
theorem IsQueued.step {base inner : Uri} {s : Resource} (h : IsQueued (base, s))
    (hinner : s.baseInside base = .ok inner) :
    (inner = uri7 → s.draft = .draft7 ∧
      ((s.draft.ownUri? s.value).isSome = true → s = ⟨.draft7, Draft.draft7.document⟩)) ∧
    ∃ n, (s.draft.subschemas s.value).all (isPart s.draft n) = true := by
  rcases h with hdocument | ⟨⟨n, hpart⟩, hdraft⟩
  · refine ⟨?_, 8, isPart_documents _ (by cases s.draft <;> decide) _ hdocument⟩
    rintro rfl
    have heq := draft_of_document hdocument hinner
    exact ⟨congrArg Resource.draft heq, fun _ => heq⟩
  · obtain ⟨-, huri, hinside⟩ := detect_of_isPart hpart
    refine ⟨?_, hinside⟩
    rintro rfl
    unfold Resource.baseInside at hinner
    rw [huri] at hinner
    rw [huri]
    exact ⟨hdraft (Except.ok.inj hinner), fun hsome => by cases hsome⟩

/-- Gathering from published documents settles what is at the URI of draft 7. -/
theorem settled_gather {n : Nat} {queue : List (Uri × Resource)} {g g' : Gathered}
    (hqueue : ∀ e ∈ queue, IsQueued e) (hg : Settled g.registry)
    (h : gather n queue g = .ok g') : Settled g'.registry := by
  induction n generalizing queue g with
  | zero =>
    cases h
    exact hg
  | succ n ih =>
    cases queue with
    | nil =>
      cases h
      exact hg
    | cons e queue =>
      obtain ⟨base, s⟩ := e
      obtain ⟨he, hqueue⟩ := List.forall_mem_cons.1 hqueue
      rw [gather] at h
      obtain ⟨inner, hinner, h⟩ := except_bind_eq_ok h
      obtain ⟨own, -, h⟩ := except_bind_eq_ok h
      obtain ⟨parts, hparts, h⟩ := except_bind_eq_ok h
      obtain ⟨needed, -, h⟩ := except_bind_eq_ok h
      obtain ⟨hat, depth, hinside⟩ := he.step hinner
      cases (inside_of_isPart hinside).symm.trans hparts
      refine ih ?_ ⟨?_, ?_⟩ h
      · intro e he
        rcases List.mem_append.1 he with he | he
        · exact hqueue e he
        · obtain ⟨part, hpart, rfl⟩ := List.mem_map.1 he
          obtain ⟨x, hx, rfl⟩ := List.mem_map.1 hpart
          exact .inr ⟨⟨depth, List.all_eq_true.1 hinside x hx⟩, fun heq => (hat heq).1⟩
      · intro e he heq
        rcases List.mem_append.1 he with he | he
        · split at he
          · rename_i hown
            cases List.mem_singleton.1 he
            exact (hat heq).2 hown
          · cases he
        · exact hg.resource e he heq
      · intro a ha heq
        rcases List.mem_append.1 ha with ha | ha
        · obtain ⟨name, hname, rfl⟩ := List.mem_map.1 (List.mem_reverse.1 ha)
          rw [(hat heq).1] at hname
          exact isDynamic_ownNames hname
        · exact hg.anchor a ha heq

/-- The limit is not met when the published documents are gathered. -/
theorem gather_published {n : Nat} (g : Gathered) (h : 10000 ≤ n) :
    gather n (Draft.all.flatMap fun d => d.documents.map d.publication) g =
      gather 10000 (Draft.all.flatMap fun d => d.documents.map d.publication) g := by
  have hweight : weight (Draft.all.flatMap fun d => d.documents.map d.publication) ≤ 10000 := by
    decide +kernel
  exact gather_eq_of_weight_le (Nat.le_trans hweight h) hweight

theorem settled_published : Settled published := by
  have hempty : Settled {} := ⟨List.forall_mem_nil _, List.forall_mem_nil _⟩
  unfold published
  extract_lets queue
  have hqueue : ∀ e ∈ queue, IsQueued e := fun e he => by
    obtain ⟨d, -, he⟩ := List.mem_flatMap.1 he
    obtain ⟨v, hv, rfl⟩ := List.mem_map.1 he
    exact .inl hv
  clear_value queue
  cases hg : gather 10000 queue {} with
  | error e => exact hempty
  | ok g => exact settled_gather hqueue hempty hg

namespace Settled

variable {r : Registry}

theorem eq_of_find? (h : Settled r) {s : Resource} (hs : r.find? uri7 = some s) :
    s = ⟨.draft7, Draft.draft7.document⟩ := by
  obtain ⟨e, he, rfl⟩ := Option.map_eq_some_iff.1 hs
  have hat := List.find?_some he
  exact h.resource e (List.mem_of_find?_eq_some he) (beq_iff_eq.1 hat)

theorem dynamicNames (h : Settled r) : r.dynamicNames uri7 = [] := by
  refine List.filter_eq_nil_iff.2 fun name _ hname => ?_
  obtain ⟨a, ha, hdynamic⟩ := (Option.any_eq_true _ _).1 hname
  have hbase := List.find?_some ha
  rw [Bool.and_eq_true, beq_iff_eq, beq_iff_eq] at hbase
  rw [h.anchor a (List.mem_of_find?_eq_some ha) hbase.2] at hdynamic
  cases hdynamic

theorem isRecursive (h : Settled r) : r.isRecursive uri7 = false := by
  unfold Registry.isRecursive
  cases hs : r.find? uri7 with
  | none => rfl
  | some s =>
    rw [h.eq_of_find? hs]
    rfl

end Settled

end DocSchema.Metaschema
