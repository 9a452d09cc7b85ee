/-
  DocSchema/Proofs/Yaml/Flow.lean
  ===============================
  **Flow collections are closed in every YAML document.**

  The tokens of a text lead as deep into flow collections as the scan is at its end
  (`Scan.Balanced`).  A node takes as many closing brackets as opening ones, or more
  (`Build.Closes`); so no document is built from the tokens of a text that ends inside a flow
  collection (`Build.root?_of_open`).
-/
import DocSchema.Yaml.Tree

namespace DocSchema.Yaml

/-! ### How deep tokens lead -/

/-- How deep a token leads; a closing bracket on the outermost level does not count. -/
def flowStep (n : Nat) : Token → Nat
  | .flowSequenceStart | .flowMappingStart => n + 1
  | .flowSequenceEnd | .flowMappingEnd => n - 1
  | _ => n

def flowDepth (n : Nat) (ts : List Token) : Nat :=
  ts.foldl flowStep n

/-- A token that is no bracket of a flow collection. -/
def Token.Flat (t : Token) : Prop :=
  ∀ n, flowStep n t = n

theorem flowStep_mono {n m : Nat} (h : n ≤ m) (t : Token) : flowStep n t ≤ flowStep m t := by
  unfold flowStep
  split <;> omega

theorem flowDepth_mono {n m : Nat} (h : n ≤ m) (ts : List Token) :
    flowDepth n ts ≤ flowDepth m ts := by
  induction ts generalizing n m with
  | nil => exact h
  | cons t ts ih => exact ih (flowStep_mono h t)

theorem flowDepth_append (n : Nat) (ts us : List Token) :
    flowDepth n (ts ++ us) = flowDepth (flowDepth n ts) us :=
  List.foldl_append

theorem flowDepth_flat {ts : List Token} (h : ∀ t ∈ ts, t.Flat) (n : Nat) : flowDepth n ts = n := by
  induction ts with
  | nil => rfl
  | cons t ts ih =>
    rw [flowDepth, List.foldl_cons, h t List.mem_cons_self]
    exact ih fun u hu => h u (List.mem_cons_of_mem t hu)

theorem flowDepth_insertIdx {t : Token} (h : t.Flat) (n i : Nat) (ts : List Token) :
    flowDepth n (ts.insertIdx i t) = flowDepth n ts := by
  induction ts generalizing n i with
  | nil =>
    cases i with
    | zero => exact h n
    | succ i => rfl
  | cons u ts ih =>
    cases i with
    | zero => rw [List.insertIdx_zero, flowDepth, List.foldl_cons, h n, flowDepth]
    | succ i => exact ih (flowStep n u) i

/-! ### Results that may be missing -/

theorem mem_bind {α β : Type} {P : β → Prop} {Q : α → Prop} {x : Option α} {f : α → Option β}
    (hx : ∀ a ∈ x, Q a) (hf : ∀ a, Q a → ∀ b ∈ f a, P b) : ∀ b ∈ x >>= f, P b := by
  intro b hb
  obtain ⟨a, ha, hb⟩ := Option.bind_eq_some_iff.1 hb
  exact hf a (hx a ha) b hb

theorem mem_map {α β : Type} {P : β → Prop} {Q : α → Prop} {x : Option α} {f : α → β}
    (hx : ∀ a ∈ x, Q a) (hf : ∀ a, Q a → P (f a)) : ∀ b ∈ x.map f, P b := by
  intro b hb
  obtain ⟨a, ha, rfl⟩ := Option.map_eq_some_iff.1 hb
  exact hf a (hx a ha)

theorem mem_ite {α : Type} {P : α → Prop} {b : Bool} {x y : Option α}
    (hthen : ∀ a ∈ x, P a) (helse : ∀ a ∈ y, P a) : ∀ a ∈ if b then x else y, P a := by
  cases b with
  | true => exact hthen
  | false => exact helse

theorem mem_dite {α : Type} {P : α → Prop} {b : Bool} {x y : Option α}
    (hthen : b = true → ∀ a ∈ x, P a) (helse : b = false → ∀ a ∈ y, P a) :
    ∀ a ∈ if b then x else y, P a := by
  cases b with
  | true => exact hthen rfl
  | false => exact helse rfl

theorem mem_none {α : Type} {P : α → Prop} : ∀ a ∈ (none : Option α), P a :=
  fun _ ha => by cases ha

theorem mem_some {α : Type} {P : α → Prop} {a : α} (h : P a) : ∀ b ∈ some a, P b := by
  rintro b ⟨⟩
  exact h

/-! ### Scans -/

namespace Scan

/-- The tokens lead as deep into flow collections as the scan is. -/
def Balanced (s : Scan) : Prop :=
  flowDepth 0 s.tokens.toList = s.outer.length

variable {s s' : Scan} {t : Token}

theorem Balanced.push (h : s.Balanced) (ht : t.Flat) : (s.push t).Balanced := by
  unfold Balanced Scan.push
  rw [Array.toList_push, flowDepth_append, h]
  exact ht _

theorem Balanced.insert (h : s.Balanced) (ht : t.Flat) (i : Nat) :
    Balanced { s with tokens := s.tokens.insertIdxIfInBounds i t } := by
  unfold Balanced
  dsimp only
  rw [Array.insertIdxIfInBounds]
  split
  · rw [Array.toList_insertIdx, flowDepth_insertIdx ht]
    exact h
  · exact h

theorem flowDepth_leaveBlocks (column indent : Int) (indents : List Int) (tokens : Array Token) :
    flowDepth 0 (leaveBlocks column indent indents tokens).2.2.toList =
      flowDepth 0 tokens.toList := by
  have hpush (ts : Array Token) :
      flowDepth 0 (ts.push .blockEnd).toList = flowDepth 0 ts.toList := by
    rw [Array.toList_push, flowDepth_append]
    rfl
  induction indents generalizing indent tokens with
  | nil =>
    unfold leaveBlocks
    split
    · exact hpush tokens
    · rfl
  | cons around rest ih =>
    unfold leaveBlocks
    split
    · rw [ih, hpush]
    · rfl

theorem Balanced.leaveTo (h : s.Balanced) (column : Int) : (s.leaveTo column).Balanced := by
  unfold Scan.leaveTo
  split
  · exact h
  · exact (flowDepth_leaveBlocks column s.indent s.indents s.tokens).trans h

theorem Balanced.enterBlock (h : s.Balanced) (ht : t.Flat) (column : Nat) (at? : Option Nat) :
    (s.enterBlock column at? t).Balanced := by
  unfold Scan.enterBlock
  split
  · cases at? with
    | none => exact h.push ht
    | some i => exact h.insert ht i
  · exact h

theorem Balanced.dropCandidate? (h : s.Balanced) : ∀ s' ∈ s.dropCandidate?, s'.Balanced := by
  rintro s' hs'
  unfold Scan.dropCandidate? at hs'
  split at hs'
  · split at hs' <;> cases hs'
    exact h
  · cases hs'
    exact h

theorem Balanced.saveCandidate? (h : s.Balanced) : ∀ s' ∈ s.saveCandidate?, s'.Balanced := by
  rintro s' hs'
  unfold Scan.saveCandidate? at hs'
  split at hs'
  · obtain ⟨s₁, hs₁, rfl⟩ := Option.map_eq_some_iff.1 hs'
    exact h.dropCandidate? s₁ hs₁
  · cases hs'
    exact h

theorem length_of_mapM {α β : Type} {f : α → Option β} {xs : List α} {ys : List β}
    (h : xs.mapM f = some ys) : ys.length = xs.length := by
  induction xs generalizing ys with
  | nil =>
    cases h
    rfl
  | cons x xs ih =>
    rw [List.mapM_cons] at h
    obtain ⟨y, -, h⟩ := Option.bind_eq_some_iff.1 h
    obtain ⟨zs, hzs, h⟩ := Option.bind_eq_some_iff.1 h
    cases h
    exact congrArg (· + 1) (ih hzs)

theorem refreshCandidates?_spec {s' : Scan} (h : s.refreshCandidates? = some s') :
    ∃ k ks, refresh? s.cursor s.candidate = some k ∧ s.outer.mapM (refresh? s.cursor) = some ks ∧
      s' = { s with candidate := k, outer := ks } := by
  obtain ⟨k, hk, h⟩ := Option.bind_eq_some_iff.1 h
  obtain ⟨ks, hks, h⟩ := Option.bind_eq_some_iff.1 h
  exact ⟨k, ks, hk, hks, (Option.some.inj h).symm⟩

theorem Balanced.refreshCandidates? (h : s.Balanced) :
    ∀ s' ∈ s.refreshCandidates?, s'.Balanced := by
  rintro s' hs'
  obtain ⟨k, ks, -, hks, rfl⟩ := refreshCandidates?_spec hs'
  exact h.trans (length_of_mapM hks).symm

theorem Balanced.skipToToken (h : s.Balanced) (n : Nat) : (skipToToken n s).Balanced := by
  induction n generalizing s with
  | zero => exact h
  | succ n ih =>
    unfold Scan.skipToToken
    dsimp only
    split
    · exact ih h
    · split
      · exact ih h
      · split
        · split
          · exact ih h
          · exact h
        · split
          · exact ih h
          · exact h

/-! ### Tokens of a scan -/

/-- A token without brackets, wherever its reader stops. -/
theorem Balanced.readFlat (h : s.Balanced) {α : Type} (x : Option (α × Cursor)) (b : Bool)
    (token : α → Token) (htoken : ∀ a, (token a).Flat) :
    ∀ s' ∈ (do let (a, cursor) ← x
               some ({ s with cursor, keyAllowed := b }.push (token a))), s'.Balanced := by
  refine mem_bind (Q := fun _ => True) (fun _ _ => trivial) fun ⟨a, cursor⟩ _ => ?_
  exact mem_some (Balanced.push h (htoken a))

theorem Balanced.readFlowStart? (h : s.Balanced) (ht : ∀ n, flowStep n t = n + 1) :
    ∀ s' ∈ s.readFlowStart? t, s'.Balanced := by
  refine mem_map h.saveCandidate? fun s₁ h₁ => ?_
  unfold Balanced pushMark
  rw [Array.toList_push, flowDepth_append, h₁]
  exact ht _

theorem Balanced.readFlowEnd? (h : s.Balanced) (ht : ∀ n, flowStep n t = n - 1) :
    ∀ s' ∈ s.readFlowEnd? t, s'.Balanced := by
  refine mem_map h.dropCandidate? fun s₁ h₁ => ?_
  unfold Balanced pushMark
  cases houter : s₁.outer with
  | nil =>
    rw [Array.toList_push, flowDepth_append, h₁, houter]
    exact ht 0
  | cons k ks =>
    rw [Array.toList_push, flowDepth_append, h₁, houter]
    exact ht _

theorem Balanced.pushMark (h : s.Balanced) (ht : t.Flat) : (s.pushMark t).Balanced :=
  h.push ht

theorem Balanced.readDocumentMark? (h : s.Balanced) (ht : t.Flat) :
    ∀ s' ∈ s.readDocumentMark? t, s'.Balanced :=
  mem_map (h.leaveTo (-1)).dropCandidate? fun _ h₁ => h₁.push ht

theorem Balanced.readFlowEntry? (h : s.Balanced) : ∀ s' ∈ s.readFlowEntry?, s'.Balanced :=
  mem_map h.dropCandidate? fun _ h₁ => h₁.pushMark fun _ => rfl

theorem Balanced.readBlockEntry? (h : s.Balanced) : ∀ s' ∈ s.readBlockEntry?, s'.Balanced :=
  mem_ite mem_none <|
    mem_map (h.enterBlock (fun _ => rfl) s.cursor.column none).dropCandidate? fun _ h₁ =>
      h₁.pushMark fun _ => rfl

theorem Balanced.readKey? (h : s.Balanced) : ∀ s' ∈ s.readKey?, s'.Balanced :=
  mem_ite mem_none <|
    mem_map (h.enterBlock (fun _ => rfl) s.cursor.column none).dropCandidate? fun _ h₁ =>
      h₁.pushMark fun _ => rfl

theorem Balanced.readValue? (h : s.Balanced) : ∀ s' ∈ s.readValue?, s'.Balanced := by
  unfold Scan.readValue?
  split
  · rename_i k hk
    have hinsert : Balanced
        { s with tokens := s.tokens.insertIdxIfInBounds k.index .key, candidate := none } :=
      h.insert (fun _ => rfl) k.index
    refine mem_some (Balanced.pushMark ?_ fun _ => rfl)
    exact Balanced.enterBlock (t := .mappingStart) hinsert (fun _ => rfl) k.column (some k.index)
  · refine mem_ite mem_none (mem_some (Balanced.pushMark ?_ fun _ => rfl))
    exact h.enterBlock (t := .mappingStart) (fun _ => rfl) s.cursor.column none

theorem Balanced.readAnchored? (h : s.Balanced) {make : String → Token}
    (hmake : ∀ name, (make name).Flat) : ∀ s' ∈ s.readAnchored? make, s'.Balanced :=
  mem_bind h.saveCandidate? fun _ h₁ => h₁.readFlat _ _ _ hmake

theorem Balanced.readBlockText? (h : s.Balanced) (literal : Bool) :
    ∀ s' ∈ s.readBlockText? literal, s'.Balanced :=
  mem_bind h.dropCandidate? fun _ h₁ =>
    h₁.readFlat _ _ (fun text => .scalar (String.ofList text) false) fun _ _ => rfl

theorem Balanced.readQuotedText? (h : s.Balanced) (single : Bool) :
    ∀ s' ∈ s.readQuotedText? single, s'.Balanced :=
  mem_bind h.saveCandidate? fun _ h₁ =>
    h₁.readFlat _ _ (fun text => .scalar (String.ofList text) false) fun _ _ => rfl

theorem Balanced.readPlainText? (h : s.Balanced) : ∀ s' ∈ s.readPlainText?, s'.Balanced := by
  refine mem_bind h.saveCandidate? fun s₁ h₁ => ?_
  refine mem_bind (Q := fun _ => True) (fun _ _ => trivial) fun ⟨text, broken, cursor⟩ _ => ?_
  exact mem_some (Balanced.push h₁ fun _ => rfl)

theorem Balanced.readToken? (h : s.Balanced) (ch : Char) :
    ∀ s' ∈ s.readToken? ch, s'.Balanced := by
  unfold Scan.readToken?
  refine mem_ite (mem_bind (h.leaveTo (-1)).dropCandidate? fun s₁ h₁ =>
    h₁.readFlat _ _ Token.directive fun _ _ => rfl) ?_
  refine mem_ite (h.readDocumentMark? ?_) ?_
  · split <;> exact fun _ => rfl
  refine mem_ite (h.readFlowStart? fun _ => rfl) ?_
  refine mem_ite (h.readFlowStart? fun _ => rfl) ?_
  refine mem_ite (h.readFlowEnd? fun _ => rfl) ?_
  refine mem_ite (h.readFlowEnd? fun _ => rfl) ?_
  refine mem_ite h.readFlowEntry? ?_
  refine mem_ite h.readBlockEntry? ?_
  refine mem_ite h.readKey? ?_
  refine mem_ite h.readValue? ?_
  refine mem_ite (h.readAnchored? fun _ _ => rfl) ?_
  refine mem_ite (h.readAnchored? fun _ _ => rfl) ?_
  refine mem_ite (mem_bind h.saveCandidate? fun s₁ h₁ =>
    h₁.readFlat _ _ Token.tag fun _ _ => rfl) ?_
  refine mem_ite (h.readBlockText? true) ?_
  refine mem_ite (h.readBlockText? false) ?_
  refine mem_ite (h.readQuotedText? true) ?_
  refine mem_ite (h.readQuotedText? false) ?_
  exact mem_ite h.readPlainText? mem_none

theorem Balanced.readAll? {n : Nat} (h : s.Balanced) : ∀ s' ∈ readAll? n s, s'.Balanced := by
  induction n generalizing s with
  | zero => exact mem_none
  | succ n ih =>
    refine mem_bind (h.skipToToken _).refreshCandidates? fun s₁ h₁ => ?_
    have h₂ := h₁.leaveTo s₁.cursor.column
    dsimp only
    split
    · exact (h₂.leaveTo (-1)).dropCandidate?
    · exact mem_bind (h₂.readToken? _) fun _ h₃ => ih h₃

end Scan

/-! ### Nodes -/

/-- What leads from one list of tokens to a later one closes `k` more flow collections than it
opens, or even more. -/
def Closes (k : Nat) (ts us : List Token) : Prop :=
  ∀ n, flowDepth (n + k) ts ≤ flowDepth n us

namespace Closes

variable {j k : Nat} {t : Token} {ts us vs : List Token}

theorem refl (ts : List Token) : Closes 0 ts ts :=
  fun _ => Nat.le_refl _

theorem trans (h : Closes 0 ts us) (h' : Closes k us vs) : Closes k ts vs :=
  fun n => Nat.le_trans (h (n + k)) (h' n)

theorem opening (ht : ∀ n, flowStep n t = n + 1) (h : Closes 1 ts us) : Closes 0 (t :: ts) us := by
  intro n
  rw [flowDepth, List.foldl_cons, Nat.add_zero, ht]
  exact h n

theorem closing (ht : ∀ n, flowStep n t = n - 1) : Closes 1 (t :: ts) ts := by
  intro n
  rw [flowDepth, List.foldl_cons, ht, Nat.add_sub_cancel]
  exact Nat.le_refl _

theorem skip (ht : ∀ n, flowStep n t ≤ n) : Closes 0 (t :: ts) ts :=
  fun n => flowDepth_mono (ht n) ts

end Closes

namespace Build

variable {b b' : Build}

theorem closes_skip {t : Token} {ts : List Token} (h : b.tokens = t :: ts)
    (ht : ∀ n, flowStep n t ≤ n) : Closes 0 b.tokens b.skip.tokens := by
  rw [skip, h]
  exact .skip ht

theorem closes_opening {t : Token} {ts us : List Token} (h : b.tokens = t :: ts)
    (ht : ∀ n, flowStep n t = n + 1) (hus : Closes 1 b.skip.tokens us) : Closes 0 b.tokens us := by
  rw [skip, h] at hus
  rw [h]
  exact .opening ht hus

theorem closes_closing {t : Token} {ts : List Token} (h : b.tokens = t :: ts)
    (ht : ∀ n, flowStep n t = n - 1) : Closes 1 b.tokens b.skip.tokens := by
  rw [skip, h]
  exact .closing ht

theorem closes_skip_of_nextIs {stops : List Token} (h : b.nextIs stops = true)
    (hstops : ∀ t ∈ stops, ∀ n, flowStep n t ≤ n) : Closes 0 b.tokens b.skip.tokens := by
  unfold nextIs at h
  split at h
  · rename_i t ts heq
    exact closes_skip heq (hstops t (List.contains_iff_mem.1 h))
  · cases h

theorem closes_end {t : Token} (h : b.nextIs [t] = true) (ht : ∀ n, flowStep n t = n - 1) :
    Closes 1 b.tokens b.skip.tokens := by
  unfold nextIs at h
  split at h
  · rename_i u us heq
    obtain rfl : u = t := List.mem_singleton.1 (List.contains_iff_mem.1 h)
    exact closes_closing heq ht
  · cases h

theorem closes_takeAnchor (p : Properties) : Closes 0 b.tokens (b.takeAnchor p).2.tokens := by
  unfold takeAnchor
  split
  · rename_i heq
    exact closes_skip heq fun n => Nat.le_refl n
  · exact .refl _

theorem closes_takeTag? (p : Properties) :
    ∀ r ∈ b.takeTag? p, Closes 0 b.tokens r.2.tokens := by
  unfold takeTag?
  split
  · rename_i heq
    exact mem_map (Q := fun _ => True) (fun _ _ => trivial) fun _ _ =>
      closes_skip heq fun n => Nat.le_refl n
  · exact mem_some (.refl _)

theorem closes_takeProperties? : ∀ r ∈ b.takeProperties?, Closes 0 b.tokens r.2.tokens := by
  unfold takeProperties?
  split
  · rename_i name ts heq
    exact fun r hr => (closes_takeAnchor {}).trans (closes_takeTag? _ r hr)
  · exact mem_map (closes_takeTag? {}) fun r h => h.trans (closes_takeAnchor _)
  · exact mem_some (.refl _)

/-- Whatever is read with so much fuel closes the flow collections that it opens, and the readers
inside a flow collection close that one too. -/
structure NodesClose (fuel : Nat) : Prop where
  node {block flush : Bool} {b : Build} :
    ∀ r ∈ node? block flush fuel b, Closes 0 b.tokens r.2.tokens
  nodeUnless {block flush : Bool} {stops : List Token} {b : Build} :
    ∀ r ∈ nodeUnless? block flush stops fuel b, Closes 0 b.tokens r.2.tokens
  blockItems {b : Build} : ∀ r ∈ blockItems? fuel b, Closes 0 b.tokens r.2.tokens
  flushItems {b : Build} : ∀ r ∈ flushItems? fuel b, Closes 0 b.tokens r.2.tokens
  blockEntries {b : Build} : ∀ r ∈ blockEntries? fuel b, Closes 0 b.tokens r.2.tokens
  flowItems {first : Bool} {b : Build} :
    ∀ r ∈ flowItems? first fuel b, Closes 1 b.tokens r.2.tokens
  flowEntries {first : Bool} {b : Build} :
    ∀ r ∈ flowEntries? first fuel b, Closes 1 b.tokens r.2.tokens

theorem nodesClose_zero : NodesClose 0 := by
  constructor <;> intros <;> contradiction

variable {fuel : Nat} (hfuel : NodesClose fuel)
include hfuel

theorem closes_nodeUnless? {block flush : Bool} {stops : List Token} :
    ∀ r ∈ nodeUnless? block flush stops (fuel + 1) b, Closes 0 b.tokens r.2.tokens := by
  rw [nodeUnless?]
  exact mem_ite (mem_some (.refl _)) hfuel.node

theorem closes_node? {block flush : Bool} :
    ∀ r ∈ node? block flush (fuel + 1) b, Closes 0 b.tokens r.2.tokens := by
  rw [node?]
  split
  · rename_i heq
    exact mem_map (Q := fun _ => True) (fun _ _ => trivial) fun _ _ =>
      closes_skip heq fun n => Nat.le_refl n
  · split
    · exact mem_none
    · rename_i p b₁ hp
      have h₁ : Closes 0 b.tokens b₁.tokens := closes_takeProperties? _ hp
      have hempty : ∀ r ∈ (if p.anchor.isSome || p.tag.isSome then
          some (Node.scalar p "" true, b₁) else none), Closes 0 b.tokens r.2.tokens :=
        mem_ite (mem_some h₁) mem_none
      split
      · exact mem_ite (mem_map hfuel.flushItems fun _ h => h₁.trans h) hempty
      · rename_i heq
        exact mem_some (h₁.trans (closes_skip heq fun n => Nat.le_refl n))
      · rename_i heq
        exact mem_map hfuel.flowItems fun _ h => h₁.trans (closes_opening heq (fun _ => rfl) h)
      · rename_i heq
        exact mem_map hfuel.flowEntries fun _ h => h₁.trans (closes_opening heq (fun _ => rfl) h)
      · rename_i heq
        refine mem_ite (mem_map hfuel.blockItems fun _ h => ?_) hempty
        exact h₁.trans ((closes_skip heq fun n => Nat.le_refl n).trans h)
      · rename_i heq
        refine mem_ite (mem_map hfuel.blockEntries fun _ h => ?_) hempty
        exact h₁.trans ((closes_skip heq fun n => Nat.le_refl n).trans h)
      · exact hempty

theorem closes_blockItems? : ∀ r ∈ blockItems? (fuel + 1) b, Closes 0 b.tokens r.2.tokens := by
  rw [blockItems?]
  split
  · rename_i heq
    have hskip := closes_skip heq fun n => Nat.le_refl n
    refine mem_bind hfuel.nodeUnless fun r h => ?_
    exact mem_bind hfuel.blockItems fun _ h' => mem_some (hskip.trans (h.trans h'))
  · rename_i heq
    exact mem_some (closes_skip heq fun n => Nat.le_refl n)
  · exact mem_none

theorem closes_flushItems? : ∀ r ∈ flushItems? (fuel + 1) b, Closes 0 b.tokens r.2.tokens := by
  rw [flushItems?]
  split
  · rename_i heq
    have hskip := closes_skip heq fun n => Nat.le_refl n
    refine mem_bind hfuel.nodeUnless fun r h => ?_
    exact mem_bind hfuel.flushItems fun _ h' => mem_some (hskip.trans (h.trans h'))
  · exact mem_some (.refl _)

/-- What follows a value, or a value that is left out. -/
theorem closes_value? {α : Type} {P : α → Prop} {block flush : Bool} {stops : List Token}
    {f : Node × Build → Option α}
    (hf : ∀ r : Node × Build, Closes 0 b.tokens r.2.tokens → ∀ a ∈ f r, P a) :
    ∀ a ∈ (match b.tokens with
      | .value :: _ => nodeUnless? block flush stops fuel b.skip >>= f
      | _ => some (Node.empty, b) >>= f), P a := by
  split
  · rename_i heq
    have hskip := closes_skip heq fun n => Nat.le_refl n
    exact mem_bind hfuel.nodeUnless fun r h => hf r (hskip.trans h)
  · exact mem_bind (mem_some (.refl _)) hf

theorem closes_blockEntries? :
    ∀ r ∈ blockEntries? (fuel + 1) b, Closes 0 b.tokens r.2.tokens := by
  rw [blockEntries?]
  split
  · rename_i heq
    have hskip := closes_skip heq fun n => Nat.le_refl n
    refine mem_bind hfuel.nodeUnless fun r h => ?_
    refine closes_value? hfuel fun r' h' => ?_
    exact mem_bind hfuel.blockEntries fun _ h'' => mem_some (hskip.trans (h.trans (h'.trans h'')))
  · rename_i heq
    exact mem_some (closes_skip heq fun n => Nat.le_refl n)
  · exact mem_none

omit hfuel in
/-- The comma in front of an entry, but not in front of the first. -/
theorem closes_comma {first : Bool} (h : (!first && !b.nextIs [.flowEntry]) = false) :
    Closes 0 b.tokens (if first then b else b.skip).tokens := by
  cases first with
  | true => exact .refl _
  | false =>
    have hnext : b.nextIs [.flowEntry] = true := by simpa using h
    exact closes_skip_of_nextIs hnext (by simp [flowStep])

theorem closes_flowItems? {first : Bool} :
    ∀ r ∈ flowItems? first (fuel + 1) b, Closes 1 b.tokens r.2.tokens := by
  rw [flowItems?]
  refine mem_dite (fun hend => mem_some (closes_end hend fun _ => rfl)) fun _ => ?_
  refine mem_dite (fun _ => mem_none) fun hentry => ?_
  have h₁ := closes_comma hentry
  generalize (if first then b else b.skip) = b₁ at h₁
  dsimp only
  split
  · rename_i heq
    exact mem_some (h₁.trans (closes_closing heq fun _ => rfl))
  · rename_i heq
    have h₂ := h₁.trans (closes_skip heq fun n => Nat.le_refl n)
    refine mem_dite (fun hmissing => ?_) fun _ => ?_
    · have h₃ := h₂.trans (closes_skip_of_nextIs hmissing (by simp [flowStep]))
      refine closes_value? hfuel fun r' h' => ?_
      exact mem_bind hfuel.flowItems fun _ h'' => mem_some (h₃.trans (h'.trans h''))
    · refine mem_bind hfuel.node fun r h => ?_
      refine closes_value? hfuel fun r' h' => ?_
      exact mem_bind hfuel.flowItems fun _ h'' => mem_some (h₂.trans (h.trans (h'.trans h'')))
  · refine mem_bind hfuel.node fun r h => ?_
    exact mem_bind hfuel.flowItems fun _ h' => mem_some (h₁.trans (h.trans h'))

theorem closes_flowEntries? {first : Bool} :
    ∀ r ∈ flowEntries? first (fuel + 1) b, Closes 1 b.tokens r.2.tokens := by
  rw [flowEntries?]
  refine mem_dite (fun hend => mem_some (closes_end hend fun _ => rfl)) fun _ => ?_
  refine mem_dite (fun _ => mem_none) fun hentry => ?_
  have h₁ := closes_comma hentry
  generalize (if first then b else b.skip) = b₁ at h₁
  dsimp only
  split
  · rename_i heq
    exact mem_some (h₁.trans (closes_closing heq fun _ => rfl))
  · rename_i heq
    have h₂ := h₁.trans (closes_skip heq fun n => Nat.le_refl n)
    refine mem_bind hfuel.nodeUnless fun r h => ?_
    refine closes_value? hfuel fun r' h' => ?_
    exact mem_bind hfuel.flowEntries fun _ h'' => mem_some (h₂.trans (h.trans (h'.trans h'')))
  · refine mem_bind hfuel.node fun r h => ?_
    exact mem_bind hfuel.flowEntries fun _ h' => mem_some (h₁.trans (h.trans h'))

omit hfuel in
theorem nodesClose (fuel : Nat) : NodesClose fuel := by
  induction fuel with
  | zero => exact nodesClose_zero
  | succ fuel ih =>
    exact ⟨closes_node? ih, closes_nodeUnless? ih, closes_blockItems? ih, closes_flushItems? ih,
      closes_blockEntries? ih, closes_flowItems? ih, closes_flowEntries? ih⟩

/-! ### Documents -/

omit hfuel in
theorem closes_takeDirectives? {versioned : Bool} {ts : List Token} {handles : Handles} :
    ∀ r ∈ takeDirectives? versioned ts handles, Closes 0 ts r.2 := by
  induction ts generalizing versioned handles with
  | nil => exact mem_some (.refl _)
  | cons t ts ih =>
    unfold takeDirectives?
    split
    · rename_i heq
      cases heq
      exact mem_ite mem_none fun r hr => Closes.trans (.skip fun n => Nat.le_refl n) (ih r hr)
    · rename_i heq
      cases heq
      exact mem_ite mem_none fun r hr => Closes.trans (.skip fun n => Nat.le_refl n) (ih r hr)
    · exact mem_some (.refl _)

omit hfuel in
theorem closes_root? {ts : List Token} : ∀ r ∈ root? fuel ts, Closes 0 ts r.2.tokens := by
  unfold root?
  split
  case h_3 => exact (nodesClose fuel).node
  -- the text starts with directives or with the mark of a document
  all_goals
    split
    · rename_i handles us htake
      have hstart : Closes 0 _ us :=
        (closes_takeDirectives? _ htake).trans (.skip fun n => Nat.le_refl n)
      extract_lets b
      split
      all_goals first
        | exact mem_some hstart
        | exact fun r hr => hstart.trans ((nodesClose fuel).node r hr)
    · exact mem_none

end Build

/-- No document is built from tokens that end inside a flow collection. -/
theorem document?_of_open {text : List Char} {ts : List Token} (h : tokens? text = some ts)
    (hopen : 0 < flowDepth 0 ts) : document? text = none := by
  have hsome : ts.isEmpty = false := by
    cases ts with
    | nil => cases hopen
    | cons => rfl
  rw [document?, h, Option.bind_eq_bind, Option.bind_some, hsome]
  cases hroot : Build.root? (4 * (ts.length + 2)) ts with
  | none => rfl
  | some r =>
    have hcloses : flowDepth 0 ts ≤ flowDepth 0 r.2.tokens := Build.closes_root? r hroot 0
    have hrest : r.2.tokens.all (· == .documentEnd) = false := by
      refine Bool.eq_false_iff.2 fun hall => ?_
      have hflat : ∀ t ∈ r.2.tokens, t.Flat := fun t ht => by
        rw [beq_iff_eq.1 (List.all_eq_true.1 hall t ht)]
        exact fun _ => rfl
      rw [flowDepth_flat hflat] at hcloses
      omega
    obtain ⟨n, b⟩ := r
    dsimp only at hrest
    rw [Option.bind_eq_bind, Option.bind_some]
    dsimp only
    rw [hrest]
    rfl

end DocSchema.Yaml
