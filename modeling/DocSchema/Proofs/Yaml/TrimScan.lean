/-
  DocSchema/Proofs/Yaml/TrimScan.lean
  ===================================
  **Scans of a YAML text and of its trimmed form.**

  The two scans go through matching states (`Matches`), token by token (`Matches.readToken?`),
  until the texts end or a block scalar takes its last line break from the end of the text
  (`Yaml.keepsLastBreak`).  At the end they have the same tokens; but the scan of the text, which
  has passed its last line, may have refused a key that is missing inside a flow collection that
  is never closed, where the other has not (`tokens?_of_trimmed`).
-/
import Mathlib.Data.List.Forall2
import DocSchema.Proofs.Yaml.TrimTag

namespace DocSchema.Yaml

open DocSchema.Text Cursor

variable {c d c' d' : Cursor} {s t : Scan} {ch : Char}

/-! ### Candidates -/

/-- A candidate on the line of a place or above it; if on its line, as many characters in front
of it as columns. -/
def Candidate.Behind (k : Candidate) (c : Cursor) : Prop :=
  k.line ≤ c.line ∧ (k.line = c.line → c.pos + k.column = k.pos + c.column)

theorem Candidate.Behind.mono {k : Candidate} (h : k.Behind c) (hc : Follows c c') :
    k.Behind c' := by
  refine ⟨Nat.le_trans h.1 hc.line, fun hline => ?_⟩
  have hline₀ := h.1
  have hline' := hc.line
  have hcolumn := h.2 (by omega)
  have hcolumn' := hc.column (by omega)
  omega

/-- Candidates that are the same in the two texts. -/
structure SameKey (c d : Cursor) (k k' : Candidate) : Prop where
  index : k.index = k'.index
  line : k.line = k'.line
  column : k.column = k'.column
  required : k.required = k'.required
  full : k.Behind c
  cut : k'.Behind d

theorem SameKey.mono {k k' : Candidate} (h : SameKey c d k k') (hmove : Abreast c d c' d') :
    SameKey c' d' k k' :=
  ⟨h.index, h.line, h.column, h.required, h.full.mono hmove.full, h.cut.mono hmove.cut⟩

/-- On a line both can still be keys, or neither. -/
theorem SameKey.refresh? {k k' : Option Candidate} (h : Option.Rel (SameKey c d) k k')
    (hlevel : Level c d) :
    Option.Rel (Option.Rel (SameKey c d)) (Scan.refresh? c k) (Scan.refresh? d k') := by
  cases h with
  | none => exact .some .none
  | @some k k' hk =>
    have hfar : (decide (k.line < c.line) || decide (k.pos + 1024 < c.pos)) =
        (decide (k'.line < d.line) || decide (k'.pos + 1024 < d.pos)) := by
      have hline := hlevel.line
      have hcolumn := hlevel.column
      have hkline := hk.line
      have hkcolumn := hk.column
      have hfull := hk.full.2
      have hcut := hk.cut.2
      have habove := hk.full.1
      rw [Bool.eq_iff_iff]
      simp only [Bool.or_eq_true, decide_eq_true_eq]
      omega
    simp only [Scan.refresh?, hfar, hk.required]
    split
    · split
      · exact .none
      · exact .some .none
    · exact .some (.some hk)

theorem rel_mapM {α β : Type} {R : α → β → Prop} {f : α → Option α} {g : β → Option β}
    {xs : List α} {ys : List β} (h : List.Forall₂ R xs ys)
    (hfg : ∀ x y, R x y → Option.Rel R (f x) (g y)) :
    Option.Rel (List.Forall₂ R) (xs.mapM f) (ys.mapM g) := by
  induction h with
  | nil => exact .some .nil
  | cons hxy _ ih =>
    rw [List.mapM_cons, List.mapM_cons]
    refine rel_bind (hfg _ _ hxy) fun x y hxy => ?_
    refine rel_bind ih fun xs ys hrest => ?_
    exact .some (.cons hxy hrest)

/-! ### Block scalars at the end of a text -/

namespace Scan

/-- Whether the token that starts with the given character is a block scalar that keeps the last
line break of the text. -/
def atLastBlock (s : Scan) (ch : Char) : Bool :=
  !s.inFlow && (ch == '|' || ch == '>') &&
    (BlockScalar.read? (ch == '|') s.indent s.cursor.next).any BlockScalar.keepsLastBreak

/-- Whether the scan comes to such a block scalar. -/
def keepsLastBreak : Nat → Scan → Bool
  | 0, _ => false
  | fuel + 1, s =>
    match (skipToToken (s.cursor.chars.size + 1) s).refreshCandidates? with
    | none => false
    | some s =>
      let s := s.leaveTo s.cursor.column
      match s.cursor.peek? with
      | none => false
      | some ch =>
        s.atLastBlock ch ||
          match s.readToken? ch with
          | some s => keepsLastBreak fuel s
          | none => false

theorem endsPlain?_ne {inFlow : Bool} (hc : c.peek? = some ch)
    (hcolon : ch = ':' → c.blankOrEnd 1 = false)
    (hflow : inFlow = true → ch ∉ [',', '[', ']', '\x7b', '\x7d']) :
    endsPlain? inFlow c ≠ some true := by
  unfold endsPlain?
  extract_lets flowMark
  have hvalue : (c.holds 0 ':' && c.blankOrEnd 1) = false := by
    rw [holds_some hc]
    cases hch : ch == ':' with
    | false => rfl
    | true => rw [hcolon (beq_iff_eq.1 hch)]; rfl
  have hmark : (inFlow && c.test 0 flowMark) = false := by
    rw [test_some hc]
    cases inFlow with
    | false => rfl
    | true => simpa [flowMark, and_assoc] using hflow rfl
  rw [hvalue, hmark]
  split <;> simp

/-- A plain scalar does not end where it may start. -/
theorem startsPlain_spec (h : s.startsPlain = true) (hc : s.cursor.peek? = some ch) :
    (isWhite ch || isBreak ch) = false ∧ endsPlain? s.inFlow s.cursor ≠ some true := by
  unfold startsPlain at h
  simp only [Bool.or_eq_true, Bool.and_eq_true, Bool.not_eq_true', blankOrEnd_some hc,
    test_some hc, holds_some hc, beq_iff_eq] at h
  rcases h with (⟨hblank, hplain⟩ | ⟨rfl, -⟩) | ⟨⟨hflow, hmark⟩, hbehind⟩
  · have hnot : ∀ x ∈ [':', ',', '[', ']', '\x7b', '\x7d'], ch ≠ x := by
      rintro x hx rfl
      have : ∀ x ∈ [':', ',', '[', ']', '\x7b', '\x7d'],
          "-?:,[]\x7b\x7d#&*!|>'\"%@\x60".toList.contains x = true := by simp
      rw [this ch hx] at hplain
      cases hplain
    refine ⟨hblank, endsPlain?_ne hc (fun hch => absurd hch (hnot _ (by simp))) fun _ hmem => ?_⟩
    exact hnot ch (List.mem_cons_of_mem _ hmem) rfl
  · exact ⟨by decide, endsPlain?_ne hc (fun h => absurd h (by decide)) fun _ => by decide⟩
  · refine ⟨?_, endsPlain?_ne hc (fun _ => hbehind) fun h => ?_⟩
    · rcases hmark with rfl | rfl <;> decide
    · rw [hflow] at h
      cases h

end Scan

/-- Whether a text ends in a block scalar that keeps its last line break. -/
def keepsLastBreak (text : List Char) : Bool :=
  let chars := text.toArray
  Scan.keepsLastBreak (chars.size + 1) { cursor := ⟨chars, 0, 0, 0⟩ }

/-! ### Matching states -/

/-- States of the two scans at these places.  They differ in their places alone, and at the ends
of the texts also in whether a key may start there. -/
structure Matches (c d : Cursor) (s t : Scan) : Prop where
  full : s.cursor = c
  cut : t.cursor = d
  place : Level c d ∨ Ended c d
  tokens : s.tokens = t.tokens
  indent : s.indent = t.indent
  indents : s.indents = t.indents
  keyAllowed : AlikeBut s.keyAllowed t.keyAllowed c d
  candidate : Option.Rel (SameKey c d) s.candidate t.candidate
  outer : List.Forall₂ (Option.Rel (SameKey c d)) s.outer t.outer

namespace Matches

theorem inFlow (h : Matches c d s t) : s.inFlow = t.inFlow := by
  have houter := h.outer
  unfold Scan.inFlow
  generalize s.outer = ks, t.outer = ks' at houter
  cases houter <;> rfl

theorem abreast (h : Matches c d s t) : Abreast c d c d :=
  ⟨.refl c, .refl d, h.place⟩

theorem rel_mono {k k' : Option Candidate} (h : Option.Rel (SameKey c d) k k')
    (hmove : Abreast c d c' d') : Option.Rel (SameKey c' d') k k' := by
  cases h with
  | none => exact .none
  | some hk => exact .some (hk.mono hmove)

theorem ended_mono (h : Ended c d) (hmove : Abreast c d c' d') : Ended c' d' := by
  refine hmove.ended_of_left (Nat.le_trans hmove.full.left ?_)
  rw [rest_of_end h.full]
  exact Nat.le_refl 0

/-- The places are moved on. -/
theorem moved (h : Matches c d s t) (hmove : Abreast c d c' d') :
    Matches c' d' { s with cursor := c' } { t with cursor := d' } where
  full := rfl
  cut := rfl
  place := hmove.place
  tokens := h.tokens
  indent := h.indent
  indents := h.indents
  keyAllowed := h.keyAllowed.imp_right fun hended => ended_mono hended hmove
  candidate := rel_mono h.candidate hmove
  outer := h.outer.imp fun _ _ hk => rel_mono hk hmove

theorem allow (h : Matches c d s t) (b : Bool) :
    Matches c d { s with keyAllowed := b } { t with keyAllowed := b } :=
  { h with keyAllowed := .inl rfl }

theorem push (h : Matches c d s t) (token : Token) :
    Matches c d (s.push token) (t.push token) :=
  { h with tokens := congrArg (·.push token) h.tokens }

theorem dropCandidate? (h : Matches c d s t) :
    Option.Rel (Matches c d) s.dropCandidate? t.dropCandidate? := by
  have hcandidate := h.candidate
  unfold Scan.dropCandidate?
  generalize hk : s.candidate = k, hk' : t.candidate = k' at hcandidate
  cases hcandidate with
  | none => exact .some h
  | some hsame =>
    dsimp only
    rw [hsame.required]
    split
    · exact .none
    · exact .some { h with candidate := .none }

theorem refreshCandidates? (h : Matches c d s t) (hlevel : Level c d) :
    Option.Rel (Matches c d) s.refreshCandidates? t.refreshCandidates? := by
  unfold Scan.refreshCandidates?
  rw [h.full, h.cut]
  refine rel_bind (SameKey.refresh? h.candidate hlevel) fun k k' hk => ?_
  refine rel_bind (rel_mapM h.outer fun _ _ hk => SameKey.refresh? hk hlevel) fun ks ks' hks => ?_
  exact .some { h with full := rfl, cut := rfl, candidate := hk, outer := hks }

theorem enterBlock (h : Matches c d s t) (column : Nat) (at? : Option Nat) (token : Token) :
    Matches c d (s.enterBlock column at? token) (t.enterBlock column at? token) := by
  unfold Scan.enterBlock
  rw [h.inFlow, h.indent, h.indents, h.tokens]
  split
  · exact { h with tokens := rfl, indent := rfl, indents := rfl }
  · exact h

theorem leaveTo (h : Matches c d s t) (column : Int) :
    Matches c d (s.leaveTo column) (t.leaveTo column) := by
  unfold Scan.leaveTo
  rw [h.inFlow, h.indent, h.indents, h.tokens]
  split
  · exact h
  · exact { h with tokens := rfl, indent := rfl, indents := rfl }

/-! ### Between tokens -/

theorem skipToToken_of_end (n : Nat) (h : s.cursor.peek? = none) : Scan.skipToToken n s = s := by
  cases n with
  | zero => rfl
  | succ n => simp [Scan.skipToToken, holds_none h, test_none h]

/-- Whether a blank is here, which depends on whether a key may start here. -/
theorem blank (h : Matches c d s t) :
    (c.holds 0 ' ' || ((s.inFlow || !s.keyAllowed) && c.holds 0 '\t')) =
      (d.holds 0 ' ' || ((t.inFlow || !t.keyAllowed) && d.holds 0 '\t')) := by
  rcases h.keyAllowed with hallowed | hended
  · rw [h.inFlow, hallowed, h.abreast.holds (by decide), h.abreast.holds (x := '\t') (by decide)]
  · simp [holds_none hended.full, holds_none hended.cut]

theorem byteOrderMark (h : Matches c d s t) :
    (c.column == 0 && c.holds 0 '\ufeff') = (d.column == 0 && d.holds 0 '\ufeff') := by
  rcases h.place with hlevel | hended
  · rw [hlevel.column, h.abreast.holds (by decide)]
  · rw [holds_none hended.full, holds_none hended.cut, Bool.and_false, Bool.and_false]

/-- Scans that have come from these places to a token, or to the end. -/
def AtToken (c d : Cursor) (s t : Scan) : Prop :=
  ∃ c' d', Abreast c d c' d' ∧ Matches c' d' s t ∧ c'.test 0 isBreak = false

theorem AtToken.trans (h : AtToken c' d' s t) (hmove : Abreast c d c' d') : AtToken c d s t := by
  obtain ⟨c₁, d₁, habreast, hmatches, hstop⟩ := h
  exact ⟨c₁, d₁, hmove.trans habreast, hmatches, hstop⟩

theorem skipToToken {n m : Nat} (h : Matches c d s t) (hn : c.rest.length < n)
    (hm : d.rest.length < m) : AtToken c d (Scan.skipToToken n s) (Scan.skipToToken m t) := by
  induction n generalizing m c d s t with
  | zero => exact absurd hn (Nat.not_lt_zero _)
  | succ n ih =>
    obtain ⟨m, rfl⟩ : ∃ k, m = k + 1 := ⟨m - 1, by omega⟩
    unfold Scan.skipToToken
    rw [h.full, h.cut]
    dsimp only
    rw [← h.byteOrderMark, ← h.blank]
    split
    · rename_i hmark
      obtain ⟨hnext, hleft, hleft'⟩ :=
        h.abreast.next_of_holds (by decide) (Bool.and_eq_true_iff.1 hmark).2
      exact (ih (h.moved hnext) (by omega) (by omega)).trans hnext
    · split
      · rename_i hblank
        obtain ⟨hnext, hleft, hleft'⟩ : Abreast c d c.next d.next ∧
            c.next.rest.length < c.rest.length ∧ d.next.rest.length < d.rest.length := by
          rcases Bool.or_eq_true_iff.1 hblank with hspace | htab
          · exact h.abreast.next_of_holds (by decide) hspace
          · exact h.abreast.next_of_holds (by decide) (Bool.and_eq_true_iff.1 htab).2
        exact (ih (h.moved hnext) (by omega) (by omega)).trans hnext
      · have hcomment := h.abreast.skipComment
        generalize (if c.holds 0 '#' then c.skipToBreak else c) = c₁,
          (if d.holds 0 '#' then d.skipToBreak else d) = d₁ at hcomment ⊢
        have hleft := hcomment.full.left
        have hleft' := hcomment.cut.left
        cases hcomment.here with
        | ended hended =>
          rw [test_none hended.full, test_none hended.cut]
          exact ⟨c₁, d₁, hcomment, h.moved hcomment, test_none hended.full⟩
        | last ch hc hch hd hchars hended after =>
          rw [test_some hc, hch, test_none hd, if_pos rfl, if_neg Bool.false_ne_true,
            skipToToken_of_end n hended.full]
          exact ⟨c₁.nextLine, d₁, after, { h.moved after with keyAllowed := .inr hended },
            test_none hended.full⟩
        | «break» ch ch' hc hch hd hch' hchars after =>
          have hline := left_nextLine hc hch
          have hline' := left_nextLine hd hch'
          rw [test_some hc, hch, test_some hd, hch', if_pos rfl, if_pos rfl, h.inFlow]
          have hallowed : AlikeBut (s.keyAllowed || !t.inFlow) (t.keyAllowed || !t.inFlow)
              c₁.nextLine d₁.nextLine :=
            h.keyAllowed.imp (congrArg (· || !t.inFlow)) fun hended => ended_mono hended after
          refine AtToken.trans ?_ after
          exact ih { h.moved after with keyAllowed := hallowed } (by omega) (by omega)
        | char ch hc hd hch =>
          have hstop : c₁.test 0 isBreak = false := (test_some hc).trans hch
          rw [hstop, (test_some hd).trans hch]
          exact ⟨c₁, d₁, hcomment, h.moved hcomment, hstop⟩

/-! ### Tokens -/

/-- The same character of a line is in front of both. -/
structure AtChar (c d : Cursor) (ch : Char) : Prop where
  full : c.peek? = some ch
  cut : d.peek? = some ch
  level : Level c d
  after : Abreast c d c.next d.next

/-- States behind a token. -/
def Onward (c d : Cursor) (s t : Scan) : Prop :=
  ∃ c' d', Matches c' d' s t ∧ c'.rest.length < c.rest.length ∧ d'.rest.length < d.rest.length

theorem keyAllowed_eq (h : Matches c d s t) (hat : AtChar c d ch) :
    s.keyAllowed = t.keyAllowed := by
  refine h.keyAllowed.resolve_right fun hended => ?_
  have := hended.full
  rw [hat.full] at this
  cases this

theorem AtChar.onward (hat : AtChar c d ch) (hmove : Abreast c.next d.next c' d')
    (h : Matches c' d' s t) : Onward c d s t :=
  ⟨c', d', h, Nat.lt_of_le_of_lt hmove.full.left (left_next hat.full),
    Nat.lt_of_le_of_lt hmove.cut.left (left_next hat.cut)⟩

theorem pushMark (h : Matches c d s t) (hat : AtChar c d ch) (token : Token) :
    Onward c d (s.pushMark token) (t.pushMark token) := by
  unfold Scan.pushMark
  rw [h.full, h.cut]
  exact hat.onward hat.after.start ((h.push token).moved hat.after)

/-- A token that leads on to these places, with what may follow it. -/
theorem finish {b b' : Bool} (h : Matches c d s t) (hat : AtChar c d ch)
    (hmove : Abreast c.next d.next c' d') (hb : AlikeBut b b' c' d') (token : Token) :
    Onward c d ({ s with cursor := c', keyAllowed := b }.push token)
      ({ t with cursor := d', keyAllowed := b' }.push token) :=
  hat.onward hmove { (h.push token).moved (hat.after.trans hmove) with keyAllowed := hb }

theorem saveCandidate? (h : Matches c d s t) (hat : AtChar c d ch) :
    Option.Rel (Matches c d) s.saveCandidate? t.saveCandidate? := by
  unfold Scan.saveCandidate?
  rw [h.keyAllowed_eq hat]
  split
  · dsimp only
    rw [h.full, h.cut, h.inFlow, h.indent, hat.level.column]
    refine rel_map h.dropCandidate? fun s' t' h' => { h' with candidate := .some ?_ }
    exact ⟨congrArg Array.size h'.tokens, hat.level.line, rfl, rfl,
      ⟨Nat.le_refl _, fun _ => congrArg _ hat.level.column.symm⟩, ⟨Nat.le_refl _, fun _ => rfl⟩⟩
  · exact .some h

theorem readDocumentMark? (h : Matches c d s t) (hat : AtChar c d ch)
    (hmark : c.atDocumentMark = true) (token : Token) :
    Option.Rel (Onward c d) (s.readDocumentMark? token) (t.readDocumentMark? token) := by
  refine rel_map (h.leaveTo (-1)).dropCandidate? fun s' t' h' => ?_
  rw [h'.full, h'.cut]
  exact h'.finish hat (hat.after.start.next_mark hmark) (.inl rfl) token

theorem readFlowStart? (h : Matches c d s t) (hat : AtChar c d ch) (token : Token) :
    Option.Rel (Onward c d) (s.readFlowStart? token) (t.readFlowStart? token) := by
  refine rel_map (h.saveCandidate? hat) fun s' t' h' => ?_
  have hinner : Matches c d
      { s' with outer := s'.candidate :: s'.outer, candidate := none, keyAllowed := true }
      { t' with outer := t'.candidate :: t'.outer, candidate := none, keyAllowed := true } :=
    { h' with outer := .cons h'.candidate h'.outer, candidate := .none, keyAllowed := .inl rfl }
  exact hinner.pushMark hat token

theorem readFlowEnd? (h : Matches c d s t) (hat : AtChar c d ch) (token : Token) :
    Option.Rel (Onward c d) (s.readFlowEnd? token) (t.readFlowEnd? token) := by
  refine rel_map h.dropCandidate? fun s' t' h' => ?_
  have houter := h'.outer
  generalize hks : s'.outer = ks, hks' : t'.outer = ks' at houter
  cases houter with
  | nil => exact (h'.allow false).pushMark hat token
  | @cons k k' ks ks' hk hrest =>
    have hback : Matches c d { s' with candidate := k, outer := ks }
        { t' with candidate := k', outer := ks' } :=
      { h' with candidate := hk, outer := hrest }
    exact (hback.allow false).pushMark hat token

theorem readFlowEntry? (h : Matches c d s t) (hat : AtChar c d ch) :
    Option.Rel (Onward c d) s.readFlowEntry? t.readFlowEntry? :=
  rel_map h.dropCandidate? fun _ _ h' => (h'.allow true).pushMark hat .flowEntry

theorem readBlockEntry? (h : Matches c d s t) (hat : AtChar c d ch) :
    Option.Rel (Onward c d) s.readBlockEntry? t.readBlockEntry? := by
  unfold Scan.readBlockEntry?
  rw [h.inFlow, h.keyAllowed_eq hat, h.full, h.cut, hat.level.column]
  split
  · exact .none
  · refine rel_map (h.enterBlock d.column none .sequenceStart).dropCandidate? fun s' t' h' => ?_
    exact (h'.allow true).pushMark hat .blockEntry

theorem readKey? (h : Matches c d s t) (hat : AtChar c d ch) :
    Option.Rel (Onward c d) s.readKey? t.readKey? := by
  unfold Scan.readKey?
  rw [h.inFlow, h.keyAllowed_eq hat, h.full, h.cut, hat.level.column]
  split
  · exact .none
  · refine rel_map (h.enterBlock d.column none .mappingStart).dropCandidate? fun s' t' h' => ?_
    rw [h'.inFlow]
    exact (h'.allow _).pushMark hat .key

theorem readValue? (h : Matches c d s t) (hat : AtChar c d ch) :
    Option.Rel (Onward c d) s.readValue? t.readValue? := by
  have hcandidate := h.candidate
  unfold Scan.readValue?
  generalize hk : s.candidate = k, hk' : t.candidate = k' at hcandidate
  cases hcandidate with
  | none =>
    dsimp only
    rw [h.inFlow, h.keyAllowed_eq hat, h.full, h.cut, hat.level.column]
    split
    · exact .none
    · have hblock := h.enterBlock d.column none .mappingStart
      rw [hblock.inFlow]
      exact .some ((hblock.allow _).pushMark hat .value)
  | @some k k' hsame =>
    dsimp only
    rw [hsame.index, hsame.column]
    have hinsert : Matches c d
        { s with tokens := s.tokens.insertIdxIfInBounds k'.index .key, candidate := none }
        { t with tokens := t.tokens.insertIdxIfInBounds k'.index .key, candidate := none } :=
      { h with
        tokens := congrArg (·.insertIdxIfInBounds k'.index .key) h.tokens
        candidate := .none }
    exact .some (((hinsert.enterBlock k'.column (some k'.index) .mappingStart).allow _).pushMark
      hat .value)

theorem readAnchored? (h : Matches c d s t) (hat : AtChar c d ch) (make : String → Token) :
    Option.Rel (Onward c d) (s.readAnchored? make) (t.readAnchored? make) := by
  refine rel_bind (h.saveCandidate? hat) fun s' t' h' => ?_
  dsimp only
  rw [h'.full, h'.cut]
  refine rel_bind hat.after.start.readAnchor? ?_
  rintro ⟨name, c'⟩ ⟨_, d'⟩ ⟨rfl, hmove⟩
  exact .some (h'.finish hat hmove (.inl rfl) _)

theorem readTagged? (h : Matches c d s t) (hat : AtChar c d ch) :
    Option.Rel (Onward c d)
      (do let s ← s.saveCandidate?
          let (tag, cursor) ← readTag? s.inFlow s.cursor
          some ({ s with cursor, keyAllowed := false }.push (.tag tag)))
      (do let t ← t.saveCandidate?
          let (tag, cursor) ← readTag? t.inFlow t.cursor
          some ({ t with cursor, keyAllowed := false }.push (.tag tag))) := by
  refine rel_bind (h.saveCandidate? hat) fun s' t' h' => ?_
  dsimp only
  rw [h'.full, h'.cut, h'.inFlow]
  refine rel_bind hat.after.start.readTag? ?_
  rintro ⟨tag, c'⟩ ⟨_, d'⟩ ⟨rfl, hmove⟩
  exact .some (h'.finish hat hmove (.inl rfl) _)

theorem readDirective? (h : Matches c d s t) (hat : AtChar c d ch) :
    Option.Rel (Onward c d)
      (do let s ← (s.leaveTo (-1)).dropCandidate?
          let (directive, cursor) ← readDirective? c.next
          some ({ s with cursor, keyAllowed := false }.push (.directive directive)))
      (do let t ← (t.leaveTo (-1)).dropCandidate?
          let (directive, cursor) ← readDirective? d.next
          some ({ t with cursor, keyAllowed := false }.push (.directive directive))) := by
  refine rel_bind (h.leaveTo (-1)).dropCandidate? fun s' t' h' => ?_
  dsimp only
  refine rel_bind hat.after.start.readDirective? ?_
  rintro ⟨directive, c'⟩ ⟨_, d'⟩ ⟨rfl, hmove⟩
  exact .some (h'.finish hat hmove (.inl rfl) _)

theorem readQuotedText? (h : Matches c d s t) (hat : AtChar c d ch) (single : Bool) :
    Option.Rel (Onward c d) (s.readQuotedText? single) (t.readQuotedText? single) := by
  refine rel_bind (h.saveCandidate? hat) fun s' t' h' => ?_
  dsimp only
  rw [h'.full, h'.cut]
  refine rel_bind (hat.after.start.readQuoted? (Nat.lt_succ_of_le (rest_le_size c.next))
    (Nat.lt_succ_of_le (rest_le_size d.next))) ?_
  rintro ⟨text, c'⟩ ⟨_, d'⟩ ⟨rfl, hmove⟩
  exact .some (h'.finish hat hmove (.inl rfl) _)

theorem dropCandidate?_indent {s' : Scan} (h : s.dropCandidate? = some s') :
    s'.indent = s.indent := by
  unfold Scan.dropCandidate? at h
  split at h
  · split at h <;> cases h
    rfl
  · cases h
    rfl

theorem readBlockText? (h : Matches c d s t) (hat : AtChar c d ch) (literal : Bool)
    (hkeep : (BlockScalar.read? literal s.indent c.next).any BlockScalar.keepsLastBreak = false) :
    Option.Rel (Onward c d) (s.readBlockText? literal) (t.readBlockText? literal) := by
  unfold Scan.readBlockText?
  rcases rel_cases h.dropCandidate? with ⟨hs, ht⟩ | ⟨s', t', hs, ht, h'⟩
  · rw [hs, ht]
    exact .none
  · rw [← dropCandidate?_indent hs] at hkeep
    have hread : Option.Rel (AlikeScalar c.next d.next)
        (BlockScalar.read? literal s'.indent c.next)
        (BlockScalar.read? literal t'.indent d.next) := by
      rw [← h'.indent]
      exact hat.after.start.readBlockScalar?
    rw [hs, ht, Option.bind_eq_bind, Option.bind_eq_bind, Option.bind_some, Option.bind_some,
      h'.full, h'.cut, BlockScalar.readBlockScalar?_eq, BlockScalar.readBlockScalar?_eq]
    rcases rel_cases hread with ⟨hx, hy⟩ | ⟨b, b', hx, hy, hmove, hsame⟩
    · rw [hx, hy]
      exact .none
    · rw [hx, Option.any_some] at hkeep
      rw [hx, hy, Option.map_some, Option.map_some]
      rcases hsame with hsame | hlast
      · rw [hsame]
        exact .some (h'.finish hat hmove (.inl rfl) _)
      · rw [hlast] at hkeep
        cases hkeep

theorem saveCandidate?_outer {s' : Scan} (h : s.saveCandidate? = some s') :
    s'.outer = s.outer := by
  unfold Scan.saveCandidate? Scan.dropCandidate? at h
  split at h
  · split at h
    · split at h <;> cases h
      rfl
    · cases h
      rfl
  · cases h
    rfl

theorem readPlainText? (h : Matches c d s t) (hat : AtChar c d ch)
    (hstart : s.startsPlain = true) :
    Option.Rel (Onward c d) s.readPlainText? t.readPlainText? := by
  obtain ⟨hword, hgoes⟩ := Scan.startsPlain_spec hstart (h.full ▸ hat.full)
  unfold Scan.readPlainText?
  rcases rel_cases (h.saveCandidate? hat) with ⟨hs, ht⟩ | ⟨s', t', hs, ht, h'⟩
  · rw [hs, ht]
    exact .none
  · have hflow : s'.inFlow = s.inFlow := by rw [Scan.inFlow, saveCandidate?_outer hs, Scan.inFlow]
    have hread : Option.Rel (AlikePlain c.next d.next)
        (readPlain? s'.inFlow (s'.indent + 1).toNat (c.chars.size + 1) [] {} c)
        (readPlain? t'.inFlow (t'.indent + 1).toNat (d.chars.size + 1) [] {} d) := by
      rw [← h'.inFlow, ← h'.indent]
      simp only [readPlain?, hat.full, hat.cut, hword, Bool.false_eq_true, ↓reduceIte,
        ← h.abreast.endsPlain? s'.inFlow]
      rw [h.full, ← hflow] at hgoes
      split
      · exact .none
      · contradiction
      · exact hat.after.start.readPlain? (rest_le_size c.next) (rest_le_size d.next)
    rw [hs, ht, Option.bind_eq_bind, Option.bind_eq_bind, Option.bind_some, Option.bind_some,
      h'.full, h'.cut]
    refine rel_bind hread ?_
    rintro ⟨text, broken, c'⟩ ⟨_, broken', d'⟩ ⟨rfl, hbroken, hmove⟩
    exact .some (h'.finish hat hmove hbroken _)

theorem startsPlain_eq (h : Matches c d s t) (hat : AtChar c d ch) :
    s.startsPlain = t.startsPlain := by
  have hblank : c.blankOrEnd 1 = d.blankOrEnd 1 := hat.after.blankOrEnd
  have hwhite : c.test 1 isWhite = d.test 1 isWhite := hat.after.test white_noBreak
  have hholds (x : Char) : c.holds 0 x = d.holds 0 x := by
    rw [holds_some hat.full, holds_some hat.cut]
  have htest (p : Char → Bool) : c.test 0 p = d.test 0 p := by
    rw [test_some hat.full, test_some hat.cut]
  unfold Scan.startsPlain
  extract_lets c₁ reserved d₁
  have hc : c₁ = c := h.full
  have hd : d₁ = d := h.cut
  rw [hc, hd, h.inFlow, h.abreast.blankOrEnd, htest, hholds '-', hholds '?', hholds ':', hwhite,
    hblank]

/-- The two scans take the same token, but for a block scalar that keeps the last break. -/
theorem readToken? (h : Matches c d s t) (hat : AtChar c d ch)
    (hkeep : s.atLastBlock ch = false) :
    Option.Rel (Onward c d) (s.readToken? ch) (t.readToken? ch) := by
  have hblank : c.blankOrEnd 1 = d.blankOrEnd 1 := hat.after.blankOrEnd
  unfold Scan.readToken?
  rw [h.full, h.cut]
  dsimp only
  rw [← hat.level.column, ← h.abreast.atDocumentMark, ← h.inFlow, ← hblank, ← h.startsPlain_eq hat]
  have hblock (literal : Bool) (hch : ch = if literal then '|' else '>')
      (hflow : s.inFlow = false) :
      (BlockScalar.read? literal s.indent c.next).any BlockScalar.keepsLastBreak = false := by
    have : (ch == '|' || ch == '>') = true ∧ (ch == '|') = literal := by
      cases literal <;> rw [hch] <;> decide
    rw [Scan.atLastBlock, hflow, this.1, this.2, h.full] at hkeep
    exact hkeep
  refine rel_ite (fun _ => h.readDirective? hat) fun _ => ?_
  refine rel_ite (fun hmark => h.readDocumentMark? hat hmark _) fun _ => ?_
  refine rel_ite (fun _ => h.readFlowStart? hat _) fun _ => ?_
  refine rel_ite (fun _ => h.readFlowStart? hat _) fun _ => ?_
  refine rel_ite (fun _ => h.readFlowEnd? hat _) fun _ => ?_
  refine rel_ite (fun _ => h.readFlowEnd? hat _) fun _ => ?_
  refine rel_ite (fun _ => h.readFlowEntry? hat) fun _ => ?_
  refine rel_ite (fun _ => h.readBlockEntry? hat) fun _ => ?_
  refine rel_ite (fun _ => h.readKey? hat) fun _ => ?_
  refine rel_ite (fun _ => h.readValue? hat) fun _ => ?_
  refine rel_ite (fun _ => h.readAnchored? hat _) fun _ => ?_
  refine rel_ite (fun _ => h.readAnchored? hat _) fun _ => ?_
  refine rel_ite (fun _ => h.readTagged? hat) fun _ => ?_
  refine rel_ite (fun hmark => ?_) fun _ => rel_ite (fun hmark => ?_) fun _ => ?_
  · rw [Bool.and_eq_true, beq_iff_eq, Bool.not_eq_true'] at hmark
    exact h.readBlockText? hat true (hblock true hmark.1 hmark.2)
  · rw [Bool.and_eq_true, beq_iff_eq, Bool.not_eq_true'] at hmark
    exact h.readBlockText? hat false (hblock false hmark.1 hmark.2)
  · refine rel_ite (fun _ => h.readQuotedText? hat _) fun _ => ?_
    refine rel_ite (fun _ => h.readQuotedText? hat _) fun _ => ?_
    exact rel_ite (fun hplain => h.readPlainText? hat hplain) fun _ => .none

end Matches

end DocSchema.Yaml
