/-
  DocSchema/Proofs/Yaml/TrimScalar.lean
  =====================================
  **Scalars of a YAML text and of its trimmed form.**

  Readers of plain and quoted scalars that start abreast answer the same text and end abreast.
  So do those of block scalars, unless the scalar goes on to the end of the text and keeps its
  last line break (`BlockScalar.keepsLastBreak`, `Abreast.readBlockScalar?`).
-/
import DocSchema.Yaml.Scalar
import DocSchema.Proofs.Yaml.Trim

namespace DocSchema.Yaml

open DocSchema.Text Cursor

variable {c₀ d₀ c d : Cursor} {indent n m : Nat}

/-- Both have `x` in common, or are at the end where it does not matter. -/
def AlikeBut {α : Type} (a b : α) (c d : Cursor) : Prop :=
  a = b ∨ Ended c d

/-! ### Whitespace -/

theorem readGap?_of_end (h : c.peek? = none) (g : Gap) :
    readGap? indent n g c = some (g, c) := by
  cases n with
  | zero => rfl
  | succ n => rw [readGap?, h]

theorem readGap?_left {g g' : Gap} {c' : Cursor} (h : readGap? indent n g c = some (g', c')) :
    c'.rest.length ≤ c.rest.length := by
  induction n generalizing g c with
  | zero =>
    cases h
    exact Nat.le_refl _
  | succ n ih =>
    unfold readGap? at h
    split at h
    · cases h
      exact Nat.le_refl _
    · rename_i ch hch
      split at h
      · have hleft := left_next hch
        split at h
        · split at h
          · cases h
          · exact Nat.le_trans (ih h) (Nat.le_of_lt hleft)
        · exact Nat.le_trans (ih h) (Nat.le_of_lt hleft)
      · split at h
        · rename_i hbreak
          have hleft := left_nextLine hch hbreak
          split at h
          · exact Nat.le_trans (ih h) (Nat.le_of_lt hleft)
          · exact Nat.le_trans (ih h) (Nat.le_of_lt hleft)
        · cases h
          exact Nat.le_refl _

theorem Abreast.readGap? (h : Abreast c₀ d₀ c d) (indent : Nat) (g : Gap)
    (hn : c.rest.length ≤ n) (hm : d.rest.length ≤ m) :
    Option.Rel (fun a b => AlikeBut a.1 b.1 a.2 b.2 ∧ Abreast c₀ d₀ a.2 b.2)
      (Yaml.readGap? indent n g c) (Yaml.readGap? indent m g d) := by
  induction n generalizing m g c d with
  | zero =>
    have hended := h.ended_of_left hn
    rw [readGap?_of_end hended.full, readGap?_of_end hended.cut]
    exact .some ⟨.inl rfl, h⟩
  | succ n ih =>
    cases h.here with
    | ended hended =>
      rw [readGap?_of_end hended.full, readGap?_of_end hended.cut]
      exact .some ⟨.inl rfl, h⟩
    | last ch hc hch hd hchars hended after =>
      simp only [Yaml.readGap?, hc, white_noBreak ch hch, hch, readGap?_of_end hd,
        Bool.false_eq_true, ↓reduceIte]
      split <;> rw [readGap?_of_end hended.full] <;> exact .some ⟨.inr hended, after⟩
    | «break» ch ch' hc hch hd hch' hchars after =>
      have hleft := left_nextLine hc hch
      have hleft' := left_nextLine hd hch'
      obtain ⟨m, rfl⟩ : ∃ k, m = k + 1 := ⟨m - 1, by omega⟩
      simp only [Yaml.readGap?, hc, hd, white_noBreak ch hch, white_noBreak ch' hch', hch, hch',
        hchars, Bool.false_eq_true, ↓reduceIte]
      split
      · exact ih after _ (by omega) (by omega)
      · exact ih after _ (by omega) (by omega)
    | char ch hc hd hch after hcolumn =>
      have hleft := left_next hc
      have hleft' := left_next hd
      obtain ⟨m, rfl⟩ : ∃ k, m = k + 1 := ⟨m - 1, by omega⟩
      simp only [Yaml.readGap?, hc, hd, hch, hcolumn, Bool.false_eq_true, ↓reduceIte]
      split
      · split
        · split
          · exact .none
          · exact ih after _ (by omega) (by omega)
        · exact ih after _ (by omega) (by omega)
      · exact .some ⟨.inl rfl, h⟩

theorem readGap?_progress {g g' : Gap} {c' : Cursor} {ch : Char}
    (h : Yaml.readGap? indent (c.chars.size - c.pos) g c = some (g', c')) (hc : c.peek? = some ch)
    (hgap : (isWhite ch || isBreak ch) = true) : c'.rest.length < c.rest.length := by
  have hleft := left_next hc
  obtain ⟨n, hn⟩ : ∃ k, c.chars.size - c.pos = k + 1 :=
    ⟨c.chars.size - c.pos - 1, by rw [← length_rest]; omega⟩
  simp only [hn, Yaml.readGap?, hc] at h
  split at h
  · split at h
    · split at h
      · cases h
      · exact Nat.lt_of_le_of_lt (readGap?_left h) hleft
    · exact Nat.lt_of_le_of_lt (readGap?_left h) hleft
  · rename_i hwhite
    have hbreak : isBreak ch = true := by simpa [hwhite] using hgap
    rw [if_pos hbreak] at h
    have hleft := left_nextLine hc hbreak
    split at h <;> exact Nat.lt_of_le_of_lt (readGap?_left h) hleft

/-- Behind the last break nothing is left to read. -/
theorem readGap?_last {ch : Char} (indent : Nat) (g : Gap) (hc : c.peek? = some ch)
    (hch : isBreak ch = true) (hend : c.nextLine.peek? = none) :
    ∃ g', Yaml.readGap? indent (c.chars.size - c.pos) g c = some (g', c.nextLine) := by
  have hleft := left_next hc
  obtain ⟨n, hn⟩ : ∃ k, c.chars.size - c.pos = k + 1 :=
    ⟨c.chars.size - c.pos - 1, by rw [← length_rest]; omega⟩
  simp only [hn, Yaml.readGap?, hc, white_noBreak ch hch, hch, Bool.false_eq_true, ↓reduceIte]
  split <;> exact ⟨_, readGap?_of_end hend _⟩

/-- From whitespace or a break both come to the next word, or both are refused. -/
theorem Abreast.gap {ch ch' : Char} (indent : Nat) (h : Abreast c₀ d₀ c d) (hc : c.peek? = some ch)
    (hd : d.peek? = some ch') (hch : (isWhite ch || isBreak ch) = true)
    (hch' : (isWhite ch' || isBreak ch') = true) :
    (Yaml.readGap? indent (c.chars.size - c.pos) {} c = none ∧
      Yaml.readGap? indent (d.chars.size - d.pos) {} d = none) ∨
    ∃ g g' c' d', Yaml.readGap? indent (c.chars.size - c.pos) {} c = some (g, c') ∧
      Yaml.readGap? indent (d.chars.size - d.pos) {} d = some (g', d') ∧
      Abreast c₀ d₀ c' d' ∧ AlikeBut g g' c' d' ∧
      c'.rest.length < c.rest.length ∧ d'.rest.length < d.rest.length := by
  rcases rel_cases (h.readGap? indent {} (rest_le c) (rest_le d)) with
    hnone | ⟨⟨g, c'⟩, ⟨g', d'⟩, hx, hy, hg, h'⟩
  · exact .inl hnone
  · exact .inr ⟨g, g', c', d', hx, hy, h', hg, readGap?_progress hx hc hch,
      readGap?_progress hy hd hch'⟩

/-! ### Plain scalars -/

theorem Abreast.endsPlain? (h : Abreast c₀ d₀ c d) (inFlow : Bool) :
    Yaml.endsPlain? inFlow c = Yaml.endsPlain? inFlow d := by
  unfold Yaml.endsPlain?
  extract_lets flowMark
  have hmark : ∀ ch, isBreak ch = true → flowMark ch = false := false_of_break (by decide)
  rw [← h.test hmark, ← h.holds (x := ':') (by decide)]
  cases hcolon : c.holds 0 ':' with
  | false => simp
  | true =>
    have hnext := (h.next_of_holds (by decide) hcolon).1
    have htest : c.test 1 (fun ch => flowMark ch || ch == '?') =
        d.test 1 (fun ch => flowMark ch || ch == '?') :=
      hnext.test (false_of_break (by decide))
    have hblank : c.blankOrEnd 1 = d.blankOrEnd 1 := hnext.blankOrEnd
    rw [htest, hblank]

theorem readPlain?_of_end {inFlow : Bool} (h : c.peek? = none) (acc : List Char) (gap : Gap) :
    readPlain? inFlow indent n acc gap c = some (acc.reverse, gap.broken, c) := by
  cases n with
  | zero => rfl
  | succ n => rw [readPlain?, h]

/-- Plain scalars with the same text that leave the readers abreast. -/
def AlikePlain (c₀ d₀ : Cursor) (a b : List Char × Bool × Cursor) : Prop :=
  a.1 = b.1 ∧ AlikeBut a.2.1 b.2.1 a.2.2 b.2.2 ∧ Abreast c₀ d₀ a.2.2 b.2.2

variable {inFlow : Bool} {acc : List Char} {gap : Gap}

/-- Over a gap: what lies behind it is given. -/
theorem Abreast.readPlain?_gap {ch ch' : Char} (h : Abreast c₀ d₀ c d) (hc : c.peek? = some ch)
    (hd : d.peek? = some ch') (hch : (isWhite ch || isBreak ch) = true)
    (hch' : (isWhite ch' || isBreak ch') = true)
    (ih : ∀ (g : Gap) (c' d' : Cursor), Abreast c₀ d₀ c' d' →
      c'.rest.length < c.rest.length → d'.rest.length < d.rest.length →
        Option.Rel (AlikePlain c₀ d₀) (readPlain? inFlow indent n acc g c')
          (readPlain? inFlow indent m acc g d')) :
    Option.Rel (AlikePlain c₀ d₀) (readPlain? inFlow indent (n + 1) acc gap c)
      (readPlain? inFlow indent (m + 1) acc gap d) := by
  simp only [readPlain?, hc, hd, hch, hch', ↓reduceIte]
  rcases h.gap indent hc hd hch hch' with
    ⟨hx, hy⟩ | ⟨g, g', c', d', hx, hy, h', hg, hleft, hleft'⟩
  · simp only [hx, hy]
    exact .none
  · simp only [hx, hy]
    by_cases hended : Ended c' d'
    · rw [readPlain?_of_end hended.full, readPlain?_of_end hended.cut, ite_self, ite_self]
      exact .some ⟨rfl, .inr hended, h'⟩
    · obtain rfl : g = g' := hg.resolve_right hended
      rw [(h'.place.resolve_right hended).column, h'.atDocumentMark, h'.holds (by decide)]
      split
      · exact .some ⟨rfl, .inl rfl, h'⟩
      · exact ih g c' d' h' hleft hleft'

theorem Abreast.readPlain? (h : Abreast c₀ d₀ c d) (hn : c.rest.length ≤ n)
    (hm : d.rest.length ≤ m) :
    Option.Rel (AlikePlain c₀ d₀) (Yaml.readPlain? inFlow indent n acc gap c)
      (Yaml.readPlain? inFlow indent m acc gap d) := by
  induction n generalizing m acc gap c d with
  | zero =>
    have hended := h.ended_of_left hn
    rw [readPlain?_of_end hended.full, readPlain?_of_end hended.cut]
    exact .some ⟨rfl, .inl rfl, h⟩
  | succ n ih =>
    cases h.here with
    | ended hended =>
      rw [readPlain?_of_end hended.full, readPlain?_of_end hended.cut]
      exact .some ⟨rfl, .inl rfl, h⟩
    | last ch hc hch hd hchars hended after =>
      obtain ⟨g, hg⟩ := readGap?_last indent {} hc hch hended.full
      simp only [Yaml.readPlain?, hc, hch, Bool.or_true, ↓reduceIte, hg]
      rw [readPlain?_of_end hended.full, ite_self, readPlain?_of_end hd]
      exact .some ⟨rfl, .inr hended, after⟩
    | «break» ch ch' hc hch hd hch' =>
      have hleft' := left_nextLine hd hch'
      obtain ⟨m, rfl⟩ : ∃ k, m = k + 1 := ⟨m - 1, by omega⟩
      exact h.readPlain?_gap hc hd (by rw [hch, Bool.or_true]) (by rw [hch', Bool.or_true])
        fun _ c' d' h' _ _ => ih h' (by omega) (by omega)
    | char ch hc hd hch after =>
      have hleft' := left_next hd
      obtain ⟨m, rfl⟩ : ∃ k, m = k + 1 := ⟨m - 1, by omega⟩
      cases hwhite : isWhite ch with
      | true =>
        exact h.readPlain?_gap hc hd (by rw [hwhite, Bool.true_or]) (by rw [hwhite, Bool.true_or])
          fun _ c' d' h' _ _ => ih h' (by omega) (by omega)
      | false =>
        have hleft := left_next hc
        simp only [Yaml.readPlain?, hc, hd, hwhite, hch, Bool.or_self, Bool.false_eq_true,
          ↓reduceIte, h.endsPlain? inFlow]
        split
        · exact .none
        · exact .some ⟨rfl, .inl rfl, h⟩
        · exact ih after (by omega) (by omega)

/-! ### Quoted scalars -/

theorem Abreast.readHex? (h : Abreast c₀ d₀ c d) (k value : Nat) :
    Option.Rel (Alike c₀ d₀) (Yaml.readHex? k value c) (Yaml.readHex? k value d) := by
  have hhex : ∀ ch, isBreak ch = true → hexValue? ch = none := none_of_break (by decide)
  induction k generalizing value c d with
  | zero => exact .some ⟨rfl, h⟩
  | succ k ih =>
    rw [Yaml.readHex?, Yaml.readHex?, ← h.bind_peek? hhex]
    cases hx : c.peek?.bind hexValue? with
    | none => exact .none
    | some digit => exact ih (h.next_of_bind hhex hx) _

theorem Abreast.readEscape? (h : Abreast c₀ d₀ c.next d.next) :
    Option.Rel (Alike c₀ d₀) (Yaml.readEscape? c) (Yaml.readEscape? d) := by
  have hescape : ∀ ch, isBreak ch = true → escapeOf? ch = none := none_of_break (by decide)
  have hsame : (c.ahead? 1).bind escapeOf? = (d.ahead? 1).bind escapeOf? := h.bind_peek? hescape
  rw [Yaml.readEscape?, Yaml.readEscape?, ← hsame]
  cases hx : (c.ahead? 1).bind escapeOf? with
  | none => exact .none
  | some e =>
    have hnext : Abreast c₀ d₀ c.next.next d.next.next := h.next_of_bind hescape hx
    cases e with
    | inl ch => exact .some ⟨rfl, hnext⟩
    | inr digits =>
      dsimp only
      rcases rel_cases (hnext.readHex? digits 0) with
        ⟨hx, hy⟩ | ⟨⟨value, c'⟩, ⟨_, d'⟩, hx, hy, rfl, h'⟩
      · rw [hx, hy]
        exact .none
      · rw [hx, hy]
        dsimp only
        split
        · exact .none
        · exact .some ⟨rfl, h'⟩

theorem readQuoted?_of_end {single : Bool} (h : c.peek? = none) (acc : List Char) :
    readQuoted? single n acc c = none := by
  cases n with
  | zero => rfl
  | succ n => rw [readQuoted?, h]

variable {single : Bool}

/-- Over a gap: what lies behind it is given. -/
theorem Abreast.readQuoted?_gap {ch ch' : Char} (h : Abreast c₀ d₀ c d) (hc : c.peek? = some ch)
    (hd : d.peek? = some ch') (hch : (isWhite ch || isBreak ch) = true)
    (hch' : (isWhite ch' || isBreak ch') = true)
    (ih : ∀ (acc : List Char) (c' d' : Cursor), Abreast c₀ d₀ c' d' →
      c'.rest.length < c.rest.length → d'.rest.length < d.rest.length →
        Option.Rel (Alike c₀ d₀) (readQuoted? single n acc c') (readQuoted? single m acc d')) :
    Option.Rel (Alike c₀ d₀) (readQuoted? single (n + 1) acc c)
      (readQuoted? single (m + 1) acc d) := by
  simp only [readQuoted?, hc, hd, hch, hch', ↓reduceIte, h.atDocumentMark]
  split
  · exact .none
  · rcases h.gap 0 hc hd hch hch' with
      ⟨hx, hy⟩ | ⟨g, g', c', d', hx, hy, h', hg, hleft, hleft'⟩
    · simp only [hx, hy]
      exact .none
    · simp only [hx, hy]
      rcases hg with rfl | hended
      · exact ih _ c' d' h' hleft hleft'
      · rw [readQuoted?_of_end hended.full, readQuoted?_of_end hended.cut]
        exact .none

section Escapes

variable {acc : List Char}

/-- An escaped line break joins the lines. -/
theorem readQuoted?_joined (hc : c.peek? = some '\\') (hmark : c.atDocumentMark = false)
    (hbreak : c.next.test 0 isBreak = true) :
    readQuoted? false (n + 1) acc c =
      (readGap? 0 (c.chars.size - c.pos) { broken := true } c.next.nextLine).bind fun x =>
        readQuoted? false n (x.1.chars.reverse ++ acc) x.2 := by
  have hquote : (('\\' : Char) == '"') = false := by decide
  have hplain : (isWhite '\\' || isBreak '\\') = false := by decide
  have hnext : c.test 1 isBreak = true := hbreak
  simp only [readQuoted?, hc, hmark, hplain, hquote, hnext, Bool.false_and, Bool.false_eq_true,
    ↓reduceIte, Bool.not_false, Bool.true_and, beq_self_eq_true]
  cases readGap? 0 (c.chars.size - c.pos) { broken := true } c.next.nextLine <;> rfl

theorem readQuoted?_escaped (hc : c.peek? = some '\\') (hmark : c.atDocumentMark = false)
    (hbreak : c.next.test 0 isBreak = false) :
    readQuoted? false (n + 1) acc c =
      (readEscape? c).bind fun x => readQuoted? false n (x.1 :: acc) x.2 := by
  have hquote : (('\\' : Char) == '"') = false := by decide
  have hplain : (isWhite '\\' || isBreak '\\') = false := by decide
  have hnext : c.test 1 isBreak = false := hbreak
  simp only [readQuoted?, hc, hmark, hplain, hquote, hnext, Bool.false_and, Bool.false_eq_true,
    ↓reduceIte, Bool.not_false, Bool.true_and, beq_self_eq_true]
  cases readEscape? c <;> rfl

theorem readQuoted?_of_mark {ch : Char} (hc : c.peek? = some ch) (hmark : c.atDocumentMark = true) :
    readQuoted? single (n + 1) acc c = none := by
  simp only [readQuoted?, hc, hmark, ↓reduceIte]

/-- Over an escape: what lies behind it is given. -/
theorem Abreast.readQuoted?_escape (h : Abreast c₀ d₀ c d) (hc : c.peek? = some '\\')
    (hd : d.peek? = some '\\') (after : Abreast c₀ d₀ c.next d.next)
    (ih : ∀ (acc : List Char) (c' d' : Cursor), Abreast c₀ d₀ c' d' →
      c'.rest.length < c.rest.length → d'.rest.length < d.rest.length →
        Option.Rel (Alike c₀ d₀) (readQuoted? false n acc c') (readQuoted? false m acc d')) :
    Option.Rel (Alike c₀ d₀) (readQuoted? false (n + 1) acc c)
      (readQuoted? false (m + 1) acc d) := by
  have hleft := left_next hc
  have hleft' := left_next hd
  cases hmark : c.atDocumentMark with
  | true =>
    rw [readQuoted?_of_mark hc hmark, readQuoted?_of_mark hd (h.atDocumentMark ▸ hmark)]
    exact .none
  | false =>
    have hmark' : d.atDocumentMark = false := h.atDocumentMark ▸ hmark
    have hescape : Option.Rel (Alike c₀ d₀)
        ((Yaml.readEscape? c).bind fun x => readQuoted? false n (x.1 :: acc) x.2)
        ((Yaml.readEscape? d).bind fun x => readQuoted? false m (x.1 :: acc) x.2) := by
      refine rel_bind after.start.readEscape? ?_
      rintro ⟨e, c'⟩ ⟨_, d'⟩ ⟨rfl, h' : Abreast c.next d.next c' d'⟩
      have hfull := h'.full.left
      have hcut := h'.cut.left
      exact ih _ c' d' (after.trans h') (by omega) (by omega)
    -- what stands behind the mark decides
    cases after.here with
    | ended hended =>
      rw [readQuoted?_escaped hc hmark (test_none hended.full),
        readQuoted?_escaped hd hmark' (test_none hended.cut)]
      exact hescape
    | last ch₁ hc₁ hch₁ hd₁ hchars hended =>
      have hahead : d.ahead? 1 = none := hd₁
      rw [readQuoted?_joined hc hmark (by rw [test_some hc₁, hch₁]),
        readQuoted?_escaped hd hmark' (test_none hd₁), readGap?_of_end hended.full,
        Yaml.readEscape?, hahead, Option.bind_some, readQuoted?_of_end hended.full]
      exact .none
    | «break» ch₁ ch₁' hc₁ hch₁ hd₁ hch₁' hchars hline =>
      have hline₁ := left_nextLine hc₁ hch₁
      have hline₁' := left_nextLine hd₁ hch₁'
      have hfuel := rest_le c
      have hfuel' := rest_le d
      rw [readQuoted?_joined hc hmark (by rw [test_some hc₁, hch₁]),
        readQuoted?_joined hd hmark' (by rw [test_some hd₁, hch₁'])]
      refine rel_bind (hline.start.readGap? 0 _ (by omega) (by omega)) ?_
      rintro ⟨g, c'⟩ ⟨g', d'⟩ ⟨hg, h' : Abreast _ _ c' d'⟩
      have hfull := h'.full.left
      have hcut := h'.cut.left
      rcases hg with rfl | hended
      · exact ih _ c' d' (hline.trans h') (by omega) (by omega)
      · rw [readQuoted?_of_end hended.full, readQuoted?_of_end hended.cut]
        exact .none
    | char ch₁ hc₁ hd₁ hch₁ =>
      rw [readQuoted?_escaped hc hmark (by rw [test_some hc₁, hch₁]),
        readQuoted?_escaped hd hmark' (by rw [test_some hd₁, hch₁])]
      exact hescape

end Escapes

theorem Abreast.readQuoted? (h : Abreast c₀ d₀ c d) (hn : c.rest.length < n)
    (hm : d.rest.length < m) :
    Option.Rel (Alike c₀ d₀) (Yaml.readQuoted? single n acc c)
      (Yaml.readQuoted? single m acc d) := by
  induction n generalizing m acc c d with
  | zero => exact absurd hn (Nat.not_lt_zero _)
  | succ n ih =>
    obtain ⟨m, rfl⟩ : ∃ k, m = k + 1 := ⟨m - 1, by omega⟩
    cases h.here with
    | ended hended =>
      rw [readQuoted?_of_end hended.full, readQuoted?_of_end hended.cut]
      exact .none
    | last ch hc hch hd hchars hended after =>
      obtain ⟨g, hg⟩ := readGap?_last 0 {} hc hch hended.full
      simp only [Yaml.readQuoted?, hc, hd, hch, Bool.or_true, ↓reduceIte, hg,
        readQuoted?_of_end hended.full, ite_self]
      exact .none
    | «break» ch ch' hc hch hd hch' =>
      exact h.readQuoted?_gap hc hd (by rw [hch, Bool.or_true]) (by rw [hch', Bool.or_true])
        fun _ c' d' h' _ _ => ih h' (by omega) (by omega)
    | char ch hc hd hch after =>
      have hleft := left_next hc
      have hleft' := left_next hd
      cases hwhite : isWhite ch with
      | true =>
        exact h.readQuoted?_gap hc hd (by rw [hwhite, Bool.true_or]) (by rw [hwhite, Bool.true_or])
          fun _ c' d' h' _ _ => ih h' (by omega) (by omega)
      | false =>
        have hgo : ∀ acc, Option.Rel (Alike c₀ d₀) (Yaml.readQuoted? single n acc c.next)
            (Yaml.readQuoted? single m acc d.next) := fun acc => ih after (by omega) (by omega)
        by_cases hescape : single = false ∧ ch = '\\'
        · obtain ⟨rfl, rfl⟩ := hescape
          exact h.readQuoted?_escape hc hd after fun _ c' d' h' _ _ => ih h' (by omega) (by omega)
        · have hnot : (!single && ch == '\\') = false := by
            simpa using hescape
          have hquote : c.holds 1 '\'' = d.holds 1 '\'' := after.holds (by decide)
          simp only [Yaml.readQuoted?, hc, hd, hwhite, hch, Bool.or_self, Bool.false_eq_true,
            ↓reduceIte, h.atDocumentMark, hnot, hquote]
          generalize (if single = true then '\'' else '"') = quote
          split
          · exact .none
          · split
            · rename_i htwice
              have hsecond : c.next.holds 0 '\'' = true :=
                hquote.trans (Bool.and_eq_true_iff.1 htwice).2
              obtain ⟨hnext, hleft₂, hleft₂'⟩ := after.next_of_holds (by decide) hsecond
              exact ih hnext (by omega) (by omega)
            · split
              · exact .some ⟨rfl, after⟩
              · exact hgo _

/-! ### Indentation and empty lines -/

/-- In the indentation both see a space or a tab, or neither. -/
theorem Abreast.inIndent {x : Char} (h : Abreast c₀ d₀ c d) (indent : Nat)
    (hx : isBreak x = false) :
    ((indent == 0 || decide (c.column < indent)) && c.holds 0 x) =
      ((indent == 0 || decide (d.column < indent)) && d.holds 0 x) := by
  rcases h.place with hlevel | hended
  · rw [hlevel.column, h.holds hx]
  · rw [holds_none hended.full, holds_none hended.cut, Bool.and_false, Bool.and_false]

theorem skipIndent_stop
    (h : ((indent == 0 || decide (c.column < indent)) && c.holds 0 ' ') = false) (n : Nat) :
    skipIndent indent n c = c := by
  cases n with
  | zero => rfl
  | succ n =>
    rw [skipIndent, h]
    rfl

theorem Abreast.skipIndent (h : Abreast c₀ d₀ c d) (hn : c.rest.length ≤ n)
    (hm : d.rest.length ≤ m) :
    Abreast c₀ d₀ (Yaml.skipIndent indent n c) (Yaml.skipIndent indent m d) := by
  have hin := h.inIndent indent (x := ' ') (by decide)
  induction n generalizing m c d with
  | zero =>
    have hc : ((indent == 0 || decide (c.column < indent)) && c.holds 0 ' ') = false := by
      rw [holds_none (h.ended_of_left hn).full, Bool.and_false]
    rwa [skipIndent_stop hc, skipIndent_stop (hin ▸ hc)]
  | succ n ih =>
    cases hc : (indent == 0 || decide (c.column < indent)) && c.holds 0 ' ' with
    | false => rwa [skipIndent_stop hc, skipIndent_stop (hin ▸ hc)]
    | true =>
      obtain ⟨hnext, hleft, hleft'⟩ :=
        h.next_of_holds (by decide) (Bool.and_eq_true_iff.1 hc).2
      obtain ⟨m, rfl⟩ : ∃ k, m = k + 1 := ⟨m - 1, by omega⟩
      rw [Yaml.skipIndent, Yaml.skipIndent, ← hin, hc]
      exact ih hnext (by omega) (by omega) (hnext.inIndent indent (by decide))

theorem readBreaks?_of_end (h : c.peek? = none) (indent : Nat) (breaks : List Char)
    (deepest : Nat) :
    ∃ k, readBreaks? indent n breaks deepest c = some (breaks, k, c) := by
  cases n with
  | zero => exact ⟨deepest, rfl⟩
  | succ n =>
    have hstop : skipIndent indent (c.chars.size - c.pos) c = c :=
      skipIndent_stop (by rw [holds_none h, Bool.and_false]) _
    refine ⟨max deepest c.column, ?_⟩
    simp [readBreaks?, hstop, holds_none h, test_none h]

/-- Empty lines that leave the readers abreast and at no break.  The one may have the last break
more; then the texts are at their ends. -/
structure AlikeBreaks (c₀ d₀ : Cursor) (a b : List Char × Nat × Cursor) : Prop where
  after : Abreast c₀ d₀ a.2.2 b.2.2
  noBreak : a.2.2.test 0 isBreak = false
  same : (a.1 = b.1 ∧ a.2.1 = b.2.1) ∨
    (Ended a.2.2 b.2.2 ∧ (a.1 = b.1 ∨ a.1 = b.1 ++ ['\n']))

theorem Abreast.readBreaks? (h : Abreast c₀ d₀ c d) (indent : Nat) (breaks : List Char)
    (deepest : Nat) (hn : c.rest.length < n)
    (hm : d.rest.length < m) :
    Option.Rel (AlikeBreaks c₀ d₀) (Yaml.readBreaks? indent n breaks deepest c)
      (Yaml.readBreaks? indent m breaks deepest d) := by
  induction n generalizing m breaks deepest c d with
  | zero => exact absurd hn (Nat.not_lt_zero _)
  | succ n ih =>
    obtain ⟨m, rfl⟩ : ∃ k, m = k + 1 := ⟨m - 1, by omega⟩
    unfold Yaml.readBreaks?
    extract_lets c₁ deepest₁ d₁ deepest₂
    have hskip : Abreast c d c₁ d₁ := h.start.skipIndent (rest_le c) (rest_le d)
    have hleft := hskip.full.left
    have hleft' := hskip.cut.left
    have h₁ : Abreast c₀ d₀ c₁ d₁ := h.trans hskip
    rw [← h₁.inIndent indent (by decide)]
    split
    · exact .none
    · cases h₁.here with
      | ended hended =>
        rw [test_none hended.full, test_none hended.cut]
        exact .some ⟨h₁, test_none hended.full, .inr ⟨hended, .inl rfl⟩⟩
      | last ch hc hch hd hchars hended after =>
        rw [test_some hc, hch, test_none hd, hchars, if_pos rfl, if_neg Bool.false_ne_true]
        obtain ⟨k, hend⟩ := readBreaks?_of_end (n := n) hended.full indent
          (breaks ++ ['\n']) deepest₁
        rw [hend]
        exact .some ⟨after, test_none hended.full, .inr ⟨hended, .inr rfl⟩⟩
      | «break» ch ch' hc hch hd hch' hchars after hcolumn =>
        have hdeepest : deepest₁ = deepest₂ := congrArg (max deepest) hcolumn
        have hline := left_nextLine hc hch
        have hline' := left_nextLine hd hch'
        rw [test_some hc, hch, test_some hd, hch', if_pos rfl, if_pos rfl, hchars, hdeepest]
        exact ih after _ _ (by omega) (by omega)
      | char ch hc hd hch after hcolumn =>
        have hdeepest : deepest₁ = deepest₂ := congrArg (max deepest) hcolumn
        rw [test_some hc, hch, test_some hd, hch, if_neg Bool.false_ne_true]
        exact .some ⟨h₁, (test_some hc).trans hch, .inl ⟨rfl, hdeepest⟩⟩

/-! ### Block scalars -/

/-- Marks of block scalars that say the same and leave the readers abreast. -/
def AlikeMarks (c₀ d₀ : Cursor) (a b : Chomp × Nat × Cursor) : Prop :=
  a.1 = b.1 ∧ a.2.1 = b.2.1 ∧ Abreast c₀ d₀ a.2.2 b.2.2

/-- A digit but zero may follow; a zero is refused. -/
theorem Abreast.digit {α β : Type} {R : α → β → Prop} {x : Char → Option α} {y : Option α}
    {x' : Char → Option β} {y' : Option β} (h : Abreast c₀ d₀ c d)
    (hx : ∀ ch, Abreast c₀ d₀ c.next d.next → Option.Rel R (x ch) (x' ch))
    (hy : Option.Rel R y y') :
    Option.Rel R
      (match c.peek? with
        | some ch => if ch == '0' then none else if isDigit ch then x ch else y
        | none => y)
      (match d.peek? with
        | some ch => if ch == '0' then none else if isDigit ch then x' ch else y'
        | none => y') := by
  have hzero : ∀ ch, isBreak ch = true → (ch == '0') = false := false_of_break (by decide)
  have hdigit : ∀ ch, isBreak ch = true → isDigit ch = false := false_of_break (by decide)
  cases h.here with
  | ended hended =>
    rw [hended.full, hended.cut]
    exact hy
  | last ch hc hch hd =>
    simp only [hc, hd, hzero ch hch, hdigit ch hch, Bool.false_eq_true, ↓reduceIte]
    exact hy
  | «break» ch ch' hc hch hd hch' =>
    simp only [hc, hd, hzero ch hch, hdigit ch hch, hzero ch' hch', hdigit ch' hch',
      Bool.false_eq_true, ↓reduceIte]
    exact hy
  | char ch hc hd hch after =>
    simp only [hc, hd]
    split
    · exact .none
    · split
      · exact hx ch after
      · exact hy

theorem Abreast.readBlockMarks? (h : Abreast c₀ d₀ c d) :
    Option.Rel (AlikeMarks c₀ d₀) (Yaml.readBlockMarks? c) (Yaml.readBlockMarks? d) := by
  unfold Yaml.readBlockMarks?
  extract_lets chompOf c₁ d₁
  have hchomp : ∀ ch, isBreak ch = true → chompOf ch = none := none_of_break (by decide)
  rw [← h.bind_peek? hchomp]
  cases hmark : c.peek?.bind chompOf with
  | some chomp =>
    have h₁ : Abreast c₀ d₀ c₁ d₁ := h.next_of_bind hchomp hmark
    exact h₁.digit (fun ch after => .some ⟨rfl, rfl, after⟩) (.some ⟨rfl, rfl, h₁⟩)
  | none =>
    refine h.digit (fun ch after => ?_) (.some ⟨rfl, rfl, h⟩)
    rw [← after.bind_peek? hchomp]
    cases hmark : c.next.peek?.bind chompOf with
    | none => exact .some ⟨rfl, rfl, after⟩
    | some chomp => exact .some ⟨rfl, rfl, after.next_of_bind hchomp hmark⟩

theorem readBlockLines?_of_end {literal : Bool} (h : c.peek? = none) (t : BlockText) :
    readBlockLines? literal indent n t c = some (t, c) := by
  cases n with
  | zero => rfl
  | succ n => simp [readBlockLines?, h]

/-- Block text with a last line break that the other lacks. -/
structure BreakMore (t t' : BlockText) : Prop where
  chars : t.chars = t'.chars
  breaks : (t.lead = t'.lead ∧ t.more = t'.more ++ ['\n']) ∨
    (t.lead = ['\n'] ∧ t.more = [] ∧ t'.lead = [] ∧ t'.more = [])

/-- Block texts that leave the readers abreast. -/
def AlikeBlock (c₀ d₀ : Cursor) (a b : BlockText × Cursor) : Prop :=
  Abreast c₀ d₀ a.2 b.2 ∧ (a.1 = b.1 ∨ (Ended a.2 b.2 ∧ BreakMore a.1 b.1))

/-- At the end of a line both see the same break, or the one sees the last. -/
theorem Abreast.lineEnd {a b : Cursor} (h : Abreast c d a b)
    (hstop : a.test 0 (!isBreak ·) = false) :
    a.breakChars = b.breakChars ∨
      (Ended a.nextLine b ∧ a.breakChars = ['\n'] ∧ b.breakChars = []) := by
  cases h.here with
  | ended hended => exact .inl (by rw [breakChars, breakChars, hended.full, hended.cut])
  | last ch ha hch hb hchars hended =>
    exact .inr ⟨hended, hchars, by rw [breakChars, hb]⟩
  | «break» ch ch' ha hch hb hch' hchars => exact .inl hchars
  | char ch ha hb hch =>
    rw [test_some ha, hch] at hstop
    cases hstop

/-- What two readers find behind a line with these characters. -/
structure LineEnd (a b c' d' : Cursor) (more more' : List Char) : Prop where
  after : Abreast a b c' d'
  noBreak : c'.test 0 isBreak = false
  same : (a.breakChars = b.breakChars ∧ more = more') ∨
    (Ended c' d' ∧ ∀ chars white,
      BreakMore ⟨chars, a.breakChars, more, white⟩ ⟨chars, b.breakChars, more', white⟩)

theorem Abreast.readLineEnd {a b : Cursor} (h : Abreast c d a b) (indent : Nat)
    (hstop : a.test 0 (!isBreak ·) = false) (hn : a.rest.length < n) (hm : b.rest.length < m) :
    Option.Rel (fun x y => LineEnd a b x.2.2 y.2.2 x.1 y.1)
      (Yaml.readBreaks? indent n [] 0 a.nextLine) (Yaml.readBreaks? indent m [] 0 b.nextLine) := by
  have hnext := h.start.nextLine
  rcases h.lineEnd hstop with hchars | ⟨hended, hchars, hchars'⟩
  · have hleft := hnext.full.left
    have hleft' := hnext.cut.left
    rcases rel_cases (hnext.readBreaks? indent [] 0 (n := n) (m := m) (by omega) (by omega)) with
      ⟨hx, hy⟩ | ⟨x, y, hx, hy, hafter, hnoBreak, hsame⟩
    · rw [hx, hy]
      exact .none
    · rw [hx, hy]
      refine .some ⟨hafter, hnoBreak, ?_⟩
      rcases hsame with ⟨hsame, -⟩ | ⟨hended, hsame | hmore⟩
      · exact .inl ⟨hchars, hsame⟩
      · exact .inl ⟨hchars, hsame⟩
      · exact .inr ⟨hended, fun _ _ => ⟨rfl, .inl ⟨hchars, hmore⟩⟩⟩
  · rw [nextLine_of_end hended.cut] at hnext ⊢
    obtain ⟨k, hx⟩ := readBreaks?_of_end (n := n) hended.full indent [] 0
    obtain ⟨k', hy⟩ := readBreaks?_of_end (n := m) hended.cut indent [] 0
    rw [hx, hy]
    exact .some ⟨hnext, test_none hended.full,
      .inr ⟨hended, fun _ _ => ⟨rfl, .inr ⟨hchars, rfl, hchars', rfl⟩⟩⟩⟩

/-- Adds a line: its characters, whether it began with whitespace, the break that ended it, and
the empty lines after it. -/
def BlockText.addLine (t : BlockText) (literal : Bool) (line : List Char) (white : Bool)
    (lead more : List Char) : BlockText :=
  let joined :=
    if !literal && t.lead.head? == some '\n' && !t.startsWhite && !white then
      (if t.more.isEmpty then [' '] else []) ++ t.more
    else t.lead ++ t.more
  ⟨line.reverse ++ (joined.reverse ++ t.chars), lead, more, white⟩

/-- One line, then the others. -/
theorem readBlockLines?_line {literal : Bool} {t : BlockText}
    (h : (c.column == indent && c.peek?.isSome) = true) :
    readBlockLines? literal indent (n + 1) t c =
      (readBreaks? indent (c.chars.size - c.pos + 1) [] 0
        (c.takeWhile (!isBreak ·)).2.nextLine).bind fun x =>
          readBlockLines? literal indent n
            (t.addLine literal (c.takeWhile (!isBreak ·)).1 (c.test 0 isWhite)
              (c.takeWhile (!isBreak ·)).2.breakChars x.1) x.2.2 := by
  rw [readBlockLines?, h]
  dsimp only
  cases readBreaks? indent (c.chars.size - c.pos + 1) [] 0
    (c.takeWhile (!isBreak ·)).2.nextLine <;> rfl

theorem Abreast.readBlockLines? {literal : Bool} {t : BlockText} (h : Abreast c₀ d₀ c d)
    (hbreak : c.test 0 isBreak = false) (hn : c.rest.length ≤ n) (hm : d.rest.length ≤ m) :
    Option.Rel (AlikeBlock c₀ d₀) (Yaml.readBlockLines? literal indent n t c)
      (Yaml.readBlockLines? literal indent m t d) := by
  induction n generalizing m t c d with
  | zero =>
    have hended := h.ended_of_left hn
    rw [readBlockLines?_of_end hended.full, readBlockLines?_of_end hended.cut]
    exact .some ⟨h, .inl rfl⟩
  | succ n ih =>
    cases h.here with
    | ended hended =>
      rw [readBlockLines?_of_end hended.full, readBlockLines?_of_end hended.cut]
      exact .some ⟨h, .inl rfl⟩
    | last ch hc hch => rw [test_some hc, hch] at hbreak; cases hbreak
    | «break» ch ch' hc hch => rw [test_some hc, hch] at hbreak; cases hbreak
    | char ch hc hd hch after hcolumn =>
      have hleft' := left_next hd
      obtain ⟨m, rfl⟩ : ∃ k, m = k + 1 := ⟨m - 1, by omega⟩
      cases hin : c.column == indent with
      | false =>
        have hin' : (d.column == indent) = false := hcolumn ▸ hin
        rw [Yaml.readBlockLines?, Yaml.readBlockLines?, hin, hin', Bool.false_and, Bool.false_and]
        exact .some ⟨h, .inl rfl⟩
      | true =>
        have hin' : (d.column == indent) = true := hcolumn ▸ hin
        have hwhite : c.test 0 isWhite = d.test 0 isWhite := h.test white_noBreak
        obtain ⟨hline, hends⟩ := h.start.takeWhile (p := (!isBreak ·)) (false_of_break (by decide))
        have hstop := takeWhile_stop c (!isBreak ·)
        have hleft := takeWhile_left (c := c) (p := (!isBreak ·)) (by rw [test_some hc, hch]; rfl)
        have hleft' := takeWhile_left (c := d) (p := (!isBreak ·)) (by rw [test_some hd, hch]; rfl)
        rw [readBlockLines?_line (by rw [hin, hc]; rfl),
          readBlockLines?_line (by rw [hin', hd]; rfl), ← hline, ← hwhite]
        generalize (c.takeWhile (!isBreak ·)).1 = line, (c.takeWhile (!isBreak ·)).2 = a,
          (d.takeWhile (!isBreak ·)).2 = b at hends hstop hleft hleft' ⊢
        have hfuel := rest_le c
        have hfuel' := rest_le d
        refine rel_bind (hends.readLineEnd indent hstop (by omega) (by omega)) ?_
        rintro ⟨more, k, c'⟩ ⟨more', k', d'⟩ ⟨hafter, hnoBreak, hsame⟩
        have h' : Abreast c₀ d₀ c' d' := h.trans (hends.trans hafter)
        have hrest : c'.rest.length ≤ a.rest.length := hafter.full.left
        have hrest' : d'.rest.length ≤ b.rest.length := hafter.cut.left
        dsimp only at hsame ⊢
        rcases hsame with ⟨hchars, rfl⟩ | ⟨hended, hmore⟩
        · rw [hchars]
          exact ih h' hnoBreak (by omega) (by omega)
        · rw [readBlockLines?_of_end hended.full, readBlockLines?_of_end hended.cut]
          exact .some ⟨h', .inr ⟨hended, hmore _ _⟩⟩

/-- The text of a block scalar whose end is kept in the given way. -/
def BlockText.text (t : BlockText) (chomp : Chomp) : List Char :=
  t.chars.reverse ++ match chomp with
    | .strip => []
    | .clip => t.lead
    | .keep => t.lead ++ t.more

/-- A block scalar with all of its lines, and the place behind it. -/
structure BlockScalar where
  chomp : Chomp
  lines : BlockText
  after : Cursor

namespace BlockScalar

def text (b : BlockScalar) : List Char :=
  b.lines.text b.chomp

/-- Whether the scalar goes on to the end of the text and keeps its last line break. -/
def keepsLastBreak (b : BlockScalar) : Bool :=
  b.after.peek?.isNone && match b.chomp with
    | .strip => false
    | .clip => !b.lines.lead.isEmpty && b.lines.more.isEmpty
    | .keep => !(b.lines.lead ++ b.lines.more).isEmpty

/-- Reads a block scalar whose `|` or `>` has been passed, with all of its lines. -/
def read? (literal : Bool) (parent : Int) (c : Cursor) : Option BlockScalar := do
  let (chomp, increment, c) ← readBlockMarks? c
  let c ← c.skipRestOfLine?
  let given := if increment == 0 then 0 else (max parent 0).toNat + increment
  let fuel := c.chars.size - c.pos + 1
  let (more, deepest, c) ← readBreaks? given fuel [] 0 c
  let indent := if given == 0 then max deepest (max (parent + 1).toNat 1) else given
  let (lines, after) ← readBlockLines? literal indent fuel { more } c
  some ⟨chomp, lines, after⟩

theorem readBlockScalar?_eq (literal : Bool) (parent : Int) (c : Cursor) :
    readBlockScalar? literal parent c =
      (read? literal parent c).map fun b => (b.text, b.after) := by
  simp only [readBlockScalar?, read?, Option.bind_eq_bind, Option.map_bind, Function.comp_def,
    Option.map_some]
  rfl

end BlockScalar

/-- Scalars with the same text, unless the one keeps the last line break. -/
def AlikeScalar (c₀ d₀ : Cursor) (a b : BlockScalar) : Prop :=
  Abreast c₀ d₀ a.after b.after ∧ (a.text = b.text ∨ a.keepsLastBreak = true)

/-- The last break does not count if it is not kept. -/
theorem BreakMore.text_eq_or {t t' : BlockText} (h : BreakMore t t') (chomp : Chomp)
    (hc : c.peek? = none) :
    t.text chomp = t'.text chomp ∨ (BlockScalar.mk chomp t c).keepsLastBreak = true := by
  unfold BlockText.text BlockScalar.keepsLastBreak
  rw [h.chars, hc]
  rcases h.breaks with ⟨hlead, hmore⟩ | ⟨hlead, hmore, hlead', hmore'⟩
  · rw [hlead, hmore]
    cases chomp with
    | strip => exact .inl rfl
    | clip => exact .inl rfl
    | keep => exact .inr (by simp)
  · rw [hlead, hmore, hlead', hmore']
    cases chomp with
    | strip => exact .inl rfl
    | clip => exact .inr rfl
    | keep => exact .inr rfl

theorem Abreast.readBlockScalar? {literal : Bool} {parent : Int} (h : Abreast c₀ d₀ c d) :
    Option.Rel (AlikeScalar c₀ d₀) (BlockScalar.read? literal parent c)
      (BlockScalar.read? literal parent d) := by
  unfold BlockScalar.read?
  refine rel_bind h.readBlockMarks? ?_
  rintro ⟨chomp, increment, c₁⟩ ⟨_, _, d₁⟩ ⟨rfl, rfl, h₁⟩
  refine rel_bind h₁.skipRestOfLine? fun c₂ d₂ h₂ => ?_
  have hfuel := rest_le c₂
  have hfuel' := rest_le d₂
  refine rel_bind (h₂.start.readBreaks? _ [] 0 (by omega) (by omega)) ?_
  rintro ⟨more, deepest, c₃⟩ ⟨more', deepest', d₃⟩ ⟨hafter, hbreak, hsame⟩
  dsimp only at hafter hbreak hsame ⊢
  have h₃ : Abreast c₀ d₀ c₃ d₃ := h₂.trans hafter
  refine rel_bind (R := AlikeBlock c₀ d₀) ?_ ?_
  · rcases hsame with ⟨rfl, rfl⟩ | ⟨hended, hmore⟩
    · have hleft := hafter.full.left
      have hleft' := hafter.cut.left
      exact h₃.readBlockLines? hbreak (by omega) (by omega)
    · rw [readBlockLines?_of_end hended.full, readBlockLines?_of_end hended.cut]
      refine .some ⟨h₃, ?_⟩
      rcases hmore with rfl | rfl
      · exact .inl rfl
      · exact .inr ⟨hended, rfl, .inl ⟨rfl, rfl⟩⟩
  · rintro ⟨t, c₄⟩ ⟨t', d₄⟩ ⟨h₄, rfl | ⟨hended, hmore⟩⟩
    · exact .some ⟨h₄, .inl rfl⟩
    · exact .some ⟨h₄, hmore.text_eq_or chomp hended.full⟩

end DocSchema.Yaml
