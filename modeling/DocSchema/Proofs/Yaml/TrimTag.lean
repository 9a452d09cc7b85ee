/-
  DocSchema/Proofs/Yaml/TrimTag.lean
  ==================================
  **Tags, anchors and directives of a YAML text and of its trimmed form.**

  None of them holds a line break, so readers that start abreast answer the same and end
  abreast.
-/
import DocSchema.Yaml.Token
import DocSchema.Proofs.Yaml.TrimScalar

namespace DocSchema.Yaml

open DocSchema.Text Cursor

variable {c₀ d₀ c d : Cursor} {n m : Nat}

/-! ### Tags -/

theorem Abreast.behind {c' d' : Cursor} (h : Abreast c.next d.next c' d') : Abreast c d c' d' :=
  ⟨(Follows.refl c).next.trans h.full, (Follows.refl d).next.trans h.cut, h.place⟩

theorem Abreast.readEscapedByte? (h : Abreast c₀ d₀ c d) :
    Option.Rel (Alike c.next d.next) (Yaml.readEscapedByte? c) (Yaml.readEscapedByte? d) := by
  rw [Yaml.readEscapedByte?, Yaml.readEscapedByte?, ← h.holds (by decide)]
  split
  · rename_i hmark
    exact (h.next_of_holds (by decide) hmark).1.start.readHex? _ _
  · exact .none

theorem Abreast.readContinuation? (h : Abreast c₀ d₀ c d) :
    Option.Rel (Alike c d) (Yaml.readContinuation? n c) (Yaml.readContinuation? n d) := by
  induction n generalizing c₀ d₀ c d with
  | zero => exact .some ⟨rfl, h.start⟩
  | succ n ih =>
    refine rel_bind h.readEscapedByte? ?_
    rintro ⟨b, c'⟩ ⟨_, d'⟩ ⟨rfl, h' : Abreast c.next d.next c' d'⟩
    dsimp only
    split
    · exact .none
    · refine rel_bind (ih h') ?_
      rintro ⟨bs, c''⟩ ⟨_, d''⟩ ⟨rfl, h''⟩
      exact .some ⟨rfl, h'.behind.trans h''⟩

theorem Abreast.readEscapedChar? (h : Abreast c₀ d₀ c d) :
    Option.Rel (Alike c.next d.next) (Yaml.readEscapedChar? c) (Yaml.readEscapedChar? d) := by
  refine rel_bind h.readEscapedByte? ?_
  rintro ⟨b, c'⟩ ⟨_, d'⟩ ⟨rfl, h' : Abreast c.next d.next c' d'⟩
  dsimp only
  split
  · exact .none
  · refine rel_bind h'.readContinuation? ?_
    rintro ⟨bs, c''⟩ ⟨_, d''⟩ ⟨rfl, h''⟩
    exact .some ⟨rfl, h'.trans h''⟩

theorem tagChar_noBreak (delimited : Bool) :
    ∀ ch, isBreak ch = true → isTagChar delimited ch = false := by
  cases delimited <;> exact false_of_break (by decide +kernel)

theorem readTagBytes?_stop {delimited : Bool}
    (h : c.test 0 (fun ch => ch == '%' || isTagChar delimited ch) = false) (acc : List UInt8) :
    readTagBytes? delimited n acc c = some (⟨acc.reverse⟩, c) := by
  cases n with
  | zero => rfl
  | succ n =>
    cases hc : c.peek? with
    | none => rw [readTagBytes?, hc]
    | some ch =>
      rw [test_some hc, Bool.or_eq_false_iff] at h
      simp only [readTagBytes?, hc, h.1, h.2, Bool.false_eq_true, ↓reduceIte]

theorem Abreast.readTagBytes? (h : Abreast c₀ d₀ c d) (delimited : Bool) (acc : List UInt8)
    (hn : c.rest.length ≤ n) (hm : d.rest.length ≤ m) :
    Option.Rel (Alike c₀ d₀) (Yaml.readTagBytes? delimited n acc c)
      (Yaml.readTagBytes? delimited m acc d) := by
  have hbreak : ∀ ch, isBreak ch = true → (ch == '%' || isTagChar delimited ch) = false :=
    fun ch hch => by rw [beq_of_noBreak (by decide) ch hch, tagChar_noBreak delimited ch hch]; rfl
  induction n generalizing m acc c d with
  | zero =>
    have hc := test_of_left (p := fun ch => ch == '%' || isTagChar delimited ch) hn
    rw [readTagBytes?_stop hc, readTagBytes?_stop (h.test hbreak ▸ hc)]
    exact .some ⟨rfl, h⟩
  | succ n ih =>
    cases hc : c.test 0 (fun ch => ch == '%' || isTagChar delimited ch) with
    | false =>
      rw [readTagBytes?_stop hc, readTagBytes?_stop (h.test hbreak ▸ hc)]
      exact .some ⟨rfl, h⟩
    | true =>
      obtain ⟨ch, hpeek, hpeek', after⟩ := h.peek?_of_test hbreak hc
      have hleft := left_next hpeek
      have hleft' := left_next hpeek'
      obtain ⟨m, rfl⟩ : ∃ k, m = k + 1 := ⟨m - 1, by omega⟩
      simp only [Yaml.readTagBytes?, hpeek, hpeek']
      split
      · rcases rel_cases h.readEscapedChar? with
          ⟨hx, hy⟩ | ⟨⟨bs, c'⟩, ⟨_, d'⟩, hx, hy, rfl, (h' : Abreast c.next d.next c' d')⟩
        · rw [hx, hy]
          exact .none
        · rw [hx, hy]
          have := h'.full.left
          have := h'.cut.left
          exact ih (after.trans h') _ (by omega) (by omega)
      · split
        · exact ih after _ (by omega) (by omega)
        · exact .some ⟨rfl, h⟩

theorem Abreast.readHandle (h : Abreast c₀ d₀ c.next d.next) :
    Alike c₀ d₀ (Yaml.readHandle c) (Yaml.readHandle d) := by
  obtain ⟨hname, hends⟩ := h.takeWhile (p := isNameChar) (false_of_break (by decide))
  unfold Yaml.readHandle
  generalize c.next.takeWhile isNameChar = x, d.next.takeWhile isNameChar = y at hname hends ⊢
  obtain ⟨name, c'⟩ := x
  obtain ⟨name', d'⟩ := y
  obtain rfl : name = name' := hname
  dsimp only at hends ⊢
  rw [← hends.holds (by decide)]
  split
  · rename_i hmark
    exact ⟨rfl, (hends.next_of_holds (by decide) hmark).1⟩
  · exact ⟨rfl, hends⟩

theorem Abreast.readTag? {inFlow : Bool} (h : Abreast c₀ d₀ c.next d.next) :
    Option.Rel (Alike c₀ d₀) (Yaml.readTag? inFlow c) (Yaml.readTag? inFlow d) := by
  unfold Yaml.readTag?
  extract_lets fuel finish fuel'
  have hfinish : ∀ t {c' d' : Cursor}, Abreast c₀ d₀ c' d' →
      Option.Rel (Alike c₀ d₀) (finish (t, c')) (finish (t, d')) := by
    intro t c' d' h'
    simp only [finish]
    rw [← h'.blankOrEnd, ← h'.holds (by decide)]
    split
    · exact .some ⟨rfl, h'⟩
    · exact .none
  have hopen : c.holds 1 '<' = d.holds 1 '<' := h.holds (by decide)
  rw [← hopen]
  split
  · rename_i hangle
    have hnext := (h.next_of_holds (by decide) hangle).1
    rcases rel_cases (hnext.readTagBytes? true [] (n := fuel) (m := fuel')
        (rest_le_size _) (rest_le_size _)) with
      ⟨hx, hy⟩ | ⟨⟨uri, c'⟩, ⟨_, d'⟩, hx, hy, rfl, (h' : Abreast c₀ d₀ c' d')⟩
    · rw [hx, hy]
      exact .none
    · rw [hx, hy]
      dsimp only
      rw [← h'.holds (by decide)]
      cases hclose : c'.holds 0 '>' with
      | false =>
        rw [Bool.not_false, Bool.or_true]
        exact .none
      | true =>
        split
        · exact .none
        · exact hfinish _ (h'.next_of_holds (by decide) hclose).1
  · have hhandle := h.start.readHandle
    generalize Yaml.readHandle c = x, Yaml.readHandle d = y at hhandle ⊢
    obtain ⟨handle, c₁⟩ := x
    obtain ⟨_, d₁⟩ := y
    obtain ⟨rfl, h₁ : Abreast c.next d.next c₁ d₁⟩ := hhandle
    have hfuel : c₁.rest.length ≤ fuel := Nat.le_trans h₁.full.left (rest_le_size c.next)
    have hfuel' : d₁.rest.length ≤ fuel' := Nat.le_trans h₁.cut.left (rest_le_size d.next)
    dsimp only
    rcases rel_cases ((h.trans h₁).readTagBytes? false [] hfuel hfuel') with
      ⟨hx, hy⟩ | ⟨⟨suffix, c'⟩, ⟨_, d'⟩, hx, hy, rfl, (h' : Abreast c₀ d₀ c' d')⟩
    · rw [hx, hy]
      exact .none
    · rw [hx, hy]
      dsimp only
      split
      · split
        · exact .none
        · exact hfinish _ h'
      · split
        · exact hfinish _ h'
        · exact hfinish _ h'

/-! ### Anchors -/

theorem Abreast.readAnchor? (h : Abreast c₀ d₀ c d) :
    Option.Rel (Alike c₀ d₀) (Yaml.readAnchor? c) (Yaml.readAnchor? d) := by
  obtain ⟨hname, hends⟩ := h.takeWhile (p := isNameChar) (false_of_break (by decide))
  unfold Yaml.readAnchor?
  generalize c.takeWhile isNameChar = x, d.takeWhile isNameChar = y at hname hends ⊢
  obtain ⟨name, c'⟩ := x
  obtain ⟨name', d'⟩ := y
  obtain rfl : name = name' := hname
  dsimp only at hends ⊢
  rw [← hends.blankOrEnd, ← hends.test (false_of_break (by decide))]
  split
  · exact .none
  · exact .some ⟨rfl, hends⟩

/-! ### Directives -/

theorem Abreast.readVersionPart? (h : Abreast c₀ d₀ c d) :
    Option.Rel (Alike c₀ d₀) (Yaml.readVersionPart? c) (Yaml.readVersionPart? d) := by
  obtain ⟨hdigits, hends⟩ := h.takeWhile (p := isDigit) (false_of_break (by decide))
  unfold Yaml.readVersionPart?
  generalize c.takeWhile isDigit = x, d.takeWhile isDigit = y at hdigits hends ⊢
  obtain ⟨digits, c'⟩ := x
  obtain ⟨digits', d'⟩ := y
  obtain rfl : digits = digits' := hdigits
  dsimp only at hends ⊢
  split
  · exact .none
  · exact .some ⟨rfl, hends⟩

theorem Abreast.readDirectiveValue? {name : List Char} (h : Abreast c₀ d₀ c d) :
    Option.Rel (Alike c₀ d₀) (Yaml.readDirectiveValue? name c)
      (Yaml.readDirectiveValue? name d) := by
  unfold Yaml.readDirectiveValue?
  split
  · refine rel_bind h.skipWhite.readVersionPart? ?_
    rintro ⟨major, c₁⟩ ⟨_, d₁⟩ ⟨rfl, h₁ : Abreast c₀ d₀ c₁ d₁⟩
    dsimp only
    rw [← h₁.holds (by decide)]
    cases hdot : c₁.holds 0 '.' with
    | false => exact .none
    | true =>
      refine rel_bind (h₁.next_of_holds (by decide) hdot).1.readVersionPart? ?_
      rintro ⟨minor, c₂⟩ ⟨_, d₂⟩ ⟨rfl, h₂⟩
      exact .some ⟨rfl, h₂⟩
  · split
    · have h₁ := h.skipWhite
      dsimp only
      rw [← h₁.holds (by decide)]
      cases hmark : c.skipWhite.holds 0 '!' with
      | false => exact .none
      | true =>
        have hhandle := (h₁.next_of_holds (by decide) hmark).1.readHandle
        generalize Yaml.readHandle c.skipWhite = x, Yaml.readHandle d.skipWhite = y at hhandle ⊢
        obtain ⟨handle, c₂⟩ := x
        obtain ⟨_, d₂⟩ := y
        obtain ⟨rfl, h₂ : Abreast c₀ d₀ c₂ d₂⟩ := hhandle
        dsimp only
        rw [← h₂.test white_noBreak]
        split
        · contradiction
        · split
          · exact .none
          · have h₃ := h₂.start.skipWhite
            refine rel_bind ((h₂.trans h₃).readTagBytes? true []
              (Nat.le_trans h₃.full.left (rest_le_size c₂))
              (Nat.le_trans h₃.cut.left (rest_le_size d₂))) ?_
            rintro ⟨target, c₃⟩ ⟨_, d₃⟩ ⟨rfl, h₄ : Abreast c₀ d₀ c₃ d₃⟩
            dsimp only
            rw [← h₄.blankOrEnd]
            split
            · exact .none
            · exact .some ⟨rfl, h₄⟩
    · exact .none

theorem Abreast.readDirective? (h : Abreast c₀ d₀ c d) :
    Option.Rel (Alike c₀ d₀) (Yaml.readDirective? c) (Yaml.readDirective? d) := by
  obtain ⟨hname, hends⟩ := h.takeWhile (p := isNameChar) (false_of_break (by decide))
  unfold Yaml.readDirective?
  generalize c.takeWhile isNameChar = x, d.takeWhile isNameChar = y at hname hends ⊢
  obtain ⟨name, c₁⟩ := x
  obtain ⟨name', d₁⟩ := y
  obtain rfl : name = name' := hname
  dsimp only at hends ⊢
  rw [← hends.blankOrEnd]
  split
  · exact .none
  · refine rel_bind hends.readDirectiveValue? ?_
    rintro ⟨directive, c₂⟩ ⟨_, d₂⟩ ⟨rfl, h₂⟩
    refine rel_bind h₂.skipRestOfLine? fun c₃ d₃ h₃ => ?_
    exact .some ⟨rfl, h₃⟩

end DocSchema.Yaml
