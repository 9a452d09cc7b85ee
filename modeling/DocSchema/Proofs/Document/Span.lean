/-
  DocSchema/Proofs/Document/Span.lean
  ===================================
  **Byte offsets and positions agree.**

  The position of a byte offset is that of the character the byte belongs to (`position_ofChars`).
  So positions never go back where offsets go on (`position_mono`), and between the starts of two
  characters they do go on (`position_lt`).

  The span of a range drops the line breaks that the range ends with, and nothing else
  (`span_eq`, `isBreak_of_le_trimBreaks`).  Its ends are on boundaries of characters if those
  of the range are (`onBoundary_trimBreaks`).
-/
import DocSchema.Document.Span
import DocSchema.Json.Reader
import Mathlib.Data.List.Basic

namespace DocSchema

open DocSchema.Json DocSchema.Text

/-! ### Bytes -/

@[simp] theorem byteCount_nil : byteCount [] = 0 :=
  rfl

theorem foldl_utf8Size (cs : List Char) (n : Nat) :
    cs.foldl (fun n c => n + c.utf8Size) n = n + byteCount cs := by
  induction cs generalizing n with
  | nil => rfl
  | cons c cs ih =>
    unfold byteCount
    rw [List.foldl_cons, List.foldl_cons, ih, ih (0 + c.utf8Size)]
    omega

@[simp] theorem byteCount_cons (c : Char) (cs : List Char) :
    byteCount (c :: cs) = c.utf8Size + byteCount cs := by
  rw [byteCount, List.foldl_cons, foldl_utf8Size, Nat.zero_add]

@[simp] theorem byteCount_append (cs ds : List Char) :
    byteCount (cs ++ ds) = byteCount cs + byteCount ds := by
  rw [byteCount, List.foldl_append, foldl_utf8Size]
  rfl

/-- A byte offset where a character starts, or the text ends. -/
def OnBoundary (cs : List Char) (o : Nat) : Prop :=
  ∃ before after, cs = before ++ after ∧ byteCount before = o

/-! ### The order of positions -/

namespace Position

variable {p q r : Position}

/-- The strict order of positions. -/
def Before (p q : Position) : Prop :=
  p.line < q.line ∨ p.line = q.line ∧ p.column < q.column

theorem le_iff : p.le q = true ↔ p.line < q.line ∨ p.line = q.line ∧ p.column ≤ q.column := by
  simp [le]

theorem le_refl (p : Position) : p.le p = true :=
  le_iff.2 (.inr ⟨rfl, Nat.le_refl _⟩)

theorem le_trans (h : p.le q = true) (h' : q.le r = true) : p.le r = true := by
  rw [le_iff] at *
  omega

theorem Before.le (h : p.Before q) : p.le q = true := by
  rw [le_iff]
  unfold Before at h
  omega

theorem Before.trans (h : p.Before q) (h' : q.Before r) : p.Before r := by
  unfold Before at *
  omega

theorem before_advance (p : Position) (c : Char) : p.Before (p.advance c) := by
  unfold Before advance
  split
  · exact .inl (Nat.lt_succ_self _)
  · exact .inr ⟨rfl, Nat.lt_succ_self _⟩

/-- The position after some characters. -/
def pass (p : Position) (cs : List Char) : Position :=
  cs.foldl advance p

theorem pass_append (p : Position) (before after : List Char) :
    p.pass (before ++ after) = (p.pass before).pass after :=
  List.foldl_append

theorem before_pass (p : Position) {cs : List Char} (h : cs ≠ []) : p.Before (p.pass cs) := by
  induction cs generalizing p with
  | nil => exact absurd rfl h
  | cons c cs ih =>
    by_cases hcs : cs = []
    · subst hcs
      exact before_advance p c
    · exact (before_advance p c).trans (ih (p.advance c) hcs)

end Position

/-! ### The characters that bytes belong to -/

/-- The position of a byte offset in characters that start at `p`; past the end, that of the end. -/
def positionIn (p : Position) : List Char → Nat → Position
  | [], _ => p
  | c :: cs, o => if o < c.utf8Size then p else positionIn (p.advance c) cs (o - c.utf8Size)

/-- Whether the byte at an offset belongs to a line break character. -/
def isBreakIn : List Char → Nat → Bool
  | [], _ => false
  | c :: cs, o => if o < c.utf8Size then isLineEnd c else isBreakIn cs (o - c.utf8Size)

variable {cs before after : List Char} {p : Position} {o o' : Nat}

theorem le_positionIn (p : Position) (cs : List Char) (o : Nat) :
    p.le (positionIn p cs o) = true := by
  induction cs generalizing p o with
  | nil => exact p.le_refl
  | cons c cs ih =>
    unfold positionIn
    split
    · exact p.le_refl
    · exact Position.le_trans (p.before_advance c).le (ih _ _)

theorem positionIn_mono (h : o ≤ o') : (positionIn p cs o).le (positionIn p cs o') = true := by
  induction cs generalizing p o o' with
  | nil => exact p.le_refl
  | cons c cs ih =>
    unfold positionIn
    split
    · split
      · exact p.le_refl
      · exact Position.le_trans (p.before_advance c).le (le_positionIn _ _ _)
    · rw [if_neg (by omega)]
      exact ih (by omega)

/-- A boundary has the position after the characters before it. -/
theorem positionIn_append (before after : List Char) :
    positionIn p (before ++ after) (byteCount before) = p.pass before := by
  induction before generalizing p with
  | nil =>
    cases after with
    | nil => rfl
    | cons c cs => exact if_pos (Char.utf8Size_pos c)
  | cons c cs ih =>
    rw [List.cons_append, byteCount_cons, positionIn, if_neg (by omega), Nat.add_sub_cancel_left]
    exact ih

theorem positionIn_of_le (h : byteCount cs ≤ o) : positionIn p cs o = p.pass cs := by
  induction cs generalizing p o with
  | nil => rfl
  | cons c cs ih =>
    rw [byteCount_cons] at h
    rw [positionIn, if_neg (by omega)]
    exact ih (by omega)

/-! ### The marks of a text -/

namespace LineIndex

/-- The marks of characters that start at `p`. -/
def marksIn (p : Position) : List Char → List Mark
  | [] => []
  | c :: cs => List.replicate c.utf8Size ⟨p, isLineEnd c⟩ ++ marksIn (p.advance c) cs

theorem length_marksIn (p : Position) (cs : List Char) : (marksIn p cs).length = byteCount cs := by
  induction cs generalizing p with
  | nil => rfl
  | cons c cs ih => rw [marksIn, List.length_append, List.length_replicate, ih, byteCount_cons]

theorem getElem?_marksIn (h : o < byteCount cs) :
    (marksIn p cs)[o]? = some ⟨positionIn p cs o, isBreakIn cs o⟩ := by
  induction cs generalizing p o with
  | nil => cases h
  | cons c cs ih =>
    rw [byteCount_cons] at h
    rw [marksIn, positionIn, isBreakIn, List.getElem?_append, List.length_replicate]
    by_cases ho : o < c.utf8Size
    · rw [if_pos ho, if_pos ho, if_pos ho, List.getElem?_replicate_of_lt ho]
    · rw [if_neg ho, if_neg ho, if_neg ho]
      exact ih (by omega)

theorem toList_repeat_push (m : Mark) (n : Nat) (acc : Array Mark) :
    (Nat.repeat (fun a => a.push m) n acc).toList = acc.toList ++ List.replicate n m := by
  induction n with
  | zero => exact (List.append_nil _).symm
  | succ n ih => rw [Nat.repeat, Array.toList_push, ih, List.replicate_succ', List.append_assoc]

theorem foldl_addChar (cs : List Char) (acc : Array Mark) (p : Position) :
    (cs.foldl addChar (acc, p)).1.toList = acc.toList ++ marksIn p cs ∧
      (cs.foldl addChar (acc, p)).2 = p.pass cs := by
  induction cs generalizing acc p with
  | nil => exact ⟨(List.append_nil _).symm, rfl⟩
  | cons c cs ih =>
    obtain ⟨hmarks, hlast⟩ := ih (addChar (acc, p) c).1 (p.advance c)
    refine ⟨hmarks.trans ?_, hlast⟩
    rw [addChar, toList_repeat_push, marksIn, List.append_assoc]

@[simp] theorem size_ofChars (cs : List Char) : (ofChars cs).size = byteCount cs := by
  obtain ⟨hmarks, -⟩ := foldl_addChar cs #[] .start
  rw [← length_marksIn .start cs]
  change (cs.foldl addChar (#[], .start)).1.size = _
  simpa using congrArg List.length hmarks

theorem marks_ofChars (cs : List Char) :
    (ofChars cs).marks.toList = marksIn .start cs ++ [⟨Position.start.pass cs, false⟩] := by
  obtain ⟨hmarks, hlast⟩ := foldl_addChar cs #[] .start
  simp only [ofChars, Array.toList_push, hmarks, hlast, List.nil_append]

theorem position_ofChars (cs : List Char) (o : Nat) :
    (ofChars cs).position o = positionIn .start cs o := by
  rw [position, size_ofChars, ← Array.getElem?_toList, marks_ofChars, List.getElem?_append,
    length_marksIn]
  by_cases h : o < byteCount cs
  · rw [if_pos (by omega), Nat.min_eq_left (by omega), getElem?_marksIn h]
    rfl
  · rw [if_neg (by omega), Nat.min_eq_right (by omega), Nat.sub_self, positionIn_of_le (by omega)]
    rfl

theorem isBreak_ofChars (cs : List Char) (o : Nat) :
    (ofChars cs).isBreak o = isBreakIn cs o := by
  rw [isBreak, ← Array.getElem?_toList, marks_ofChars, List.getElem?_append, length_marksIn]
  by_cases h : o < byteCount cs
  · rw [if_pos h, getElem?_marksIn h]
    rfl
  · rw [if_neg h]
    have hpast : isBreakIn cs o = false := by
      induction cs generalizing o with
      | nil => rfl
      | cons c cs ih =>
        rw [byteCount_cons] at h
        rw [isBreakIn, if_neg (by omega)]
        exact ih _ (by omega)
    rw [hpast]
    cases o - byteCount cs <;> rfl

/-- Positions do not go back where offsets go on. -/
theorem position_mono (cs : List Char) (h : o ≤ o') :
    ((ofChars cs).position o).le ((ofChars cs).position o') = true := by
  rw [position_ofChars, position_ofChars]
  exact positionIn_mono h

/-- From one character to another positions go on. -/
theorem position_lt (ho : OnBoundary cs o) (ho' : OnBoundary cs o') (h : o < o') :
    ((ofChars cs).position o).Before ((ofChars cs).position o') := by
  obtain ⟨before, after, rfl, rfl⟩ := ho
  obtain ⟨before', after', heq, rfl⟩ := ho'
  rw [position_ofChars, position_ofChars, positionIn_append, heq, positionIn_append]
  -- one of the two parts in front is the beginning of the other
  obtain ⟨between, rfl, -⟩ | ⟨between, rfl, -⟩ := List.append_eq_append_iff.1 heq
  · rw [byteCount_append] at h
    rw [Position.pass_append]
    refine Position.before_pass _ fun hnil => ?_
    subst hnil
    exact absurd h (Nat.lt_irrefl _)
  · rw [byteCount_append] at h
    omega

/-! ### Line breaks at the end -/

variable {ix : LineIndex} {first last : Nat}

theorem trimBreaks_le (ix : LineIndex) (first last : Nat) : ix.trimBreaks first last ≤ last := by
  induction last with
  | zero => exact Nat.le_refl _
  | succ last ih =>
    unfold trimBreaks
    split
    · exact Nat.le_succ_of_le ih
    · exact Nat.le_refl _

theorem le_trimBreaks (ix : LineIndex) (h : first ≤ last) : first ≤ ix.trimBreaks first last := by
  induction last with
  | zero => exact h
  | succ last ih =>
    unfold trimBreaks
    split
    · rename_i hbreak
      exact ih (by simpa using (Bool.and_eq_true_iff.1 hbreak).1)
    · exact h

/-- What is dropped is line breaks. -/
theorem isBreak_of_le_trimBreaks (ho : ix.trimBreaks first last ≤ o) (h : o < last) :
    ix.isBreak o = true := by
  induction last with
  | zero => cases h
  | succ last ih =>
    unfold trimBreaks at ho
    split at ho
    · rename_i hbreak
      rcases Nat.lt_succ_iff_lt_or_eq.1 h with hlt | rfl
      · exact ih ho hlt
      · exact (Bool.and_eq_true_iff.1 hbreak).2
    · omega

/-- What is left ends with something else. -/
theorem exists_not_isBreak (h : first < ix.trimBreaks first last) :
    ∃ o, ix.trimBreaks first last = o + 1 ∧ ix.isBreak o = false := by
  induction last with
  | zero => cases h
  | succ last ih =>
    unfold trimBreaks at h ⊢
    split
    · rename_i hbreak
      rw [if_pos hbreak] at h
      exact ih h
    · rename_i hbreak
      rw [if_neg hbreak] at h
      refine ⟨last, rfl, ?_⟩
      simpa [Nat.le_of_lt_succ h] using hbreak

/-- A range of bytes that holds nothing but line breaks. -/
def Blank (ix : LineIndex) (first last : Nat) : Prop :=
  ∀ o, first ≤ o → o < last → o < ix.size → ix.isBreak o = true

theorem startOffset_span (ix : LineIndex) (first last : Nat) :
    (ix.span first last).startOffset = min first ix.size :=
  rfl

theorem stopOffset_span (ix : LineIndex) (first last : Nat) :
    (ix.span first last).stopOffset = ix.trimBreaks (min first ix.size) (min last ix.size) :=
  rfl

theorem startOffset_le_stopOffset (ix : LineIndex) (h : first ≤ last) :
    (ix.span first last).startOffset ≤ (ix.span first last).stopOffset := by
  have hmin : min first ix.size ≤ min last ix.size := by omega
  exact le_trimBreaks ix hmin

theorem stopOffset_le_size (ix : LineIndex) (first last : Nat) :
    (ix.span first last).stopOffset ≤ ix.size :=
  Nat.le_trans (trimBreaks_le _ _ _) (Nat.min_le_right _ _)

/-- The span of a range covers some text unless the range is blank. -/
theorem span_lt_iff : (ix.span first last).startOffset < (ix.span first last).stopOffset ↔
    ¬ ix.Blank first last := by
  rw [startOffset_span, stopOffset_span]
  constructor
  · intro h hblank
    obtain ⟨o, ho, hbreak⟩ := exists_not_isBreak h
    have hle := trimBreaks_le ix (min first ix.size) (min last ix.size)
    rw [hblank o (by omega) (by omega) (by omega)] at hbreak
    cases hbreak
  · intro h
    by_contra hle
    refine h fun o hfirst hlast hsize => ?_
    have htrim : ix.trimBreaks (min first ix.size) (min last ix.size) ≤ o := by omega
    exact isBreak_of_le_trimBreaks htrim (Nat.lt_min.2 ⟨hlast, hsize⟩)

/-- Where a range ends no later than another but its span does, line breaks alone are left of it. -/
theorem blank_of_stopOffset_lt {first' last' : Nat} (hlast : last' ≤ last)
    (h : (ix.span first last).stopOffset < (ix.span first' last').stopOffset) :
    (∀ o, (ix.span first last).stopOffset ≤ o → o < (ix.span first' last').stopOffset →
      ix.isBreak o = true) ∧ ix.Blank first' last' := by
  have hcut : ∀ o, (ix.span first last).stopOffset ≤ o → o < min last' ix.size →
      ix.isBreak o = true := by
    intro o ho hlt
    have hlt' : o < min last ix.size := by omega
    exact isBreak_of_le_trimBreaks ho hlt'
  have hle : (ix.span first' last').stopOffset ≤ min last' ix.size := trimBreaks_le _ _ _
  refine ⟨fun o ho hlt => hcut o ho (by omega), fun o ho hlt hsize => ?_⟩
  -- the inner range starts after the cut, or it would end with what is left before the cut
  by_contra hbreak
  have hsolid : ¬ ix.Blank first' last' := fun hblank => hbreak (hblank o ho hlt hsize)
  obtain ⟨x, hx, hxbreak⟩ := exists_not_isBreak (span_lt_iff.2 hsolid)
  have hstop : (ix.span first' last').stopOffset = x + 1 := hx
  rw [hcut x (by omega) (by omega)] at hxbreak
  cases hxbreak

/-! ### Boundaries -/

theorem isBreakIn_append {c : Char} (h : byteCount before ≤ o)
    (h' : o < byteCount before + c.utf8Size) :
    isBreakIn (before ++ c :: after) o = isLineEnd c := by
  induction before generalizing o with
  | nil =>
    rw [byteCount_nil, Nat.zero_add] at h'
    exact if_pos h'
  | cons b bs ih =>
    rw [byteCount_cons] at h h'
    rw [List.cons_append, isBreakIn, if_neg (by omega)]
    exact ih (by omega) (by omega)

/-- A line break character is a single byte. -/
theorem utf8Size_of_isLineEnd {c : Char} (h : isLineEnd c = true) : c.utf8Size = 1 := by
  simp only [isLineEnd, Bool.or_eq_true, beq_iff_eq] at h
  obtain rfl | rfl := h <;> rfl

/-- One steps back over a line break from boundary to boundary. -/
theorem onBoundary_of_isBreak (h : OnBoundary cs (o + 1)) (hbreak : (ofChars cs).isBreak o = true) :
    OnBoundary cs o := by
  obtain ⟨before, after, rfl, hcount⟩ := h
  rw [isBreak_ofChars] at hbreak
  obtain rfl | ⟨front, c, rfl⟩ := List.eq_nil_or_concat before
  · cases hcount
  · rw [List.concat_eq_append, byteCount_append, byteCount_cons, byteCount_nil] at hcount
    have hpos := Char.utf8Size_pos c
    rw [List.concat_eq_append, List.append_assoc, List.singleton_append,
      isBreakIn_append (by omega) (by omega)] at hbreak
    refine ⟨front, c :: after, by simp, ?_⟩
    rw [utf8Size_of_isLineEnd hbreak] at hcount
    omega

theorem onBoundary_trimBreaks (h : OnBoundary cs last) :
    OnBoundary cs ((ofChars cs).trimBreaks first last) := by
  induction last with
  | zero => exact h
  | succ last ih =>
    unfold trimBreaks
    split
    · rename_i hbreak
      exact ih (onBoundary_of_isBreak h (Bool.and_eq_true_iff.1 hbreak).2)
    · exact h

theorem onBoundary_le_size (h : OnBoundary cs o) : o ≤ (ofChars cs).size := by
  obtain ⟨before, after, rfl, rfl⟩ := h
  simp

end LineIndex

end DocSchema
