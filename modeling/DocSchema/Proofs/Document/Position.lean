/-
  DocSchema/Proofs/Document/Position.lean
  =======================================
  **Positions are faithful to offsets.**

  A table of line starts is enough to find positions.  It is read off the bytes of the text: a line
  starts after each byte of a line feed, and no other character has such a byte
  (`scanLineStarts_eq`).  As the starts ascend, the line of an offset is found by halving
  (`partitionPoint_eq`), and the column by counting the characters from the start of that line
  (`seekPosition?`).  On boundaries of characters nothing of this fails, and the position found is
  that of the index.

  In plain terms, the line is one more than the number of line feeds before the offset, and the
  column is one more than the number of characters after the last of them (`pass_start`).
  Boundaries come in the order of their positions (`before_position_iff`), and so one span contains
  another as soon as its bytes do (`Span.Measured.contains_iff`).  This holds of all nodes of a
  tree, whatever the events are that it is made of (`measured_build`).
-/
import DocSchema.Proofs.Document.Containment
import DocSchema.Proofs.Document.Line
import Mathlib.Data.List.DropRight

namespace DocSchema

open DocSchema.Json DocSchema.Markdown

/-! ### Search by halving -/

/-- The first index of a range at which something no longer holds, by halving the range. -/
def bisect (holds : Nat → Bool) (first last : Nat) : Nat :=
  if first < last then
    if holds ((first + last) / 2) then bisect holds ((first + last) / 2 + 1) last
    else bisect holds first ((first + last) / 2)
  else first
termination_by last - first

theorem bisect_eq {holds : Nat → Bool} {first last k : Nat} (hfirst : first ≤ k) (hlast : k ≤ last)
    (h : ∀ i, first ≤ i → i < last → (holds i = true ↔ i < k)) : bisect holds first last = k := by
  fun_induction bisect holds first last with
  | case1 first last hlt hmiddle ih =>
    have hk : (first + last) / 2 < k := (h _ (by omega) (by omega)).1 hmiddle
    exact ih hk hlast fun i hi hi' => h i (by omega) hi'
  | case2 first last hlt hmiddle ih =>
    have hk : ¬ (first + last) / 2 < k := fun hk => hmiddle ((h _ (by omega) (by omega)).2 hk)
    exact ih hfirst (by omega) fun i hi hi' => h i hi (by omega)
  | case3 first last hlt => omega

/-- How many numbers of an ascending list have a property that only the first of them have. -/
def partitionPoint (p : Nat → Bool) (xs : List Nat) : Nat :=
  bisect (fun i => xs[i]?.any p) 0 xs.length

variable {xs : List Nat} {o o' i : Nat}

theorem any_getElem?_iff (h : xs.Pairwise (· < ·)) :
    xs[i]?.any (· ≤ o) = true ↔ i < (xs.takeWhile (· ≤ o)).length := by
  induction xs generalizing i with
  | nil => simp
  | cons x xs ih =>
    obtain ⟨hx, hxs⟩ := List.pairwise_cons.1 h
    by_cases hle : x ≤ o
    · rw [List.takeWhile_cons_of_pos (by simpa using hle), List.length_cons]
      rcases i with _ | i
      · simpa using hle
      · rw [List.getElem?_cons_succ, ih hxs, Nat.succ_lt_succ_iff]
    · -- all that follow are greater still
      rw [List.takeWhile_cons_of_neg (by simpa using hle)]
      rcases i with _ | i
      · simpa using hle
      · rcases hget : xs[i]? with _ | y
        · simp [hget]
        · have hlt := hx y (List.mem_of_getElem? hget)
          have hgreater : o < y := by omega
          simp [hget, hgreater]

theorem partitionPoint_eq (h : xs.Pairwise (· < ·)) (o : Nat) :
    partitionPoint (· ≤ o) xs = (xs.takeWhile (· ≤ o)).length :=
  bisect_eq (Nat.zero_le _) (List.takeWhile_sublist _).length_le fun _ _ _ => any_getElem?_iff h

/-! ### Line starts -/

/-- The bytes of a text. -/
def textBytes (cs : List Char) : List UInt8 :=
  cs.flatMap String.utf8EncodeChar

/-- The offsets after the line feeds among bytes that themselves start at an offset. -/
def afterLineFeeds (o : Nat) (bytes : List UInt8) : List Nat :=
  ((bytes.zipIdx o).filter (·.1 == 10)).map (·.2 + 1)

/-- The offsets where the lines of a text start, from its bytes. -/
def scanLineStarts (cs : List Char) : List Nat :=
  0 :: afterLineFeeds 0 (textBytes cs)

theorem afterLineFeeds_append (o : Nat) (front back : List UInt8) :
    afterLineFeeds o (front ++ back) =
      afterLineFeeds o front ++ afterLineFeeds (o + front.length) back := by
  simp only [afterLineFeeds, List.zipIdx_append, List.filter_append, List.map_append]

/-- No other character has the byte of a line feed. -/
theorem not_mem_utf8EncodeChar {c : Char} (hc : c ≠ '\n') : 10 ∉ String.utf8EncodeChar c := by
  have hval : c.val.toNat ≠ 10 := fun heq => hc (Char.ext (UInt32.toNat_inj.1 heq))
  have hbyte : ∀ n, n < 256 → n ≠ 10 → (10 : UInt8) ≠ UInt8.ofNat n := by
    intro n hn hne heq
    have hnat : 10 = (UInt8.ofNat n).toNat := congrArg UInt8.toNat heq
    rw [UInt8.toNat_ofNat', Nat.mod_eq_of_lt hn] at hnat
    exact hne hnat.symm
  -- all bytes of a character that has several are too large
  unfold String.utf8EncodeChar
  dsimp only
  split
  · exact fun h => hbyte _ (by omega) hval (List.mem_singleton.1 h)
  · split
    · simp only [List.mem_cons, List.not_mem_nil, or_false, not_or]
      exact ⟨hbyte _ (by omega) (by omega), hbyte _ (by omega) (by omega)⟩
    · split
      · simp only [List.mem_cons, List.not_mem_nil, or_false, not_or]
        exact ⟨hbyte _ (by omega) (by omega), hbyte _ (by omega) (by omega),
          hbyte _ (by omega) (by omega)⟩
      · simp only [List.mem_cons, List.not_mem_nil, or_false, not_or]
        exact ⟨hbyte _ (by omega) (by omega), hbyte _ (by omega) (by omega),
          hbyte _ (by omega) (by omega), hbyte _ (by omega) (by omega)⟩

theorem afterLineFeeds_utf8EncodeChar (o : Nat) (c : Char) :
    afterLineFeeds o (String.utf8EncodeChar c) = if c = '\n' then [o + c.utf8Size] else [] := by
  split
  · rename_i hc
    subst hc
    rfl
  · rename_i hc
    rw [afterLineFeeds, List.map_eq_nil_iff, List.filter_eq_nil_iff]
    rintro ⟨b, i⟩ hb heq
    obtain rfl : b = 10 := eq_of_beq heq
    exact not_mem_utf8EncodeChar hc (List.fst_mem_of_mem_zipIdx hb)

/-- The lines start in the bytes of a text where they do in its characters. -/
theorem scanLineStarts_eq (cs : List Char) : scanLineStarts cs = lineStarts cs := by
  have hfurther : ∀ o, afterLineFeeds o (textBytes cs) = furtherStarts o cs := by
    induction cs with
    | nil => exact fun o => rfl
    | cons c cs ih =>
      intro o
      rw [textBytes, List.flatMap_cons, afterLineFeeds_append, String.length_utf8EncodeChar,
        afterLineFeeds_utf8EncodeChar, furtherStarts]
      change _ ++ afterLineFeeds _ (textBytes cs) = _
      rw [ih]
      split <;> rfl
  exact congrArg (0 :: ·) (hfurther 0)

theorem pairwise_furtherStarts (o : Nat) (cs : List Char) :
    (furtherStarts o cs).Pairwise (· < ·) := by
  induction cs generalizing o with
  | nil => exact .nil
  | cons c cs ih =>
    rw [furtherStarts]
    split
    · exact .cons (fun x hx => (mem_furtherStarts hx).1) (ih _)
    · exact ih _

theorem pairwise_lineStarts (cs : List Char) : (lineStarts cs).Pairwise (· < ·) :=
  .cons (fun _ hx => (mem_furtherStarts hx).1) (pairwise_furtherStarts 0 cs)

/-! ### Finding positions -/

variable {cs text : List Char} {first last : Nat}

/-- The position of an offset, found in the table of line starts; none if there is no such line, or
if the line cannot be cut at the offset. -/
def seekPosition? (cs : List Char) (o : Nat) : Option Position :=
  match partitionPoint (· ≤ o) (scanLineStarts cs) with
  | 0 => none
  | above + 1 => do
    let start ← (scanLineStarts cs)[above]?
    let part ← slice? cs start o
    return ⟨above + 1, part.length + 1⟩

theorem seekPosition?_eq (cs : List Char) (o : Nat) : seekPosition? cs o = readPosition? cs o := by
  have hline := partitionPoint_eq (pairwise_lineStarts cs) o
  unfold seekPosition? readPosition?
  rw [scanLineStarts_eq]
  rcases hlength : ((lineStarts cs).takeWhile (· ≤ o)).length with _ | above
  · simp only [hline, hlength]
  · simp only [hline, hlength]

/-- The span of a range of bytes, with positions found in the table of line starts. -/
def seekSpan? (cs : List Char) (first last : Nat) : Option Span := do
  let first := min first (byteCount cs)
  let last ← trimBreaks? cs first (min last (byteCount cs))
  return ⟨← seekPosition? cs first, ← seekPosition? cs last, first, last⟩

theorem seekSpan?_eq (cs : List Char) (first last : Nat) :
    seekSpan? cs first last = readSpan? cs first last := by
  simp only [seekSpan?, readSpan?, seekPosition?_eq]

/-- The line is told by the line feeds of a text, the column by what comes after the last one. -/
theorem pass_start (cs : List Char) : Position.start.pass cs =
    ⟨1 + cs.count '\n', 1 + (cs.rtakeWhile (· != '\n')).length⟩ := by
  induction cs using List.reverseRecOn with
  | nil => rfl
  | append_singleton cs c ih =>
    have hpass : Position.start.pass (cs ++ [c]) = (Position.start.pass cs).advance c :=
      Position.pass_append _ _ _
    rw [hpass, ih, List.count_append]
    by_cases hc : c = '\n'
    · subst hc
      rw [List.rtakeWhile_concat_neg _ _ _ (by decide)]
      simp [Position.advance, Nat.add_assoc]
    · rw [List.rtakeWhile_concat_pos _ _ _ (by simpa using hc)]
      simp [Position.advance, hc, Nat.add_assoc]

/-! ### The order of positions -/

theorem Position.not_before_self (p : Position) : ¬ p.Before p := by
  unfold Position.Before
  omega

theorem Position.Before.not_le {p q : Position} (h : p.Before q) : q.le p = false := by
  rw [Bool.eq_false_iff]
  intro hle
  rw [Position.le_iff] at hle
  unfold Position.Before at h
  omega

namespace LineIndex

theorem before_position_iff (ho : OnBoundary cs o) (ho' : OnBoundary cs o') :
    ((ofChars cs).position o).Before ((ofChars cs).position o') ↔ o < o' := by
  refine ⟨fun h => ?_, position_lt ho ho'⟩
  by_contra hle
  have hback := position_mono cs (Nat.le_of_not_lt hle)
  rw [h.not_le] at hback
  cases hback

theorem position_injective (ho : OnBoundary cs o) (ho' : OnBoundary cs o')
    (h : (ofChars cs).position o = (ofChars cs).position o') : o = o' := by
  have hlt : ¬ o < o' := by
    rw [← before_position_iff ho ho', h]
    exact Position.not_before_self _
  have hgt : ¬ o' < o := by
    rw [← before_position_iff ho' ho, h]
    exact Position.not_before_self _
  omega

/-- The ends of a span are on boundaries if those of its range are, or are past the end. -/
theorem onBoundary_span (hfirst : InReach cs first) (hlast : InReach cs last) :
    OnBoundary cs ((ofChars cs).span first last).startOffset ∧
      OnBoundary cs ((ofChars cs).span first last).stopOffset := by
  have hfirst := hfirst.min
  have hlast := hlast.min
  rw [← size_ofChars cs] at hfirst hlast
  exact ⟨hfirst, onBoundary_trimBreaks hlast⟩

end LineIndex

/-! ### Spans -/

/-- A span whose positions are those of its offsets. -/
structure Span.Measured (ix : LineIndex) (s : Span) : Prop where
  start : s.start = ix.position s.startOffset
  stop : s.stop = ix.position s.stopOffset

theorem measured_span (ix : LineIndex) (first last : Nat) : (ix.span first last).Measured ix :=
  ⟨rfl, rfl⟩

theorem measured_whole (cs : List Char) :
    (LineIndex.ofChars cs).whole.Measured (LineIndex.ofChars cs) where
  start := by
    have hzero := positionIn_append (p := .start) [] cs
    change Position.start = (LineIndex.ofChars cs).position 0
    rw [LineIndex.position_ofChars]
    exact hzero.symm
  stop := rfl

/-- One span contains another where its bytes do. -/
theorem Span.Measured.contains_iff {outer inner : Span} (h : outer.Measured (LineIndex.ofChars cs))
    (h' : inner.Measured (LineIndex.ofChars cs)) : outer.contains inner = true ↔
      outer.startOffset ≤ inner.startOffset ∧ inner.stopOffset ≤ outer.stopOffset := by
  rw [Span.contains_iff, h.start, h'.start, h.stop, h'.stop]
  constructor
  · rintro ⟨hstart, hstop, -, -⟩
    exact ⟨hstart, hstop⟩
  · rintro ⟨hstart, hstop⟩
    exact ⟨hstart, hstop, LineIndex.position_mono cs hstart, LineIndex.position_mono cs hstop⟩

/-- Text that goes on is measured as its two ends are. -/
theorem Span.Measured.extendText {ix : LineIndex} {n : Node} {s : Span} (h : n.span.Measured ix)
    (h' : s.Measured ix) (text : String) : (OpenNode.extendText n text s).span.Measured ix := by
  rcases OpenNode.span_extendText n text s with hspan | ⟨-, hspan⟩
  · rw [hspan]
    exact h
  · rw [hspan]
    exact ⟨h.start, h'.stop⟩

/-- A frame with a span that is measured, as are those of the nodes in it. -/
structure OpenNode.Measured (ix : LineIndex) (f : OpenNode) : Prop where
  span : f.span.Measured ix
  children : ∀ n ∈ f.children, n.Everywhere (·.span.Measured ix)

namespace TreeBuilder

theorem carries_measured (ix : LineIndex) : Carries ix (fun _ _ => True)
    (fun _ f => f.Measured ix) (fun _ n => n.Everywhere (·.span.Measured ix)) where
  inside _ _ := trivial
  opened _ _ := ⟨measured_span _ _ _, fun _ hn => absurd hn List.not_mem_nil⟩
  leaf _ _ := .mk (measured_span _ _ _) fun _ hc => absurd hc List.not_mem_nil
  finish _ hf := .mk hf.span fun c hc => hf.children c (List.mem_reverse.1 hc)
  attach hf hn := ⟨hf.span, List.forall_mem_cons.2 ⟨hn, hf.children⟩⟩
  collect hf hcollect := by
    obtain ⟨_, -, rfl⟩ := Option.map_eq_some_iff.1 hcollect
    exact ⟨hf.span, hf.children⟩
  extend _ hf hchildren _ := by
    obtain ⟨hlast, hbefore⟩ := List.forall_mem_cons.1 (hchildren ▸ hf.children)
    refine ⟨hf.span, List.forall_mem_cons.2 ⟨?_, hbefore⟩⟩
    exact .mk (hlast.self.extendText (measured_span _ _ _) _) hlast.children
  check hf := ⟨hf.span, hf.children⟩

theorem measured_build (text : List Char) (es : List Located) :
    (build text es).Everywhere (·.span.Measured (LineIndex.ofChars text)) := by
  have hadmits : Admits (fun _ _ => True) [] es := admits_of_forall fun _ _ _ => trivial
  have hroot : (start text).root.Measured (LineIndex.ofChars text) :=
    ⟨measured_whole text, fun _ hn => absurd hn List.not_mem_nil⟩
  obtain ⟨f, hf, heq⟩ := (carries_measured (LineIndex.ofChars text)).build hroot hadmits
  rw [heq]
  exact .mk hf.span fun c hc => hf.children c (List.mem_reverse.1 hc)

end TreeBuilder

namespace LineIndex

/-- Positions are faithful to offsets: each boundary has the position of its line and column, and
boundaries and positions come in the same order.  To find the span of a range does not fail if its
ends are on boundaries or past the text, and spans contain each other as their bytes do. -/
theorem positions_faithful (text : List Char) :
    (∀ before after, text = before ++ after →
      seekPosition? text (byteCount before) =
          some ((ofChars text).position (byteCount before)) ∧
        (ofChars text).position (byteCount before) =
          ⟨1 + before.count '\n', 1 + (before.rtakeWhile (· != '\n')).length⟩) ∧
      (∀ o o', OnBoundary text o → OnBoundary text o' →
        (((ofChars text).position o).Before ((ofChars text).position o') ↔ o < o') ∧
          ((ofChars text).position o = (ofChars text).position o' → o = o')) ∧
      (∀ first last, InReach text first → InReach text last →
        seekSpan? text first last = some ((ofChars text).span first last) ∧
          OnBoundary text ((ofChars text).span first last).startOffset ∧
          OnBoundary text ((ofChars text).span first last).stopOffset) ∧
      (∀ first last first' last',
        ((ofChars text).span first last).contains ((ofChars text).span first' last') = true ↔
          ((ofChars text).span first last).startOffset ≤
              ((ofChars text).span first' last').startOffset ∧
            ((ofChars text).span first' last').stopOffset ≤
              ((ofChars text).span first last).stopOffset) ∧
      ∀ es, ∀ outer ∈ (TreeBuilder.build text es).preorder,
        ∀ inner ∈ (TreeBuilder.build text es).preorder,
          outer.span.contains inner.span = true ↔
            outer.span.startOffset ≤ inner.span.startOffset ∧
              inner.span.stopOffset ≤ outer.span.stopOffset := by
  refine ⟨?_, ?_, ?_, ?_, ?_⟩
  · rintro before after rfl
    have hboundary : OnBoundary (before ++ after) (byteCount before) := ⟨before, after, rfl, rfl⟩
    refine ⟨(seekPosition?_eq _ _).trans (readPosition?_eq hboundary), ?_⟩
    rw [position_ofChars, positionIn_append, pass_start]
  · intro o o' ho ho'
    exact ⟨before_position_iff ho ho', position_injective ho ho'⟩
  · intro first last hfirst hlast
    exact ⟨(seekSpan?_eq _ _ _).trans (readSpan?_eq hfirst hlast), onBoundary_span hfirst hlast⟩
  · intro first last first' last'
    exact (measured_span _ _ _).contains_iff (measured_span _ _ _)
  · intro es outer houter inner hinner
    have hmeasured := TreeBuilder.measured_build text es
    exact (hmeasured.of_mem_preorder houter).contains_iff (hmeasured.of_mem_preorder hinner)

/-- The start of the third line, after a character of two bytes and an empty line. -/
theorem positions_after_accent :
    OnBoundary "é\n\nx".toList 4 ∧ seekPosition? "é\n\nx".toList 4 = some ⟨3, 1⟩ ∧
      seekSpan? "é\n\nx".toList 0 4 = some ⟨⟨1, 1⟩, ⟨1, 2⟩, 0, 2⟩ := by
  obtain ⟨hposition, -, hspan, -, -⟩ := positions_faithful "é\n\nx".toList
  have hsplit : "é\n\nx".toList = "é\n\n".toList ++ "x".toList := by decide
  have hboundary : OnBoundary "é\n\nx".toList 4 := ⟨_, _, hsplit, by decide⟩
  obtain ⟨hseek, hline⟩ := hposition _ _ hsplit
  refine ⟨hboundary, ?_, ?_⟩
  · rw [hline] at hseek
    exact hseek
  · exact (hspan 0 4 (.inl (onBoundary_zero _)) (.inl hboundary)).1

end LineIndex

end DocSchema
