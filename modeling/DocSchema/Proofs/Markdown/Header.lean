/-
  DocSchema/Proofs/Markdown/Header.lean
  =====================================
  **The text of a header.**

  The lines of a header are read until a closing mark (`headerLines?`).  What stands between the
  lines of the two marks (`innerLines`) are the lines that are read, with one change: where a line
  ends with a carriage return and a line feed, the carriage return is left out
  (`unpaired`, `exists_chunks_of_header?`).
-/
import Mathlib.Data.List.DropRight
import DocSchema.Proofs.Markdown.Event

namespace DocSchema.Markdown

open DocSchema.Text

/-! ### Line ends -/

/-- A text with a line feed for every pair of a carriage return and a line feed. -/
def unpaired : List Char → List Char
  | '\r' :: '\n' :: cs => '\n' :: unpaired cs
  | ch :: cs => ch :: unpaired cs
  | [] => []

/-- The lines of a text but for the first and the last, with their line feeds. -/
def innerLines (cs : List Char) : List Char :=
  (cs.dropWhile (· != '\n')).tail.rdropWhile (· != '\n')

section Lines

variable {ch : Char} {cs ds : List Char}

theorem unpaired_cons (h : ch = '\r' → cs.head? ≠ some '\n') :
    unpaired (ch :: cs) = ch :: unpaired cs := by
  refine unpaired.eq_2 ch cs fun cs' hch hcs => ?_
  rw [hcs] at h
  exact h hch rfl

/-- A text can be read in two parts if no pair is split between them. -/
theorem unpaired_append (h : cs.getLast? = some '\r' → ds.head? ≠ some '\n') :
    unpaired (cs ++ ds) = unpaired cs ++ unpaired ds := by
  induction cs using unpaired.induct with
  | case1 cs ih =>
    have hlast : cs.getLast? = some '\r' → ds.head? ≠ some '\n' := by
      cases cs with
      | nil => exact nofun
      | cons c cs => simpa [List.getLast?_cons_cons] using h
    change '\n' :: unpaired (cs ++ ds) = '\n' :: (unpaired cs ++ unpaired ds)
    rw [ih hlast]
  | case2 ch cs hpair ih =>
    cases cs with
    | nil =>
      have hch : ch = '\r' → ds.head? ≠ some '\n' := fun hch => h (hch ▸ rfl)
      rw [List.singleton_append, unpaired_cons hch, unpaired_cons (by simp)]
      rfl
    | cons c cs =>
      have hhead (es : List Char) : ch = '\r' → (c :: es).head? ≠ some '\n' := by
        intro hch hc
        cases hc
        exact hpair cs hch rfl
      rw [List.cons_append, List.cons_append, unpaired_cons (hhead _), unpaired_cons (hhead _),
        ← List.cons_append, ih (by simpa [List.getLast?_cons_cons] using h), List.cons_append]
  | case3 => rfl

theorem unpaired_of_not_mem (h : '\n' ∉ cs) : unpaired cs = cs := by
  induction cs with
  | nil => rfl
  | cons ch cs ih =>
    rw [unpaired_cons, ih (h <| List.mem_cons_of_mem _ ·)]
    rintro - hhead
    exact h (List.mem_cons_of_mem _ (List.mem_of_mem_head? hhead))

/-- A line without a carriage return in its last place but one. -/
theorem unpaired_line (h : '\n' ∉ cs) :
    unpaired (cs ++ ['\n']) =
      (if cs.getLast? = some '\r' then cs.dropLast else cs) ++ ['\n'] := by
  split
  · rename_i hreturn
    obtain ⟨line, rfl⟩ := List.getLast?_eq_some_iff.1 hreturn
    have hline : '\n' ∉ line := (h <| List.mem_append_left _ ·)
    have hpair : ['\r', '\n'].head? ≠ some '\n' := by decide
    rw [List.append_assoc, List.singleton_append, unpaired_append fun _ => hpair,
      unpaired_of_not_mem hline, List.dropLast_concat]
    rfl
  · rename_i hreturn
    rw [unpaired_append (absurd · hreturn), unpaired_of_not_mem h]
    rfl

theorem unpaired_line_append (line rest : List Char) :
    unpaired (line ++ '\n' :: rest) = unpaired (line ++ ['\n']) ++ unpaired rest := by
  rw [← unpaired_append (by simp), List.append_assoc, List.singleton_append]

theorem unpaired_ne_nil (h : cs ≠ []) : unpaired cs ≠ [] := by
  cases cs using unpaired.fun_cases with
  | case1 cs => exact List.cons_ne_nil '\n' (unpaired cs)
  | case2 ch cs hpair =>
    rw [unpaired.eq_2 ch cs hpair]
    exact List.cons_ne_nil ch (unpaired cs)
  | case3 => exact absurd rfl h

theorem getLast?_unpaired (h : cs.getLast? = some '\n') : (unpaired cs).getLast? = some '\n' := by
  induction cs using unpaired.induct with
  | case1 cs ih =>
    change ('\n' :: unpaired cs).getLast? = some '\n'
    by_cases hcs : cs = []
    · subst hcs
      rfl
    · rw [List.getLast?_cons_of_ne_nil (by simp), List.getLast?_cons_of_ne_nil hcs] at h
      rw [List.getLast?_cons_of_ne_nil (unpaired_ne_nil hcs), ih h]
  | case2 ch cs hpair ih =>
    rw [unpaired.eq_2 ch cs hpair]
    by_cases hcs : cs = []
    · subst hcs
      exact h
    · rw [List.getLast?_cons_of_ne_nil hcs] at h
      rw [List.getLast?_cons_of_ne_nil (unpaired_ne_nil hcs), ih h]
  | case3 => cases h

theorem head?_of_unpaired (h : (unpaired cs).head? = some '\n') :
    cs.head? = some '\n' ∨ ['\r', '\n'] <+: cs := by
  cases cs using unpaired.fun_cases with
  | case1 cs => exact .inr (List.prefix_append ['\r', '\n'] cs)
  | case2 ch cs hpair =>
    rw [unpaired.eq_2 ch cs hpair] at h
    exact .inl h
  | case3 => cases h

/-- The lines between a first and a last one. -/
theorem innerLines_eq {first block last : List Char} (hfirst : '\n' ∉ first)
    (hblock : block.getLast? = some '\n') (hlast : '\n' ∉ last) :
    innerLines (first ++ '\n' :: (block ++ last)) = block := by
  have hkeep {cs : List Char} (h : '\n' ∉ cs) : ∀ ch ∈ cs, (ch != '\n') = true := by
    intro ch hch
    rw [bne_iff_ne]
    rintro rfl
    exact h hch
  obtain ⟨lines, rfl⟩ := List.getLast?_eq_some_iff.1 hblock
  unfold innerLines List.rdropWhile
  rw [List.dropWhile_append_of_pos (hkeep hfirst), List.dropWhile_cons_of_neg (by decide),
    List.tail_cons, List.reverse_append,
    List.dropWhile_append_of_pos fun ch hch => hkeep hlast ch (List.mem_reverse.1 hch),
    List.reverse_append]
  simp

end Lines

/-! ### Runs -/

namespace Window

variable {cs : List Char}

theorem get?_whole (cs : List Char) (i : Nat) : (whole cs.toArray).get? i = cs[i]? := by
  unfold get? whole
  dsimp only
  split
  · simp
  · rename_i h
    rw [List.size_toArray, Nat.not_lt] at h
    exact (List.getElem?_eq_none h).symm

theorem slice_whole (cs : List Char) (first last : Nat) :
    (whole cs.toArray).slice first last = (cs.drop first).take (last - first) := by
  simp [slice, whole]

theorem drop_of_getElem? {i : Nat} {ch : Char} (h : cs[i]? = some ch) :
    cs.drop i = ch :: cs.drop (i + 1) := by
  obtain ⟨hlt, rfl⟩ := List.getElem?_eq_some_iff.1 h
  exact List.drop_eq_getElem_cons hlt

theorem skipWhile_whole (cs : List Char) (p : Char → Bool) (i : Nat) :
    (whole cs.toArray).skipWhile p i = i + ((cs.drop i).takeWhile p).length := by
  induction i using skipWhile.induct (whole cs.toArray) p with
  | case1 i hstop ch hget hch ih =>
    have hdrop : cs.drop i = ch :: cs.drop (i + 1) := drop_of_getElem? (by simpa [whole] using hget)
    rw [skipWhile, if_pos hstop, hget]
    dsimp only
    rw [if_pos hch, ih, hdrop, List.takeWhile_cons_of_pos hch, List.length_cons]
    omega
  | case2 i hstop ch hget hch =>
    have hdrop : cs.drop i = ch :: cs.drop (i + 1) := drop_of_getElem? (by simpa [whole] using hget)
    rw [skipWhile, if_pos hstop, hget]
    dsimp only
    rw [if_neg hch, hdrop, List.takeWhile_cons_of_neg hch]
    rfl
  | case3 i hstop hget =>
    exact absurd hget (by simpa [whole] using hstop)
  | case4 i hstop =>
    have hdrop : cs.drop i = [] := List.drop_eq_nil_of_le (by simpa [whole] using hstop)
    rw [skipWhile, if_neg hstop, hdrop]
    rfl

/-- What a run passes over is of its kind. -/
theorem exists_run (cs : List Char) (p : Char → Bool) (i : Nat) :
    ∃ run, cs.drop i = run ++ cs.drop ((whole cs.toArray).skipWhile p i) ∧
      (∀ ch ∈ run, p ch = true) ∧ (whole cs.toArray).skipWhile p i = i + run.length := by
  refine ⟨(cs.drop i).takeWhile p, ?_, fun ch hch => List.mem_takeWhile_imp hch,
    skipWhile_whole cs p i⟩
  rw [skipWhile_whole, ← List.drop_drop]
  exact (List.prefix_iff_eq_append.1 (List.takeWhile_prefix p)).symm

/-- Without a line feed the line is the last one. -/
theorem nextLine_of_not_mem {i : Nat} (h : '\n' ∉ cs.drop i) (hi : i ≤ cs.length) :
    (whole cs.toArray).nextLine i = cs.length := by
  have hrun : (cs.drop i).takeWhile (· != '\n') = cs.drop i := by
    refine List.takeWhile_eq_self_iff.2 fun ch hch => ?_
    exact bne_iff_ne.2 (ne_of_mem_of_not_mem hch h)
  rw [nextLine, skipWhile_whole, hrun, List.length_drop]
  change min cs.length _ = _
  omega

end Window

/-! ### Lines -/

/-- A line that starts at a place of a text, without its line feed, and what comes after that. -/
structure LineAt (cs : List Char) (i : Nat) (line rest : List Char) : Prop where
  drop : cs.drop i = line ++ '\n' :: rest
  noFeed : '\n' ∉ line

theorem exists_lineAt {cs : List Char} {i : Nat} (h : '\n' ∈ cs.drop i) :
    ∃ line rest, LineAt cs i line rest := by
  obtain ⟨line, rest, hdrop, hline⟩ := List.eq_append_cons_of_mem h
  exact ⟨line, rest, hdrop, hline⟩

section Lines

variable {cs line rest : List Char} {i : Nat}

theorem getElem?_of_drop {front back : List Char} {ch : Char}
    (h : cs.drop i = front ++ ch :: back) : cs[i + front.length]? = some ch := by
  rw [← List.getElem?_drop, h]
  simp

theorem slice_of_drop {front part back : List Char} {first last : Nat}
    (h : cs.drop i = front ++ part ++ back) (hfirst : first = i + front.length)
    (hlast : last = first + part.length) : (Window.whole cs.toArray).slice first last = part := by
  rw [Window.slice_whole, hfirst, ← List.drop_drop, h, List.append_assoc, List.drop_left]
  exact List.take_left' (by omega)

namespace LineAt

theorem feed (h : LineAt cs i line rest) : cs[i + line.length]? = some '\n' :=
  getElem?_of_drop h.drop

theorem lt (h : LineAt cs i line rest) : i + line.length < cs.length :=
  (List.getElem?_eq_some_iff.1 h.feed).1

theorem drop_next (h : LineAt cs i line rest) : cs.drop (i + line.length + 1) = rest := by
  rw [Nat.add_assoc, ← List.drop_drop, h.drop]
  simp

theorem nextLine (h : LineAt cs i line rest) :
    (Window.whole cs.toArray).nextLine i = i + line.length + 1 := by
  have hrun : (cs.drop i).takeWhile (· != '\n') = line := by
    rw [h.drop, List.takeWhile_append_of_pos, List.takeWhile_cons_of_neg (by decide),
      List.append_nil]
    intro ch hch
    exact bne_iff_ne.2 (ne_of_mem_of_not_mem hch h.noFeed)
  rw [Window.nextLine, Window.skipWhile_whole, hrun]
  exact Nat.min_eq_right h.lt

/-- Where the line ends with a carriage return and a line feed. -/
theorem returns (h : LineAt cs i line rest) (hbefore : i ≠ 0 → cs[i - 1]? ≠ some '\r') :
    (decide (2 ≤ i + line.length + 1) &&
        (Window.whole cs.toArray).holds (i + line.length + 1 - 2) '\r' &&
        (Window.whole cs.toArray).test (i + line.length + 1 - 1) fun c => decide (c.toNat < 128)) =
      decide (line.getLast? = some '\r') := by
  have htest : ((Window.whole cs.toArray).test (i + line.length + 1 - 1)
      fun c => decide (c.toNat < 128)) = true := by
    rw [Window.test, Window.get?_whole, Nat.add_sub_cancel, h.feed]
    rfl
  rw [htest, Bool.and_true, Window.holds, Window.get?_whole]
  obtain rfl | ⟨line, ch, rfl⟩ := List.eq_nil_or_concat' line
  · -- the character in front of an empty line is in the line above
    cases i with
    | zero => rfl
    | succ i => simpa using hbefore (Nat.succ_ne_zero i)
  · have hdrop := h.drop
    rw [List.append_assoc] at hdrop
    have hlast : cs[i + line.length]? = some ch := getElem?_of_drop hdrop
    have hplace : i + (line ++ [ch]).length + 1 - 2 = i + line.length := by simp
    have hfar : 2 ≤ i + (line ++ [ch]).length + 1 := by simp; omega
    rw [hplace, hlast, decide_eq_true hfar, Bool.true_and, List.getLast?_concat,
      Bool.beq_eq_decide_eq]

end LineAt

theorem flatMap_stretches (w : Window) (stretches : List (Nat × Nat)) :
    ((stretches.filter fun x => x.1 < x.2).map fun x => Chunk.mk x.1 x.2 none).flatMap
      (Chunk.text w) = stretches.flatMap fun x => w.slice x.1 x.2 := by
  induction stretches with
  | nil => rfl
  | cons x xs ih =>
    rw [List.flatMap_cons, ← ih]
    by_cases hlt : x.1 < x.2
    · rw [List.filter_cons_of_pos (by simpa using hlt)]
      rfl
    · have hslice : w.slice x.1 x.2 = [] := by
        have hle := w.length_slice_le x.1 x.2
        exact List.length_eq_zero_iff.1 (by omega)
      rw [List.filter_cons_of_neg (by simpa using hlt), hslice, List.nil_append]

/-- The chunks of a line carry it without a carriage return before its line feed. -/
theorem LineAt.flatMap_lineChunks (h : LineAt cs i line rest)
    (hbefore : i ≠ 0 → cs[i - 1]? ≠ some '\r') :
    (lineChunks (Window.whole cs.toArray) 0 i (i + line.length + 1)).flatMap
      (Chunk.text (Window.whole cs.toArray)) = unpaired (line ++ ['\n']) := by
  rw [unpaired_line h.noFeed]
  unfold lineChunks
  dsimp only
  rw [if_pos (beq_self_eq_true 0), List.nil_append, flatMap_stretches, h.returns hbefore]
  simp only [decide_eq_true_eq]
  split
  · rename_i hreturn
    obtain ⟨line, rfl⟩ := List.getLast?_eq_some_iff.1 hreturn
    have hline : cs.drop i = [] ++ line ++ '\r' :: '\n' :: rest := by simp [h.drop]
    have hfeed : cs.drop i = line ++ ['\r'] ++ ['\n'] ++ rest := by simp [h.drop]
    have hkept : (Window.whole cs.toArray).slice i (i + (line ++ ['\r']).length + 1 - 2) = line :=
      slice_of_drop hline rfl (by simp)
    rw [List.flatMap_cons, List.flatMap_singleton, List.dropLast_concat, hkept]
    exact congrArg (line ++ ·) (slice_of_drop hfeed rfl rfl)
  · have hwhole : cs.drop i = [] ++ (line ++ ['\n']) ++ rest := by simp [h.drop]
    rw [List.flatMap_singleton]
    exact slice_of_drop hwhole rfl (by simp; omega)

end Lines

/-! ### Closing marks -/

section Marks

variable {cs : List Char} {i : Nat}

theorem drop_of_skipRun {mark : Char} {n : Nat}
    (h : (Window.whole cs.toArray).skipRun mark i - i = n) :
    cs.drop i = List.replicate n mark ++ cs.drop (i + n) := by
  obtain ⟨run, hdrop, hrun, hend⟩ := Window.exists_run cs (· == mark) i
  unfold Window.skipRun at h
  have hlength : run.length = n := by omega
  have hreplicate : run = List.replicate n mark :=
    List.eq_replicate_iff.2 ⟨hlength, fun ch hch => beq_iff_eq.1 (hrun ch hch)⟩
  rw [hdrop, hend, hlength, hreplicate]

/-- A closing mark holds no line feed. -/
theorem exists_mark {stop : Nat} (h : headerClose? (Window.whole cs.toArray) i = some stop) :
    ∃ mark, cs.drop i = mark ++ cs.drop stop ∧ '\n' ∉ mark ∧ stop = i + mark.length := by
  unfold headerClose? at h
  dsimp only at h
  split at h
  · rename_i hmark
    obtain ⟨next, -, rfl⟩ := Option.map_eq_some_iff.1 h
    obtain ⟨ch, hch, hdrop⟩ : ∃ ch, ch ≠ '\n' ∧
        cs.drop i = List.replicate 3 ch ++ cs.drop (i + 3) := by
      simp only [Bool.or_eq_true, beq_iff_eq] at hmark
      rcases hmark with hmark | hmark
      · exact ⟨'-', by decide, drop_of_skipRun hmark⟩
      · exact ⟨'.', by decide, drop_of_skipRun hmark⟩
    obtain ⟨spaces, hspaces, hrun, hend⟩ := Window.exists_run cs (· == ' ') (i + 3)
    refine ⟨List.replicate 3 ch ++ spaces, ?_, ?_, ?_⟩
    · rw [hdrop, hspaces, List.append_assoc]
      rfl
    · rw [List.mem_append, not_or]
      refine ⟨fun hmem => hch (List.eq_of_mem_replicate hmem).symm, fun hmem => ?_⟩
      exact absurd (hrun _ hmem) (by decide)
    · rw [List.length_append, List.length_replicate, ← Nat.add_assoc]
      exact hend
  · cases h

/-- A header that is not closed before the end of the text is none. -/
theorem headerLines?_of_end (fuel : Nat) (acc : List Chunk) :
    headerLines? (Window.whole cs.toArray) fuel acc cs.length = none := by
  have hrun (ch : Char) : (Window.whole cs.toArray).skipRun ch cs.length = cs.length := by
    rw [Window.skipRun, Window.skipWhile_whole, List.drop_length]
    rfl
  cases fuel with
  | zero => rfl
  | succ fuel =>
    have hclose : headerClose? (Window.whole cs.toArray) cs.length = none := by
      simp [headerClose?, hrun]
    rw [headerLines?, hclose]
    exact if_neg (Nat.lt_irrefl _)

end Marks

/-! ### Headers -/

/-- Lines that are read from a place of a text, with their line feeds, up to a closing mark. -/
structure LinesTo (cs : List Char) (i stop : Nat) (lines : List Char) : Prop where
  ends : lines.getLast? = some '\n' ∨
    lines = [] ∧ headerClose? (Window.whole cs.toArray) i = some stop
  closed : ∃ mark, cs.drop i = lines ++ (mark ++ cs.drop stop) ∧ '\n' ∉ mark ∧
    stop = i + (lines.length + mark.length)

section Headers

variable {cs line rest lines : List Char} {i stop : Nat}

theorem linesTo_of_headerClose? (h : headerClose? (Window.whole cs.toArray) i = some stop) :
    LinesTo cs i stop [] := by
  obtain ⟨mark, hdrop, hmark, hstop⟩ := exists_mark h
  exact ⟨.inr ⟨rfl, h⟩, mark, hdrop, hmark, by simpa using hstop⟩

theorem LinesTo.cons (h : LinesTo cs (i + line.length + 1) stop lines)
    (hline : LineAt cs i line rest) : LinesTo cs i stop (line ++ '\n' :: lines) := by
  obtain ⟨mark, hdrop, hmark, hstop⟩ := h.closed
  refine ⟨.inl ?_, mark, ?_, hmark, ?_⟩
  · rw [List.getLast?_append, List.getLast?_cons]
    rcases h.ends with hend | ⟨rfl, -⟩
    · rw [hend]
      rfl
    · rfl
  · rw [hline.drop, ← hline.drop_next, hdrop]
    simp
  · rw [hstop, List.length_append, List.length_cons]
    omega

/-- The lines of a header are read up to its closing mark. -/
theorem exists_linesTo {fuel : Nat} {acc chunks : List Chunk}
    (h : headerLines? (Window.whole cs.toArray) fuel acc i = some (chunks, stop))
    (hbefore : i ≠ 0 → cs[i - 1]? ≠ some '\r') (hi : i ≤ cs.length) :
    ∃ lines, LinesTo cs i stop lines ∧
      chunks.flatMap (Chunk.text (Window.whole cs.toArray)) =
        acc.flatMap (Chunk.text (Window.whole cs.toArray)) ++ unpaired lines := by
  induction fuel generalizing acc i with
  | zero => cases h
  | succ fuel ih =>
    rw [headerLines?] at h
    split at h
    · rename_i hclose
      cases h
      exact ⟨[], linesTo_of_headerClose? hclose, (List.append_nil _).symm⟩
    · split at h
      · dsimp only at h
        by_cases hfeed : '\n' ∈ cs.drop i
        · obtain ⟨line, rest, hline⟩ := exists_lineAt hfeed
          have hlast : cs[i + line.length + 1 - 1]? ≠ some '\r' := by
            rw [Nat.add_sub_cancel, hline.feed]
            decide
          rw [hline.nextLine] at h
          obtain ⟨lines, hlines, htext⟩ := ih h (fun _ => hlast) hline.lt
          refine ⟨line ++ '\n' :: lines, hlines.cons hline, ?_⟩
          rw [htext, List.flatMap_append, hline.flatMap_lineChunks hbefore, List.append_assoc,
            ← unpaired_line_append]
        · rw [Window.nextLine_of_not_mem hfeed hi, headerLines?_of_end] at h
          cases h
      · cases h

/-- The lines between those of the two marks, when the first mark is read. -/
theorem LinesTo.innerLines_take (first : List Char) (h : LinesTo cs (first.length + 1) stop lines)
    (hfirst : cs = first ++ '\n' :: cs.drop (first.length + 1)) (hfeed : '\n' ∉ first)
    (hlines : lines.getLast? = some '\n') : innerLines (cs.take stop) = lines := by
  obtain ⟨mark, hdrop, hmark, hstop⟩ := h.closed
  have hsplit : cs = (first ++ '\n' :: (lines ++ mark)) ++ cs.drop stop := by
    rw [hdrop] at hfirst
    simpa using hfirst
  have hlength : (first ++ '\n' :: (lines ++ mark)).length = stop := by
    rw [hstop, List.length_append, List.length_cons, List.length_append]
    omega
  have htake : cs.take stop = first ++ '\n' :: (lines ++ mark) := by
    conv_lhs => rw [hsplit]
    exact List.take_left' hlength
  rw [htake, innerLines_eq hfeed hlines hmark]

/-- The chunks of a header carry the lines between those of its marks. -/
theorem exists_chunks_of_header? {header : List Located} (h : header? cs = some (header, stop)) :
    (innerLines (cs.take stop)).getLast? = some '\n' ∧
      ∃ chunks : List Chunk, header = headerEvents cs chunks stop ∧
        chunks.flatMap (Chunk.text (Window.whole cs.toArray)) =
          unpaired (innerLines (cs.take stop)) := by
  obtain ⟨chunks, hopen, hclose, hchunks, hheader⟩ := exists_lines_header? h
  have hmark : cs = List.replicate 3 '-' ++ cs.drop 3 := drop_of_skipRun (i := 0) hopen
  by_cases hfeed : '\n' ∈ cs.drop 3
  · obtain ⟨line, rest, hline⟩ := exists_lineAt hfeed
    have hbefore : cs[3 + line.length + 1 - 1]? ≠ some '\r' := by
      rw [Nat.add_sub_cancel, hline.feed]
      decide
    rw [hline.nextLine] at hclose hchunks
    obtain ⟨lines, hlines, htext⟩ := exists_linesTo hchunks (fun _ => hbefore) hline.lt
    have hend : lines.getLast? = some '\n' := by
      rcases hlines.ends with hend | ⟨-, hclosed⟩
      · exact hend
      · rw [hclose] at hclosed
        cases hclosed
    have hfirst : (List.replicate 3 '-' ++ line).length = 3 + line.length := by
      rw [List.length_append, List.length_replicate]
    have hinner : innerLines (cs.take stop) = lines := by
      refine LinesTo.innerLines_take (List.replicate 3 '-' ++ line) ?_ ?_ ?_ hend
      · rw [hfirst]
        exact hlines
      · rw [hfirst, hline.drop_next, List.append_assoc, ← hline.drop]
        exact hmark
      · simpa using hline.noFeed
    rw [hinner]
    exact ⟨hend, chunks, hheader, htext⟩
  · have hle : 3 ≤ cs.length := by
      rw [hmark]
      simp
    rw [Window.nextLine_of_not_mem hfeed hle, headerLines?_of_end] at hchunks
    cases hchunks

end Headers

end DocSchema.Markdown
