/-
  DocSchema/Proofs/Yaml/Trim.lean
  ===============================
  **A YAML text and its trimmed form, read side by side.**

  The trimmed form of a text lacks its last line break, and has a line feed for every pair of a
  carriage return and a line feed (`Trimmed`).  Two readers that go over the two texts stay
  abreast (`Abreast`): they are on the same line and column with the same characters in front of
  them, but that the one may have passed the last line break where the other is at its end.
  `Abreast.here` says what they can see, and every reader of the following modules is followed
  case by case along it.
-/
import Mathlib.Data.Option.Basic
import DocSchema.Yaml.Cursor

namespace DocSchema.Yaml

/-! ### Breaks -/

def breaks : List Char :=
  ['\n', '\r', '\u0085', '\u2028', '\u2029']

theorem mem_breaks {ch : Char} (h : isBreak ch = true) : ch ∈ breaks := by
  have key : ∀ n : Nat, ch.toNat = n → ch = Char.ofNat n := fun n hn => by
    rw [← hn, Char.ofNat_toNat]
  simp only [isBreak, Bool.or_eq_true, beq_iff_eq] at h
  rcases h with (((h | h) | h) | h) | h <;> rw [key _ h] <;> decide

/-- What holds of the five breaks holds of every one. -/
theorem forall_break {p : Char → Bool} (h : breaks.all p = true) {ch : Char}
    (hch : isBreak ch = true) : p ch = true :=
  List.all_eq_true.1 h ch (mem_breaks hch)

theorem false_of_break {p : Char → Bool} (h : breaks.all (!p ·) = true) (ch : Char)
    (hch : isBreak ch = true) : p ch = false :=
  Bool.not_eq_eq_eq_not.1 (forall_break h hch)

theorem none_of_break {α : Type} {f : Char → Option α} (h : breaks.all (f · |>.isNone) = true)
    (ch : Char) (hch : isBreak ch = true) : f ch = none :=
  Option.isNone_iff_eq_none.1 (forall_break h hch)

theorem white_noBreak : ∀ ch, isBreak ch = true → isWhite ch = false :=
  false_of_break (by decide)

/-! ### Trimmed forms -/

/-- A text, and its form without the last line break and with line feeds for paired breaks. -/
inductive Trimmed : List Char → List Char → Prop
  | feed : Trimmed ['\n'] []
  | returnFeed : Trimmed ['\r', '\n'] []
  | paired {cs ds : List Char} : Trimmed cs ds → Trimmed ('\r' :: '\n' :: cs) ('\n' :: ds)
  | char {ch : Char} {cs ds : List Char} :
      (ch = '\r' → cs.head? ≠ some '\n' ∧ ds.head? ≠ some '\n') →
        Trimmed cs ds → Trimmed (ch :: cs) (ch :: ds)

theorem Trimmed.takeWhile {p : Char → Bool} {cs ds : List Char}
    (hp : ∀ ch, isBreak ch = true → p ch = false) (h : Trimmed cs ds) :
    cs.takeWhile p = ds.takeWhile p ∧
      Trimmed (cs.drop (cs.takeWhile p).length) (ds.drop (ds.takeWhile p).length) := by
  have hfeed : p '\n' = false := hp _ (by decide)
  have hreturn : p '\r' = false := hp _ (by decide)
  induction h with
  | feed => simpa [hfeed] using Trimmed.feed
  | returnFeed => simpa [hreturn] using Trimmed.returnFeed
  | paired h => simpa [hfeed, hreturn] using h.paired
  | @char ch cs ds hpair h ih =>
    cases hch : p ch with
    | false => simpa [hch] using Trimmed.char hpair h
    | true => simpa [hch] using ih

namespace Cursor

/-! ### What lies ahead -/

/-- The characters from a place on. -/
def rest (c : Cursor) : List Char :=
  c.chars.toList.drop c.pos

variable {c c₀ : Cursor} {ch x : Char} {cs : List Char} {p : Char → Bool}

theorem length_rest (c : Cursor) : c.rest.length = c.chars.size - c.pos := by
  simp [rest]

theorem rest_le (c : Cursor) : c.rest.length ≤ c.chars.size - c.pos :=
  Nat.le_of_eq (length_rest c)

theorem rest_le_size (c : Cursor) : c.rest.length ≤ c.chars.size := by
  rw [length_rest]
  exact Nat.sub_le _ _

theorem ahead?_eq (c : Cursor) (n : Nat) : c.ahead? n = c.rest[n]? := by
  simp [ahead?, rest]

theorem peek?_eq (c : Cursor) : c.peek? = c.rest.head? := by
  rw [peek?, ahead?_eq, List.head?_eq_getElem?]

theorem peek?_of_rest (h : c.rest = ch :: cs) : c.peek? = some ch := by
  rw [peek?_eq, h, List.head?_cons]

theorem rest_moved (c : Cursor) (n line column : Nat) :
    (⟨c.chars, c.pos + n, line, column⟩ : Cursor).rest = c.rest.drop n := by
  simp [rest]

theorem rest_next (c : Cursor) : c.next.rest = c.rest.tail := by
  rw [next, rest_moved, List.drop_one]

theorem holds_some (h : c.peek? = some ch) : c.holds 0 x = (ch == x) := by
  rw [holds, ← peek?, h]
  rfl

theorem holds_none (h : c.peek? = none) : c.holds 0 x = false := by
  rw [holds, ← peek?, h]
  rfl

theorem test_some (h : c.peek? = some ch) : c.test 0 p = p ch := by
  rw [test, ← peek?, h]

theorem test_none (h : c.peek? = none) : c.test 0 p = false := by
  rw [test, ← peek?, h]

theorem blankOrEnd_some (h : c.peek? = some ch) :
    c.blankOrEnd 0 = (isWhite ch || isBreak ch) := by
  rw [blankOrEnd, ← peek?, h]

theorem blankOrEnd_none (h : c.peek? = none) : c.blankOrEnd 0 = true := by
  rw [blankOrEnd, ← peek?, h]

theorem breakOrEnd_some (h : c.peek? = some ch) : c.breakOrEnd = isBreak ch := by
  rw [breakOrEnd, h]

theorem breakOrEnd_none (h : c.peek? = none) : c.breakOrEnd = true := by
  rw [breakOrEnd, h]

/-! ### Line ends -/

theorem nextLine_paired (h : c.rest = '\r' :: '\n' :: cs) :
    c.nextLine = ⟨c.chars, c.pos + 2, c.line + 1, 0⟩ := by
  simp [nextLine, holds, ahead?_eq, h]

theorem nextLine_single (h : c.rest = ch :: cs) (hch : isBreak ch = true)
    (hpair : ch = '\r' → cs.head? ≠ some '\n') :
    c.nextLine = ⟨c.chars, c.pos + 1, c.line + 1, 0⟩ := by
  have hnot : (c.holds 0 '\r' && c.holds 1 '\n') = false := by
    simpa [holds, ahead?_eq, h, List.head?_eq_getElem?] using hpair
  rw [nextLine, hnot, test_some (peek?_of_rest h), hch]
  rfl

theorem nextLine_of_noBreak (h : c.test 0 isBreak = false) : c.nextLine = c := by
  have hnot : (c.holds 0 '\r' && c.holds 1 '\n') = false := by
    cases hc : c.peek? with
    | none => rw [holds_none hc, Bool.false_and]
    | some ch =>
      have hch : ch ≠ '\r' := by
        rintro rfl
        rw [test_some hc] at h
        exact absurd h (by decide)
      simp [holds_some hc, hch]
  rw [nextLine, hnot, h]
  rfl

theorem nextLine_of_end (h : c.peek? = none) : c.nextLine = c :=
  nextLine_of_noBreak (test_none h)

/-! ### Progress -/

theorem rest_of_end (h : c.peek? = none) : c.rest = [] :=
  List.head?_eq_none_iff.1 (peek?_eq c ▸ h)

theorem rest_of_peek? (h : c.peek? = some ch) : c.rest = ch :: c.rest.tail := by
  obtain ⟨cs, hcs⟩ := List.head?_eq_some_iff.1 (peek?_eq c ▸ h)
  rw [hcs, List.tail_cons]

theorem left_next (h : c.peek? = some ch) : c.next.rest.length < c.rest.length := by
  rw [rest_next, rest_of_peek? h]
  simp

theorem left_nextLine (h : c.peek? = some ch) (hch : isBreak ch = true) :
    c.nextLine.rest.length < c.rest.length := by
  have hbreak : c.test 0 isBreak = true := by rw [test_some h, hch]
  have hleft : 0 < c.rest.length := by
    rw [rest_of_peek? h]
    exact Nat.succ_pos _
  rw [nextLine, if_pos hbreak]
  split <;> rw [rest_moved, List.length_drop] <;> omega

/-! ### Places behind one another -/

/-- A place is at another one or behind it; and if it is on the same line, then as many
characters behind it as columns. -/
structure Follows (c₀ c : Cursor) : Prop where
  line : c₀.line ≤ c.line
  column : c₀.line = c.line → c.pos + c₀.column = c₀.pos + c.column
  left : c.rest.length ≤ c₀.rest.length

theorem Follows.refl (c : Cursor) : Follows c c :=
  ⟨Nat.le_refl _, fun _ => rfl, Nat.le_refl _⟩

theorem Follows.trans {c' : Cursor} (h : Follows c₀ c) (h' : Follows c c') : Follows c₀ c' := by
  refine ⟨Nat.le_trans h.line h'.line, fun hline => ?_, Nat.le_trans h'.left h.left⟩
  have hline₀ := h.line
  have hline' := h'.line
  have hcolumn := h.column (by omega)
  have hcolumn' := h'.column (by omega)
  omega

theorem Follows.moved (h : Follows c₀ c) (n : Nat) :
    Follows c₀ ⟨c.chars, c.pos + n, c.line, c.column + n⟩ := by
  refine ⟨h.line, fun hline => ?_, ?_⟩
  · have := h.column hline
    dsimp only
    omega
  · rw [rest_moved, List.length_drop]
    exact Nat.le_trans (Nat.sub_le _ _) h.left

theorem Follows.next (h : Follows c₀ c) : Follows c₀ c.next :=
  h.moved 1

theorem Follows.newLine (h : Follows c₀ c) (n : Nat) :
    Follows c₀ ⟨c.chars, c.pos + n, c.line + 1, 0⟩ := by
  refine ⟨Nat.le_succ_of_le h.line, fun hline => ?_, ?_⟩
  · have := h.line
    dsimp only at hline
    omega
  · rw [rest_moved, List.length_drop]
    exact Nat.le_trans (Nat.sub_le _ _) h.left

theorem Follows.nextLine (h : Follows c₀ c) : Follows c₀ c.nextLine := by
  unfold Cursor.nextLine
  split
  · exact h.newLine 2
  · split
    · exact h.newLine 1
    · exact h

end Cursor

open Cursor

/-! ### Two places abreast -/

/-- Places in front of the same characters. -/
structure Level (c d : Cursor) : Prop where
  rest : Trimmed c.rest d.rest
  line : c.line = d.line
  column : c.column = d.column

/-- The ends of the two texts, behind the last line break and without it. -/
structure Ended (c d : Cursor) : Prop where
  full : c.peek? = none
  cut : d.peek? = none
  line : d.line < c.line

/-- Places in a text and its trimmed form that a reader of each reaches from `c₀` and `d₀`. -/
structure Abreast (c₀ d₀ c d : Cursor) : Prop where
  full : Follows c₀ c
  cut : Follows d₀ d
  place : Level c d ∨ Ended c d

/-- What two readers that are abreast can see. -/
inductive Here (c₀ d₀ c d : Cursor) : Prop
  /-- The end of both texts. -/
  | ended (place : Ended c d)
  /-- The last line break in front of the one, the end in front of the other. -/
  | last (ch : Char) (full : c.peek? = some ch) (isBreak : isBreak ch = true)
      (cut : d.peek? = none) (breakChars : c.breakChars = ['\n']) (ended : Ended c.nextLine d)
      (after : Abreast c₀ d₀ c.nextLine d) (column : c.column = d.column)
  /-- A line break in front of both. -/
  | break (ch ch' : Char) (full : c.peek? = some ch) (isBreak : isBreak ch = true)
      (cut : d.peek? = some ch') (isBreak' : Yaml.isBreak ch' = true)
      (breakChars : c.breakChars = d.breakChars)
      (after : Abreast c₀ d₀ c.nextLine d.nextLine) (column : c.column = d.column)
  /-- A character of a line in front of both. -/
  | char (ch : Char) (full : c.peek? = some ch) (cut : d.peek? = some ch)
      (noBreak : Yaml.isBreak ch = false) (after : Abreast c₀ d₀ c.next d.next)
      (column : c.column = d.column)

variable {c₀ d₀ c d : Cursor}

/-- What two readers reach from places that are abreast. -/
theorem Abreast.trans {c' d' : Cursor} (h : Abreast c₀ d₀ c d) (h' : Abreast c d c' d') :
    Abreast c₀ d₀ c' d' :=
  ⟨h.full.trans h'.full, h.cut.trans h'.cut, h'.place⟩

theorem Abreast.start (h : Abreast c₀ d₀ c d) : Abreast c d c d :=
  ⟨.refl c, .refl d, h.place⟩

/-- The one passes a pair where the other passes a line feed. -/
theorem Level.here_paired {cs ds : List Char} (h : Level c d) (hfull : Follows c₀ c)
    (hcut : Follows d₀ d) (hc : c.rest = '\r' :: '\n' :: cs) (hd : d.rest = '\n' :: ds)
    (hrest : Trimmed cs ds) : Here c₀ d₀ c d := by
  have hpair : '\n' = '\r' → ds.head? ≠ some '\n' := fun h => absurd h (by decide)
  have hbreak : isBreak '\n' = true := by decide
  refine .break '\r' '\n' (peek?_of_rest hc) (by decide) (peek?_of_rest hd) (by decide) ?_ ?_
    h.column
  · simp [breakChars, peek?_of_rest hc, peek?_of_rest hd, isBreak]
  · refine ⟨hfull.nextLine, hcut.nextLine, .inl ?_⟩
    rw [nextLine_paired hc, nextLine_single hd hbreak hpair]
    refine ⟨?_, congrArg (· + 1) h.line, rfl⟩
    simpa [rest_moved, hc, hd] using hrest

/-- Both pass the same character, a break or not. -/
theorem Level.here_char {ch : Char} {cs ds : List Char} (h : Level c d) (hfull : Follows c₀ c)
    (hcut : Follows d₀ d) (hc : c.rest = ch :: cs) (hd : d.rest = ch :: ds)
    (hpair : ch = '\r' → cs.head? ≠ some '\n' ∧ ds.head? ≠ some '\n') (hrest : Trimmed cs ds) :
    Here c₀ d₀ c d := by
  cases hch : isBreak ch with
  | false =>
    refine .char ch (peek?_of_rest hc) (peek?_of_rest hd) hch
      ⟨hfull.next, hcut.next, .inl ⟨?_, h.line, congrArg (· + 1) h.column⟩⟩ h.column
    simpa [rest_next, hc, hd] using hrest
  | true =>
    have hc' := nextLine_single hc hch fun h => (hpair h).1
    have hd' := nextLine_single hd hch fun h => (hpair h).2
    refine .break ch ch (peek?_of_rest hc) hch (peek?_of_rest hd) hch ?_ ?_ h.column
    · rw [breakChars, breakChars, peek?_of_rest hc, peek?_of_rest hd]
    · refine ⟨hfull.nextLine, hcut.nextLine, .inl ?_⟩
      rw [hc', hd']
      refine ⟨?_, congrArg (· + 1) h.line, rfl⟩
      simpa [rest_moved, hc, hd] using hrest

/-- The one passes the last break, the other is at its end. -/
theorem Level.here_last {ch : Char} {cs : List Char} (h : Level c d) (hfull : Follows c₀ c)
    (hcut : Follows d₀ d) (hc : c.rest = ch :: cs) (hch : ch = '\n' ∨ ch = '\r')
    (hrest : c.nextLine.rest = []) (hline : c.nextLine.line = c.line + 1) (hd : d.rest = []) :
    Here c₀ d₀ c d := by
  have hbreak : isBreak ch = true := by rcases hch with rfl | rfl <;> decide
  have hdend : d.peek? = none := by rw [peek?_eq, hd, List.head?_nil]
  have hended : Ended c.nextLine d :=
    ⟨by rw [peek?_eq, hrest, List.head?_nil], hdend, by rw [hline, h.line]; exact Nat.lt_succ_self _⟩
  refine .last ch (peek?_of_rest hc) hbreak hdend ?_ hended ⟨hfull.nextLine, hcut, .inr hended⟩
    h.column
  rw [breakChars, peek?_of_rest hc]
  rcases hch with rfl | rfl <;> rfl

theorem Abreast.here (h : Abreast c₀ d₀ c d) : Here c₀ d₀ c d := by
  obtain ⟨hfull, hcut, hlevel | hended⟩ := h
  · have hrest := hlevel.rest
    generalize hc : c.rest = cs, hd : d.rest = ds at hrest
    cases hrest with
    | feed =>
      have hline := nextLine_single hc (by decide) fun h => absurd h (by decide)
      refine hlevel.here_last hfull hcut hc (.inl rfl) ?_ (congrArg Cursor.line hline) hd
      rw [hline, rest_moved, hc]
      rfl
    | returnFeed =>
      have hline := nextLine_paired hc
      refine hlevel.here_last hfull hcut hc (.inr rfl) ?_ (congrArg Cursor.line hline) hd
      rw [hline, rest_moved, hc]
      rfl
    | paired hrest => exact hlevel.here_paired hfull hcut hc hd hrest
    | char hpair hrest => exact hlevel.here_char hfull hcut hc hd hpair hrest
  · exact .ended hended

theorem Abreast.ended_of_left (h : Abreast c₀ d₀ c d) (hc : c.rest.length ≤ 0) : Ended c d := by
  rcases h.place with hlevel | hended
  · have hrest := hlevel.rest
    rw [List.length_eq_zero_iff.1 (Nat.le_zero.1 hc)] at hrest
    cases hrest
  · exact hended

/-! ### What both see -/

variable {x : Char} {p : Char → Bool}

theorem Abreast.test (h : Abreast c₀ d₀ c d) (hp : ∀ ch, isBreak ch = true → p ch = false) :
    c.test 0 p = d.test 0 p := by
  cases h.here with
  | ended place => rw [test_none place.full, test_none place.cut]
  | last ch hc hch hd => rw [test_some hc, test_none hd, hp ch hch]
  | «break» ch ch' hc hch hd hch' => rw [test_some hc, test_some hd, hp ch hch, hp ch' hch']
  | char ch hc hd => rw [test_some hc, test_some hd]

theorem holds_eq_test (c : Cursor) (n : Nat) (x : Char) : c.holds n x = c.test n (· == x) := by
  rw [Cursor.holds, Cursor.test]
  cases c.ahead? n <;> rfl

theorem beq_of_noBreak (hx : isBreak x = false) (ch : Char) (hch : isBreak ch = true) :
    (ch == x) = false := by
  rw [beq_eq_false_iff_ne]
  rintro rfl
  rw [hx] at hch
  cases hch

theorem Abreast.holds (h : Abreast c₀ d₀ c d) (hx : isBreak x = false) :
    c.holds 0 x = d.holds 0 x := by
  rw [holds_eq_test, holds_eq_test]
  exact h.test (beq_of_noBreak hx)

theorem Abreast.blankOrEnd (h : Abreast c₀ d₀ c d) : c.blankOrEnd 0 = d.blankOrEnd 0 := by
  cases h.here with
  | ended place => rw [blankOrEnd_none place.full, blankOrEnd_none place.cut]
  | last ch hc hch hd => rw [blankOrEnd_some hc, blankOrEnd_none hd, hch, Bool.or_true]
  | «break» ch ch' hc hch hd hch' =>
    rw [blankOrEnd_some hc, blankOrEnd_some hd, hch, hch', Bool.or_true, Bool.or_true]
  | char ch hc hd => rw [blankOrEnd_some hc, blankOrEnd_some hd]

theorem Abreast.breakOrEnd (h : Abreast c₀ d₀ c d) : c.breakOrEnd = d.breakOrEnd := by
  cases h.here with
  | ended place => rw [breakOrEnd_none place.full, breakOrEnd_none place.cut]
  | last ch hc hch hd => rw [breakOrEnd_some hc, breakOrEnd_none hd, hch]
  | «break» ch ch' hc hch hd hch' => rw [breakOrEnd_some hc, breakOrEnd_some hd, hch, hch']
  | char ch hc hd => rw [breakOrEnd_some hc, breakOrEnd_some hd]

/-! ### Steps that keep abreast -/

/-- A character that is no break is in front of both. -/
theorem Abreast.peek?_of_test (h : Abreast c₀ d₀ c d)
    (hp : ∀ ch, isBreak ch = true → p ch = false) (ht : c.test 0 p = true) :
    ∃ ch, c.peek? = some ch ∧ d.peek? = some ch ∧ Abreast c₀ d₀ c.next d.next := by
  cases h.here with
  | ended place => rw [test_none place.full] at ht; cases ht
  | last ch hc hch => rw [test_some hc, hp ch hch] at ht; cases ht
  | «break» ch ch' hc hch => rw [test_some hc, hp ch hch] at ht; cases ht
  | char ch hc hd hch after => exact ⟨ch, hc, hd, after⟩

/-- Both pass a character that is no break. -/
theorem Abreast.next_of_test (h : Abreast c₀ d₀ c d)
    (hp : ∀ ch, isBreak ch = true → p ch = false) (ht : c.test 0 p = true) :
    Abreast c₀ d₀ c.next d.next ∧ c.next.rest.length < c.rest.length ∧
      d.next.rest.length < d.rest.length := by
  obtain ⟨ch, hc, hd, after⟩ := h.peek?_of_test hp ht
  exact ⟨after, left_next hc, left_next hd⟩

theorem Abreast.next_of_holds (h : Abreast c₀ d₀ c d) (hx : isBreak x = false)
    (ht : c.holds 0 x = true) :
    Abreast c₀ d₀ c.next d.next ∧ c.next.rest.length < c.rest.length ∧
      d.next.rest.length < d.rest.length :=
  h.next_of_test (beq_of_noBreak hx) (holds_eq_test c 0 x ▸ ht)

theorem Abreast.bind_peek? {α : Type} {f : Char → Option α} (h : Abreast c₀ d₀ c d)
    (hf : ∀ ch, isBreak ch = true → f ch = none) : c.peek?.bind f = d.peek?.bind f := by
  cases h.here with
  | ended hended => rw [hended.full, hended.cut]
  | last ch hc hch hd => rw [hc, hd, Option.bind_some, Option.bind_none, hf ch hch]
  | «break» ch ch' hc hch hd hch' =>
    rw [hc, hd, Option.bind_some, Option.bind_some, hf ch hch, hf ch' hch']
  | char ch hc hd => rw [hc, hd]

theorem Abreast.next_of_bind {α : Type} {f : Char → Option α} {x : α} (h : Abreast c₀ d₀ c d)
    (hf : ∀ ch, isBreak ch = true → f ch = none) (hx : c.peek?.bind f = some x) :
    Abreast c₀ d₀ c.next d.next := by
  cases h.here with
  | ended hended => rw [hended.full] at hx; cases hx
  | last ch hc hch => rw [hc, Option.bind_some, hf ch hch] at hx; cases hx
  | «break» ch ch' hc hch => rw [hc, Option.bind_some, hf ch hch] at hx; cases hx
  | char ch hc hd hch after => exact after

theorem Abreast.nextLine (h : Abreast c₀ d₀ c d) : Abreast c₀ d₀ c.nextLine d.nextLine := by
  cases h.here with
  | ended place =>
    rw [nextLine_of_end place.full, nextLine_of_end place.cut]
    exact h
  | last ch hc hch hd hchars hended after =>
    rw [nextLine_of_end hd]
    exact after
  | «break» ch ch' hc hch hd hch' hchars after => exact after
  | char ch hc hd hch =>
    rw [nextLine_of_noBreak (test_some hc ▸ hch), nextLine_of_noBreak (test_some hd ▸ hch)]
    exact h

theorem takeWhile_eq (c : Cursor) (p : Char → Bool) :
    c.takeWhile p = (c.rest.takeWhile p,
      ⟨c.chars, c.pos + (c.rest.takeWhile p).length, c.line,
        c.column + (c.rest.takeWhile p).length⟩) := by
  have hrest : (c.chars.extract c.pos c.chars.size).toList = c.rest := by
    rw [Array.toList_extract, List.extract_eq_take_drop, rest]
    exact List.take_of_length_le (by simp)
  rw [Cursor.takeWhile, hrest]

theorem Abreast.takeWhile (h : Abreast c₀ d₀ c d)
    (hp : ∀ ch, isBreak ch = true → p ch = false) :
    (c.takeWhile p).1 = (d.takeWhile p).1 ∧
      Abreast c₀ d₀ (c.takeWhile p).2 (d.takeWhile p).2 := by
  rw [takeWhile_eq, takeWhile_eq]
  obtain ⟨hfull, hcut, hlevel | hended⟩ := h
  · obtain ⟨hsame, hrest⟩ := hlevel.rest.takeWhile hp
    refine ⟨hsame, hfull.moved _, hcut.moved _, .inl ⟨?_, hlevel.line, ?_⟩⟩
    · rwa [rest_moved, rest_moved]
    · exact congrArg₂ (· + ·) hlevel.column (congrArg List.length hsame)
  · rw [rest_of_end hended.full, rest_of_end hended.cut]
    exact ⟨rfl, hfull.moved 0, hcut.moved 0, .inr hended⟩

theorem test_of_left (h : c.rest.length ≤ 0) : c.test 0 p = false := by
  refine test_none ?_
  rw [peek?_eq, List.head?_eq_none_iff, ← List.length_eq_zero_iff]
  exact Nat.le_zero.1 h

theorem skipWhite_go_stop (h : c.test 0 isWhite = false) (n : Nat) : skipWhite.go n c = c := by
  cases n with
  | zero => rfl
  | succ n =>
    rw [skipWhite.go, h]
    rfl

theorem Abreast.skipWhite_go {n m : Nat} (h : Abreast c₀ d₀ c d) (hn : c.rest.length ≤ n)
    (hm : d.rest.length ≤ m) : Abreast c₀ d₀ (skipWhite.go n c) (skipWhite.go m d) := by
  induction n generalizing m c d with
  | zero =>
    have hc : c.test 0 isWhite = false := test_of_left hn
    rwa [skipWhite_go_stop hc, skipWhite_go_stop (h.test white_noBreak ▸ hc)]
  | succ n ih =>
    cases hc : c.test 0 isWhite with
    | false => rwa [skipWhite_go_stop hc, skipWhite_go_stop (h.test white_noBreak ▸ hc)]
    | true =>
      obtain ⟨hnext, hleft, hleft'⟩ := h.next_of_test white_noBreak hc
      obtain ⟨m, rfl⟩ : ∃ k, m = k + 1 := ⟨m - 1, by omega⟩
      rw [skipWhite.go, skipWhite.go, ← h.test white_noBreak, hc]
      exact ih hnext (by omega) (by omega)

theorem Abreast.skipWhite (h : Abreast c₀ d₀ c d) : Abreast c₀ d₀ c.skipWhite d.skipWhite :=
  h.skipWhite_go (rest_le c) (rest_le d)

theorem skipToBreak_go_stop (h : c.breakOrEnd = true) (n : Nat) : skipToBreak.go n c = c := by
  cases n with
  | zero => rfl
  | succ n =>
    rw [skipToBreak.go, h]
    rfl

theorem Abreast.skipToBreak_go {n m : Nat} (h : Abreast c₀ d₀ c d) (hn : c.rest.length ≤ n)
    (hm : d.rest.length ≤ m) : Abreast c₀ d₀ (skipToBreak.go n c) (skipToBreak.go m d) := by
  induction n generalizing m c d with
  | zero =>
    have hc : c.breakOrEnd = true := by
      cases hpeek : c.peek? with
      | none => exact breakOrEnd_none hpeek
      | some ch =>
        have := test_of_left (p := fun _ => true) hn
        rw [test_some hpeek] at this
        cases this
    rwa [skipToBreak_go_stop hc, skipToBreak_go_stop (h.breakOrEnd ▸ hc)]
  | succ n ih =>
    cases hc : c.breakOrEnd with
    | true => rwa [skipToBreak_go_stop hc, skipToBreak_go_stop (h.breakOrEnd ▸ hc)]
    | false =>
      have ht : c.test 0 (!isBreak ·) = true := by
        cases hpeek : c.peek? with
        | none => rw [breakOrEnd_none hpeek] at hc; cases hc
        | some ch => rw [test_some hpeek, ← breakOrEnd_some hpeek, hc]; rfl
      obtain ⟨hnext, hleft, hleft'⟩ := h.next_of_test (fun ch hch => by rw [hch]; rfl) ht
      obtain ⟨m, rfl⟩ : ∃ k, m = k + 1 := ⟨m - 1, by omega⟩
      rw [skipToBreak.go, skipToBreak.go, ← h.breakOrEnd, hc]
      exact ih hnext (by omega) (by omega)

theorem Abreast.skipToBreak (h : Abreast c₀ d₀ c d) :
    Abreast c₀ d₀ c.skipToBreak d.skipToBreak :=
  h.skipToBreak_go (rest_le c) (rest_le d)

/-- Both pass a comment, or none. -/
theorem Abreast.skipComment (h : Abreast c₀ d₀ c d) :
    Abreast c₀ d₀ (if c.holds 0 '#' then c.skipToBreak else c)
      (if d.holds 0 '#' then d.skipToBreak else d) := by
  rw [← h.holds (x := '#') (by decide)]
  split
  · exact h.skipToBreak
  · exact h

theorem drop_length_takeWhile (p : Char → Bool) (cs : List Char) :
    cs.drop (cs.takeWhile p).length = cs.dropWhile p := by
  have hsplit := congrArg (List.drop (cs.takeWhile p).length)
    (List.takeWhile_append_dropWhile (p := p) (l := cs))
  rw [← hsplit]
  exact List.drop_left

theorem takeWhile_stop (c : Cursor) (p : Char → Bool) : (c.takeWhile p).2.test 0 p = false := by
  have hrest : (c.takeWhile p).2.rest = c.rest.dropWhile p := by
    rw [takeWhile_eq, rest_moved, drop_length_takeWhile]
  have hhead := List.head?_dropWhile_not p c.rest
  cases hpeek : (c.takeWhile p).2.peek? with
  | none => exact test_none hpeek
  | some ch =>
    rw [← hrest, ← peek?_eq, hpeek] at hhead
    rw [test_some hpeek]
    exact hhead

theorem takeWhile_left (h : c.test 0 p = true) :
    (c.takeWhile p).2.rest.length < c.rest.length := by
  cases hpeek : c.peek? with
  | none => rw [test_none hpeek] at h; cases h
  | some ch =>
    rw [test_some hpeek] at h
    rw [takeWhile_eq, rest_moved, rest_of_peek? hpeek, List.takeWhile_cons, if_pos h,
      List.length_drop, List.length_cons, List.length_cons]
    omega

/-! ### Readings side by side -/

/-- Readings that answer the same and leave the readers abreast. -/
def Alike {α : Type} (c₀ d₀ : Cursor) (a b : α × Cursor) : Prop :=
  a.1 = b.1 ∧ Abreast c₀ d₀ a.2 b.2

theorem rel_cases {α β : Type} {R : α → β → Prop} {x : Option α} {y : Option β}
    (h : Option.Rel R x y) :
    (x = none ∧ y = none) ∨ ∃ a b, x = some a ∧ y = some b ∧ R a b := by
  cases h with
  | none => exact .inl ⟨rfl, rfl⟩
  | some hab => exact .inr ⟨_, _, rfl, rfl, hab⟩

theorem rel_ite {α β : Type} {R : α → β → Prop} {b : Bool} {x y : Option α} {x' y' : Option β}
    (hthen : b = true → Option.Rel R x x') (helse : b = false → Option.Rel R y y') :
    Option.Rel R (if b then x else y) (if b then x' else y') := by
  cases b with
  | true => exact hthen rfl
  | false => exact helse rfl

theorem rel_bind {α β α' β' : Type} {R : α → β → Prop} {S : α' → β' → Prop} {x : Option α}
    {y : Option β} {f : α → Option α'} {g : β → Option β'} (h : Option.Rel R x y)
    (hfg : ∀ a b, R a b → Option.Rel S (f a) (g b)) : Option.Rel S (x >>= f) (y >>= g) := by
  cases h with
  | none => exact .none
  | some hab => exact hfg _ _ hab

theorem rel_map {α β α' β' : Type} {R : α → β → Prop} {S : α' → β' → Prop} {x : Option α}
    {y : Option β} {f : α → α'} {g : β → β'} (h : Option.Rel R x y)
    (hfg : ∀ a b, R a b → S (f a) (g b)) : Option.Rel S (x.map f) (y.map g) := by
  cases h with
  | none => exact .none
  | some hab => exact .some (hfg _ _ hab)

theorem Abreast.skipRestOfLine? (h : Abreast c₀ d₀ c d) :
    Option.Rel (Abreast c₀ d₀) c.skipRestOfLine? d.skipRestOfLine? := by
  unfold Cursor.skipRestOfLine?
  extract_lets c₁ c₂ d₁ d₂
  have hend : Abreast c₀ d₀ c₂ d₂ := h.skipWhite.skipComment
  rw [← hend.breakOrEnd]
  split
  · exact .some hend.nextLine
  · exact .none

/-- A mark of three characters with a blank or the end of the text behind it. -/
theorem Abreast.mark (h : Abreast c₀ d₀ c d) (hx : isBreak x = false) :
    (c.blankOrEnd 3 && (c.holds 0 x && c.holds 1 x && c.holds 2 x)) =
      (d.blankOrEnd 3 && (d.holds 0 x && d.holds 1 x && d.holds 2 x)) := by
  rw [← h.holds hx]
  cases h₀ : c.holds 0 x with
  | false => simp
  | true =>
    have h := (h.next_of_holds hx h₀).1
    have heq : c.holds 1 x = d.holds 1 x := h.holds hx
    rw [← heq]
    cases h₁ : c.holds 1 x with
    | false => simp
    | true =>
      have h := (h.next_of_holds hx h₁).1
      have heq : c.holds 2 x = d.holds 2 x := h.holds hx
      rw [← heq]
      cases h₂ : c.holds 2 x with
      | false => simp
      | true =>
        have h := (h.next_of_holds hx h₂).1
        have heq : c.blankOrEnd 3 = d.blankOrEnd 3 := h.blankOrEnd
        rw [heq]

theorem atDocumentMark_eq (c : Cursor) :
    c.atDocumentMark = (c.column == 0 &&
      ((c.blankOrEnd 3 && (c.holds 0 '-' && c.holds 1 '-' && c.holds 2 '-')) ||
        (c.blankOrEnd 3 && (c.holds 0 '.' && c.holds 1 '.' && c.holds 2 '.')))) := by
  rw [atDocumentMark, ← Bool.and_or_distrib_left, Bool.and_assoc]

/-- Both pass the rest of a mark. -/
theorem Abreast.next_mark (h : Abreast c₀ d₀ c.next d.next) (hmark : c.atDocumentMark = true) :
    Abreast c₀ d₀ c.next.next.next d.next.next.next := by
  obtain ⟨x, hx, h₁, h₂⟩ : ∃ x, isBreak x = false ∧ c.holds 1 x = true ∧ c.holds 2 x = true := by
    simp only [Cursor.atDocumentMark, Bool.and_eq_true, Bool.or_eq_true] at hmark
    rcases hmark with ⟨-, ⟨⟨-, h₁⟩, h₂⟩ | ⟨⟨-, h₁⟩, h₂⟩⟩
    · exact ⟨'-', by decide, h₁, h₂⟩
    · exact ⟨'.', by decide, h₁, h₂⟩
  have hsecond : c.next.holds 0 x = true := h₁
  have hthird : c.next.next.holds 0 x = true := h₂
  exact ((h.next_of_holds hx hsecond).1.next_of_holds hx hthird).1

theorem atDocumentMark_of_end (h : c.peek? = none) : c.atDocumentMark = false := by
  simp [atDocumentMark, holds_none h]

theorem Abreast.atDocumentMark (h : Abreast c₀ d₀ c d) :
    c.atDocumentMark = d.atDocumentMark := by
  rcases h.place with hlevel | hended
  · rw [atDocumentMark_eq, atDocumentMark_eq, hlevel.column, h.mark (by decide),
      h.mark (by decide)]
  · rw [atDocumentMark_of_end hended.full, atDocumentMark_of_end hended.cut]

end DocSchema.Yaml
