/-
  DocSchema/Proofs/Pointer.lean
  =============================
  **Pointers keep the segments that they lead through.**

  Whatever stands in the segments, slashes, tildes, number signs or nothing at all, a pointer is
  read back as the path that it was written from (`segments_encode`), and only the empty path
  has the empty pointer (`encode_eq_empty_iff`).

  Which texts are pointers, and what they lead through, is told by a grammar (`Points`).  Those
  texts and no others are written back from the path that they are read as
  (`segments_inverts_encode`).
-/
import DocSchema.Pointer
import DocSchema.Proofs.Text.Digits

namespace DocSchema.Pointer

open DocSchema.Text

/-! ### Escapes -/

/-- What is left of escapes when slashes have been restored. -/
def escapeTildes : List Char → List Char
  | [] => []
  | c :: cs => if c == '~' then '~' :: '0' :: escapeTildes cs else c :: escapeTildes cs

theorem restoreSlashes_cons {c : Char} (h : c ≠ '~') (cs : List Char) :
    restoreSlashes (c :: cs) = c :: restoreSlashes cs := by
  rw [restoreSlashes]
  intro _ hc
  exact absurd hc h

theorem restoreTildes_cons {c : Char} (h : c ≠ '~') (cs : List Char) :
    restoreTildes (c :: cs) = c :: restoreTildes cs := by
  rw [restoreTildes]
  intro _ hc
  exact absurd hc h

theorem restoreSlashes_escape (cs : List Char) :
    restoreSlashes (escape cs) = escapeTildes cs := by
  induction cs with
  | nil => rfl
  | cons c cs ih =>
    by_cases htilde : c = '~'
    · subst htilde
      have hzero := restoreSlashes_cons (c := '0') (by decide) (escape cs)
      simp [escape, escapeTildes, restoreSlashes, hzero, ih]
    · by_cases hslash : c = '/'
      · subst hslash
        simp [escape, escapeTildes, restoreSlashes, ih]
      · have hescape : escape (c :: cs) = c :: escape cs := by simp [escape, htilde, hslash]
        rw [hescape, restoreSlashes_cons htilde, ih]
        simp [escapeTildes, htilde]

theorem restoreTildes_escapeTildes (cs : List Char) : restoreTildes (escapeTildes cs) = cs := by
  induction cs with
  | nil => rfl
  | cons c cs ih =>
    by_cases htilde : c = '~'
    · subst htilde
      simp [escapeTildes, restoreTildes, ih]
    · have hescape : escapeTildes (c :: cs) = c :: escapeTildes cs := by
        simp [escapeTildes, htilde]
      rw [hescape, restoreTildes_cons htilde, ih]

theorem unescape_escape (cs : List Char) : unescape (escape cs) = cs := by
  unfold unescape
  rw [restoreSlashes_escape, restoreTildes_escapeTildes]

theorem slash_not_mem_escape (cs : List Char) : '/' ∉ escape cs := by
  induction cs with
  | nil => exact List.not_mem_nil
  | cons c cs ih =>
    by_cases htilde : c = '~'
    · simp [escape, htilde, ih]
    · by_cases hslash : c = '/'
      · simp [escape, hslash, ih]
      · simp [escape, htilde, hslash, ih, Ne.symm hslash]

/-! ### Round trip -/

/-- The slashes of a pointer are those between its segments. -/
theorem splitAt_encodeChars (s : String) (rest : List String) :
    splitAt '/' (escape s.toList ++ encodeChars rest) =
      (s :: rest).map fun s => escape s.toList := by
  induction rest generalizing s with
  | nil =>
    have hnone := splitAt_of_not_mem (slash_not_mem_escape s.toList)
    simpa [encodeChars] using hnone
  | cons r rest ih =>
    rw [encodeChars, List.cons_append, splitAt_append, ih r]
    rw [splitAt_of_not_mem (slash_not_mem_escape s.toList)]
    rfl

theorem segments_encode (path : List String) : segments (encode path) = path := by
  unfold segments encode
  rw [String.toList_ofList]
  cases path with
  | nil => rfl
  | cons s rest =>
    have hpieces : segmentsOf (encodeChars (s :: rest)) =
        (splitAt '/' (escape s.toList ++ encodeChars rest)).map
          fun cs => String.ofList (unescape cs) := rfl
    rw [hpieces, splitAt_encodeChars, List.map_map]
    have hsegment : ((fun cs => String.ofList (unescape cs)) ∘ fun s : String => escape s.toList) =
        id := by
      funext s
      simp [unescape_escape]
    rw [hsegment, List.map_id]

theorem encode_eq_empty_iff {path : List String} : encode path = "" ↔ path = [] := by
  constructor
  · intro h
    rw [← segments_encode path, h]
    rfl
  · rintro rfl
    rfl

/-! ### Texts that are pointers -/

/-- `Spells cs s`: in a pointer the characters `cs` stand for the segment `s`. -/
inductive Spells : List Char → List Char → Prop
  | nil : Spells [] []
  | plain {c : Char} {cs s : List Char} (htilde : c ≠ '~') (hslash : c ≠ '/') (h : Spells cs s) :
      Spells (c :: cs) (c :: s)
  | tilde {cs s : List Char} (h : Spells cs s) : Spells ('~' :: '0' :: cs) ('~' :: s)
  | slash {cs s : List Char} (h : Spells cs s) : Spells ('~' :: '1' :: cs) ('/' :: s)

/-- `Points cs path`: the characters `cs` are a pointer, and lead through the segments of `path`. -/
inductive Points : List Char → List String → Prop
  | nil : Points [] []
  | segment {cs rest : List Char} {s : String} {path : List String} (h : Spells cs s.toList)
      (hrest : Points rest path) : Points ('/' :: cs ++ rest) (s :: path)

theorem spells_iff {cs s : List Char} : Spells cs s ↔ cs = escape s := by
  constructor
  · intro h
    induction h with
    | nil => rfl
    | plain htilde hslash _ ih => simp [escape, htilde, hslash, ih]
    | tilde _ ih | slash _ ih => simp [escape, ih]
  · rintro rfl
    induction s with
    | nil => exact .nil
    | cons c s ih =>
      by_cases htilde : c = '~'
      · subst htilde
        exact .tilde ih
      · by_cases hslash : c = '/'
        · subst hslash
          exact .slash ih
        · have hescape : escape (c :: s) = c :: escape s := by simp [escape, htilde, hslash]
          rw [hescape]
          exact .plain htilde hslash ih

theorem points_iff {cs : List Char} {path : List String} :
    Points cs path ↔ cs = encodeChars path := by
  constructor
  · intro h
    induction h with
    | nil => rfl
    | segment h _ ih => rw [spells_iff.1 h, ih, encodeChars]
  · rintro rfl
    induction path with
    | nil => exact .nil
    | cons s path ih => exact .segment (spells_iff.2 rfl) ih

/-- **Pointers and paths are two forms of one thing.**  A path is written as a pointer that leads
through its segments, and is read back from it, also with a number sign in front.  A text is
written back from the path that it is read as if it is a pointer, and not otherwise. -/
theorem segments_inverts_encode :
    (∀ path : List String, Points (encode path).toList path ∧
      segments (encode path) = path ∧ segments ("#" ++ encode path) = path) ∧
    ∀ pointer : String, (∃ path, Points pointer.toList path) ↔
      encode (segments pointer) = pointer := by
  have hpoints : ∀ path, Points (encode path).toList path := fun path =>
    points_iff.2 (by rw [encode, String.toList_ofList])
  refine ⟨fun path => ⟨hpoints path, segments_encode path, ?_⟩, fun pointer => ⟨?_, fun h => ?_⟩⟩
  · have hfragment : segments ("#" ++ encode path) = segments (encode path) := by
      unfold segments
      rw [String.toList_append]
      rfl
    rw [hfragment, segments_encode]
  · rintro ⟨path, hpath⟩
    have hpointer : pointer = encode path := by
      rw [encode, ← points_iff.1 hpath, String.ofList_toList]
    rw [hpointer, segments_encode]
  · have hself := hpoints (segments pointer)
    rw [h] at hself
    exact ⟨_, hself⟩

/-- Of two escapes that overlap the first one counts. -/
example : segments "#/a~1b/~01//#" = ["a/b", "~1", "", "#"] := by decide

/-! ### Indexes -/

/-- The segment writes the index `i` in decimal digits, with noughts in front or without. -/
structure IsIndex (segment : String) (i : Nat) : Prop where
  nonempty : segment ≠ ""
  digits : ∀ c ∈ segment.toList, c.isDigit = true
  value : Nat.ofDigitChars 10 segment.toList 0 = i

theorem IsIndex.unique {segment : String} {i j : Nat} (h : IsIndex segment i)
    (h' : IsIndex segment j) : i = j :=
  h.value.symm.trans h'.value

theorem index?_eq_some_iff {segment : String} {i : Nat} :
    index? segment = some i ↔ IsIndex segment i := by
  have hnonempty : segment.toList.isEmpty = false ↔ segment ≠ "" := by
    simp
  have hdigits : segment.toList.all isDigit = true ↔ ∀ c ∈ segment.toList, c.isDigit = true := by
    simp [List.all_eq_true, isDigit_eq]
  have hindex : index? segment =
      if segment.toList.isEmpty || !segment.toList.all isDigit then none
      else some (Nat.ofDigitChars 10 segment.toList 0) := by
    rw [← decimalFrom_eq]
    rfl
  rw [hindex]
  constructor
  · intro h
    split at h
    · cases h
    · rename_i hcond
      simp only [Bool.or_eq_true, Bool.not_eq_true', not_or, Bool.not_eq_true, Bool.not_eq_false]
        at hcond
      exact ⟨hnonempty.1 hcond.1, hdigits.1 hcond.2, Option.some.inj h⟩
  · intro h
    simp [hnonempty.2 h.nonempty, hdigits.2 h.digits, h.value]

/-- An index is read back as it is written. -/
theorem index?_toString (i : Nat) : index? (toString i) = some i := by
  have hchars : (toString i).toList = Nat.toDigits 10 i := by
    rw [Nat.toString_eq_repr, Nat.toList_repr]
  refine index?_eq_some_iff.2 ⟨fun hempty => ?_, fun c hc => ?_, ?_⟩
  · rw [hempty] at hchars
    exact Nat.toDigits_ne_nil hchars.symm
  · rw [hchars] at hc
    exact Nat.isDigit_of_mem_toDigits (by decide) (by decide) hc
  · rw [hchars, Nat.ofDigitChars_ten_toDigits]

end DocSchema.Pointer
