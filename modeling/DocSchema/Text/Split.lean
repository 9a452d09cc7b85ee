/-
  DocSchema/Text/Split.lean
  =========================
  **Splitting a text at a character.**

  `splitAt` cuts at every occurrence, so that there is one piece more than occurrences;
  `joinWith` puts the pieces together again.
-/
namespace DocSchema.Text

/-- Splits at every occurrence of a character. -/
def splitAt (sep : Char) : List Char → List (List Char)
  | [] => [[]]
  | c :: cs =>
    if c == sep then [] :: splitAt sep cs
    else
      match splitAt sep cs with
      | piece :: rest => (c :: piece) :: rest
      | [] => [[c]]

/-- Joins pieces by a character. -/
def joinWith (sep : Char) : List (List Char) → List Char
  | [] => []
  | [p] => p
  | p :: rest => p ++ sep :: joinWith sep rest

theorem splitAt_ne_nil (sep : Char) (cs : List Char) : splitAt sep cs ≠ [] := by
  cases cs with
  | nil => simp [splitAt]
  | cons c cs =>
    unfold splitAt
    split
    · simp
    · split <;> simp

/-- A separator between two texts keeps their pieces apart. -/
theorem splitAt_append (sep : Char) (cs ds : List Char) :
    splitAt sep (cs ++ sep :: ds) = splitAt sep cs ++ splitAt sep ds := by
  induction cs with
  | nil => simp [splitAt]
  | cons c cs ih =>
    rw [List.cons_append, splitAt, splitAt]
    split
    · rw [ih, List.cons_append]
    · rw [ih]
      cases hs : splitAt sep cs with
      | nil => exact absurd hs (splitAt_ne_nil sep cs)
      | cons p rest => rfl

theorem splitAt_of_not_mem {sep : Char} {cs : List Char} (h : sep ∉ cs) :
    splitAt sep cs = [cs] := by
  induction cs with
  | nil => rfl
  | cons c cs ih =>
    have hc : ¬ (c == sep) = true := fun hc => h (by simp [beq_iff_eq.1 hc])
    have hcs : sep ∉ cs := fun hcs => h (List.mem_cons_of_mem _ hcs)
    rw [splitAt, if_neg hc, ih hcs]

end DocSchema.Text
