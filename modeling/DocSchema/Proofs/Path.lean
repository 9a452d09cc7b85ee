/-
  DocSchema/Proofs/Path.lean
  ==========================
  **The order of paths, and what lies below a path.**

  Paths are ordered by their components, in a total order in which only spellings of one path are
  equal (`compare_eq_eq_iff`).

  A relative path joined to a root has the components of the root first (`startsWith_join`), and
  it climbs only where one of the two climbs (`climbs_join`).  This holds however the root is
  written: relative, absolute or empty, with or without a slash at its end.
-/
import DocSchema.Path.Map

namespace DocSchema

/-! ### The order -/

namespace Component

/-- What tells components of one kind apart. -/
def name : Component → String
  | .normal x => x
  | _ => ""

theorem compare_eq (a b : Component) :
    a.compare b = compareLex (compareOn rank) (compareOn name) a b := by
  cases a <;> cases b <;> rfl

instance : Std.TransCmp compare :=
  have h : compare = compareLex (compareOn rank) (compareOn name) :=
    funext fun a => funext (compare_eq a)
  h ▸ inferInstance

instance : Std.LawfulEqCmp compare where
  eq_of_compare {a b} h := by
    rw [compare_eq] at h
    obtain ⟨hrank, hname⟩ := Ordering.then_eq_eq.1 h
    cases a <;> cases b
    case normal.normal x y =>
      have hxy : x = y := Std.LawfulEqOrd.eq_of_compare hname
      rw [hxy]
    all_goals first | rfl | cases hrank

end Component

namespace Path

theorem compareComponents_eq (as bs : List Component) :
    compareComponents as bs = List.compareLex Component.compare as bs := by
  induction as generalizing bs with
  | nil => cases bs <;> rfl
  | cons a as ih =>
    cases bs with
    | nil => rfl
    | cons b bs => rw [compareComponents, List.compareLex_cons_cons, ih]

variable {a b c : Path}

theorem compare_eq (a b : Path) :
    a.compare b = List.compareLex Component.compare a.components b.components :=
  compareComponents_eq _ _

/-- Only spellings of one path are equal in the order. -/
theorem compare_eq_eq_iff : a.compare b = .eq ↔ a.same b = true := by
  rw [compare_eq, same_iff]
  constructor
  · exact Std.LawfulEqCmp.eq_of_compare
  · intro h
    rw [h]
    exact Std.ReflCmp.compare_self

theorem le_trans (hab : a.le b = true) (hbc : b.le c = true) : a.le c = true := by
  unfold le at *
  rw [compare_eq] at *
  exact Std.TransCmp.isLE_trans hab hbc

theorem le_total (a b : Path) : (a.le b || b.le a) = true := by
  have hswap : b.compare a = (a.compare b).swap := by
    rw [compare_eq, compare_eq]
    exact Std.OrientedCmp.eq_swap
  unfold le
  rw [hswap]
  cases a.compare b <;> rfl

theorem same_of_le (hab : a.le b = true) (hba : b.le a = true) : a.same b = true := by
  rw [← compare_eq_eq_iff]
  unfold le at *
  rw [compare_eq] at *
  exact Std.OrientedCmp.isLE_antisymm hab hba

theorem compare_eq_lt (h : a.le b = true) (hne : ¬ a.same b = true) : a.compare b = .lt := by
  rw [← compare_eq_eq_iff] at hne
  unfold le at h
  cases hab : a.compare b with
  | lt => rfl
  | eq => exact absurd hab hne
  | gt =>
    rw [hab] at h
    cases h

end Path

end DocSchema

namespace DocSchema.Path

open DocSchema.Text

/-! ### Components of a text with a slash in it -/

/-- The component that a text begins with, other than a name. -/
def leadOf (cs : List Char) : List Component :=
  if cs.head? == some '/' then [.root]
  else if (splitAt '/' cs).head? == some ['.'] then [.current]
  else []

/-- The components between the slashes of a text. -/
def partsOf (cs : List Char) : List Component :=
  (splitAt '/' cs).filterMap pieceComponent?

theorem componentsOf_eq (cs : List Char) : componentsOf cs = leadOf cs ++ partsOf cs :=
  rfl

@[simp] theorem partsOf_nil : partsOf [] = [] :=
  rfl

theorem partsOf_append (cs ds : List Char) : partsOf (cs ++ '/' :: ds) = partsOf cs ++ partsOf ds := by
  unfold partsOf
  rw [splitAt_append, List.filterMap_append]

theorem leadOf_append {cs : List Char} (h : cs ≠ []) (ds : List Char) :
    leadOf (cs ++ '/' :: ds) = leadOf cs := by
  have hhead : (cs ++ '/' :: ds).head? = cs.head? := by
    cases cs with
    | nil => exact absurd rfl h
    | cons c cs => rfl
  have hpiece : (splitAt '/' cs ++ splitAt '/' ds).head? = (splitAt '/' cs).head? := by
    cases hs : splitAt '/' cs with
    | nil => exact absurd hs (splitAt_ne_nil '/' cs)
    | cons p rest => rfl
  unfold leadOf
  rw [splitAt_append, hhead, hpiece]

theorem componentsOf_append {cs : List Char} (h : cs ≠ []) (ds : List Char) :
    componentsOf (cs ++ '/' :: ds) = componentsOf cs ++ partsOf ds := by
  rw [componentsOf_eq, componentsOf_eq, leadOf_append h, partsOf_append, List.append_assoc]

/-- A slash at the end may be the only one. -/
theorem componentsOf_concat_append (cs ds : List Char) :
    componentsOf (cs ++ '/' :: ds) = componentsOf (cs ++ ['/']) ++ partsOf ds := by
  by_cases h : cs = []
  · subst h
    have hroot : leadOf ('/' :: ds) = leadOf ['/'] := rfl
    have hparts : partsOf ('/' :: ds) = partsOf ['/'] ++ partsOf ds := partsOf_append [] ds
    simp only [List.nil_append, componentsOf_eq, hroot, hparts, List.append_assoc]
  · rw [componentsOf_append h, componentsOf_append h, partsOf_nil, List.append_nil]

/-! ### Joining -/

variable {root rest : Path}

/-- The components that a relative path adds to what it is joined to. -/
def below (p : Path) : List Component :=
  partsOf p.text.toList

theorem components_of_isEmpty (h : root.text.isEmpty = true) : root.components = [] := by
  have htext : root.text = "" := by simpa using h
  simp [components, htext, componentsOf_eq, leadOf, splitAt]

theorem components_join (hrest : rest.isAbsolute = false) :
    (root.join rest).components =
      if root.text.isEmpty then rest.components else root.components ++ rest.below := by
  unfold join
  rw [hrest, if_neg Bool.false_ne_true]
  by_cases hempty : root.text.isEmpty = true
  · have htext : root.text = "" := by simpa using hempty
    simp [htext, components]
  · have hne : root.text.toList ≠ [] := by
      intro hnil
      exact hempty (by simpa using hnil)
    rw [if_neg hempty]
    by_cases hslash : root.text.toList.getLast? = some '/'
    · -- the root ends in the slash that stands between the two
      obtain ⟨cs, hcs⟩ := List.getLast?_eq_some_iff.1 hslash
      have hjoin := componentsOf_concat_append cs rest.text.toList
      simpa [hslash, components, below, hcs] using hjoin
    · have hjoin := componentsOf_append hne rest.text.toList
      simpa [hempty, hslash, components, below] using hjoin

/-- The first component, if it is no name, does not climb. -/
theorem climbs_eq_any_below (p : Path) : p.climbs = p.below.any (· == .parent) := by
  have hlead : (leadOf p.text.toList).any (· == .parent) = false := by
    unfold leadOf
    split
    · rfl
    · split <;> rfl
  unfold climbs components below
  rw [componentsOf_eq, List.any_append, hlead, Bool.false_or]

theorem climbs_join (hrest : rest.isAbsolute = false) :
    (root.join rest).climbs = (root.climbs || rest.climbs) := by
  unfold climbs
  rw [components_join hrest]
  split
  · rename_i hempty
    rw [components_of_isEmpty hempty]
    rfl
  · rw [List.any_append, ← climbs_eq_any_below rest]
    rfl

theorem hasComponents_append (cs ds : List Component) : hasComponents (cs ++ ds) cs = true := by
  induction cs with
  | nil => cases ds <;> rfl
  | cons c cs ih => simpa [hasComponents] using ih

theorem startsWith_join (hrest : rest.isAbsolute = false) :
    (root.join rest).startsWith root = true := by
  unfold startsWith
  rw [components_join hrest]
  split
  · rename_i hempty
    rw [components_of_isEmpty hempty]
    exact hasComponents_append [] _
  · exact hasComponents_append _ _

end DocSchema.Path
