/-
  DocSchema/Path/Map.lean
  =======================
  **Tables by path.**

  A table has at most one entry for all spellings of a path.  The entry keeps the spelling that
  it was first made with (`insert`); what a look-up finds depends on the components alone.
-/
import DocSchema.Path

namespace DocSchema

abbrev PathMap (α : Type) := List (Path × α)

namespace PathMap

variable {α : Type}

def get? : PathMap α → Path → Option α
  | [], _ => none
  | (q, a) :: rest, p => if q.same p then some a else get? rest p

/-- Sets the value of a path. -/
def insert : PathMap α → Path → α → PathMap α
  | [], p, a => [(p, a)]
  | (q, b) :: rest, p, a => if q.same p then (q, a) :: rest else (q, b) :: insert rest p a

/-- Removes the entry of a path. -/
def erase (m : PathMap α) (p : Path) : PathMap α :=
  m.filter fun e => !e.1.same p

def contains (m : PathMap α) (p : Path) : Bool :=
  (m.get? p).isSome

/-- The paths that have an entry, sorted. -/
def paths (m : PathMap α) : List Path :=
  Path.sort (m.map (·.1))

end PathMap

namespace Path

variable {a b c : Path}

theorem same_iff : a.same b = true ↔ a.components = b.components := by
  simp [same]

theorem same_refl (a : Path) : a.same a = true :=
  same_iff.2 rfl

theorem same_symm (h : a.same b = true) : b.same a = true :=
  same_iff.2 (same_iff.1 h).symm

theorem same_trans (h : a.same b = true) (h' : b.same c = true) : a.same c = true :=
  same_iff.2 ((same_iff.1 h).trans (same_iff.1 h'))

theorem not_same_symm (h : ¬ a.same b = true) : ¬ b.same a = true :=
  fun h' => h (same_symm h')

end Path

namespace PathMap

variable {α : Type}

theorem get?_congr (m : PathMap α) {p q : Path} (h : p.components = q.components) :
    m.get? p = m.get? q := by
  induction m with
  | nil => rfl
  | cons e rest ih => simp [get?, Path.same, h, ih]

theorem get?_insert_self (m : PathMap α) (p : Path) (a : α) : (m.insert p a).get? p = some a := by
  induction m with
  | nil => simp [insert, get?, Path.same]
  | cons e rest ih => by_cases h : e.1.same p <;> simp [insert, get?, h, ih]

theorem get?_insert_of_ne (m : PathMap α) {p q : Path} (a : α)
    (h : q.components ≠ p.components) : (m.insert p a).get? q = m.get? q := by
  induction m with
  | nil => simp [insert, get?, Path.same, Ne.symm h]
  | cons e rest ih =>
    by_cases hp : e.1.same p
    · have hq : e.1.same q = false := by
        simp only [Path.same, beq_eq_false_iff_ne, ne_eq]
        intro hc
        exact h (hc.symm.trans (Path.same_iff.1 hp))
      simp [insert, get?, hp, hq]
    · by_cases hq : e.1.same q <;> simp [insert, get?, hp, hq, ih]

theorem get?_erase_self (m : PathMap α) (p : Path) : (m.erase p).get? p = none := by
  induction m with
  | nil => rfl
  | cons e rest ih =>
    simp only [erase] at ih
    by_cases h : e.1.same p <;> simp [erase, get?, h, ih]

theorem get?_erase_of_ne (m : PathMap α) {p q : Path} (h : q.components ≠ p.components) :
    (m.erase p).get? q = m.get? q := by
  induction m with
  | nil => rfl
  | cons e rest ih =>
    simp only [erase] at ih
    by_cases hp : e.1.same p
    · have hq : e.1.same q = false := by
        simp only [Path.same, beq_eq_false_iff_ne, ne_eq]
        intro hc
        exact h (hc.symm.trans (Path.same_iff.1 hp))
      simp [erase, get?, hp, hq, ih]
    · by_cases hq : e.1.same q <;> simp [erase, get?, hp, hq, ih]

end PathMap

end DocSchema
