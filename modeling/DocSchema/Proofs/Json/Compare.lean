/-
  DocSchema/Proofs/Json/Compare.lean
  ==================================
  **A value is the same as itself.**
-/
import DocSchema.Json.Compare

namespace DocSchema.Json

theorem Number.same_self (n : Number) : n.same n = true := by
  unfold same compare Binary64.compareScaled
  simp

/-- A number is close to itself: their distance is nought. -/
theorem Number.close_self (n : Number) : n.close n = true := by
  unfold close Binary64.compareScaled
  simp only [Int.sub_self, Int.natAbs_zero, Int.natCast_zero, Int.zero_mul, beq_iff_eq]
  have hpos (k : Nat) : 0 < twoTo k := Nat.pow_pos (by decide)
  have hgap : (0 : Int) < ((twoTo 54 - 1 : Nat) : Int) := by decide
  exact Int.compare_eq_lt.2 (Int.mul_pos hgap (Int.natCast_pos.2 (hpos _)))

namespace Value

mutual

theorem same_self : ∀ v : Value, v.same v = true
  | .null => rfl
  | .bool b => by simp [same]
  | .number n => n.same_self
  | .string s => by simp [same]
  | .array xs => sameItems_self xs
  | .object ms => sameMembers_self ms

theorem sameItems_self : ∀ xs : List Value, sameItems xs xs = true
  | [] => rfl
  | x :: xs => by
    rw [sameItems, same_self x, sameItems_self xs]
    rfl

theorem sameMembers_self : ∀ ms : List (String × Value), sameMembers ms ms = true
  | [] => rfl
  | (k, x) :: ms => by
    rw [sameMembers, same_self x, sameMembers_self ms]
    simp

end

theorem isExpected_self (v : Value) : v.isExpected v = true := by
  cases v with
  | number n => exact n.close_self
  | _ => exact same_self _

end Value

end DocSchema.Json
