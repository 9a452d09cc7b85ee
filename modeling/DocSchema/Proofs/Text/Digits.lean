/-
  DocSchema/Proofs/Text/Digits.lean
  =================================
  **Decimal digits are read back as they are written.**
-/
import DocSchema.Text.Ascii
import Mathlib.Algebra.GroupWithZero.Nat

namespace DocSchema.Text

/-- The number that characters stand for as decimal digits, after those for `start`. -/
def decimalFrom (start : Nat) (cs : List Char) : Nat :=
  cs.foldl (fun n c => n * 10 + digitValue c) start

theorem isDigit_eq (c : Char) : isDigit c = c.isDigit := by
  simp [isDigit, Char.isDigit, Char.le_def]

theorem decimalFrom_eq (start : Nat) (cs : List Char) :
    decimalFrom start cs = Nat.ofDigitChars 10 cs start := by
  simp [decimalFrom, Nat.ofDigitChars_eq_foldl, digitValue, Nat.mul_comm]

theorem isDigit_of_mem_toDigits {n : Nat} {c : Char} (h : c ∈ Nat.toDigits 10 n) :
    isDigit c = true := by
  rw [isDigit_eq]
  exact Nat.isDigit_of_mem_toDigits (by decide) (by decide) h

theorem decimalFrom_toDigits (n : Nat) : decimalFrom 0 (Nat.toDigits 10 n) = n := by
  rw [decimalFrom_eq, Nat.ofDigitChars_ten_toDigits]

theorem le_decimalFrom (start : Nat) (cs : List Char) : start ≤ decimalFrom start cs := by
  induction cs generalizing start with
  | nil => exact Nat.le_refl _
  | cons c cs ih =>
    have hstep := ih (start * 10 + digitValue c)
    change start ≤ decimalFrom (start * 10 + digitValue c) cs
    omega

theorem digitValue_lt {c : Char} (h : isDigit c = true) : digitValue c < 10 := by
  have hle : c.toNat ≤ 57 := by
    have hnine := of_decide_eq_true (Bool.and_eq_true_iff.1 h).2
    exact UInt32.le_iff_toNat_le.1 hnine
  unfold digitValue
  omega

/-- So many digits make no greater number. -/
theorem decimalFrom_lt {cs : List Char} (h : ∀ c ∈ cs, isDigit c = true) (start : Nat) :
    decimalFrom start cs < (start + 1) * 10 ^ cs.length := by
  induction cs generalizing start with
  | nil => simp [decimalFrom]
  | cons c cs ih =>
    obtain ⟨hc, hcs⟩ := List.forall_mem_cons.1 h
    have hdigit := digitValue_lt hc
    calc decimalFrom start (c :: cs)
        = decimalFrom (start * 10 + digitValue c) cs := rfl
      _ < (start * 10 + digitValue c + 1) * 10 ^ cs.length := ih hcs _
      _ ≤ ((start + 1) * 10) * 10 ^ cs.length := Nat.mul_le_mul_right _ (by omega)
      _ = (start + 1) * 10 ^ (c :: cs).length := by
        rw [List.length_cons, Nat.pow_succ, Nat.mul_assoc, Nat.mul_comm 10]

/-- A number other than nought starts with a digit other than nought. -/
theorem exists_toDigits_eq_cons {n : Nat} (h : n ≠ 0) :
    ∃ c cs, Nat.toDigits 10 n = c :: cs ∧ c ≠ '0' := by
  induction n using Nat.strongRecOn with
  | ind n ih =>
    rw [Nat.toDigits_eq_if (by decide)]
    split
    · rename_i hlt
      refine ⟨_, _, rfl, ?_⟩
      have hchar : ∀ d < 10, d ≠ 0 → Nat.digitChar d ≠ '0' := by decide
      exact hchar n hlt h
    · obtain ⟨c, cs, hcs, hc⟩ := ih (n / 10) (by omega) (by omega)
      exact ⟨c, cs ++ [(n % 10).digitChar], by rw [hcs]; rfl, hc⟩

end DocSchema.Text
