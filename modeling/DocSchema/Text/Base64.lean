/-
  DocSchema/Text/Base64.lean
  ==========================
  **Bytes written in base 64.**

  Four characters stand for three bytes.  The last group may stand for fewer: it is padded with
  `=`, and the bits that it does not need are zero.
-/
import DocSchema.Text.Ascii

namespace DocSchema.Text

/-- The value of a character in base 64. -/
def base64Value? (c : Char) : Option Nat :=
  if 'A' ≤ c && c ≤ 'Z' then some (c.toNat - 65)
  else if 'a' ≤ c && c ≤ 'z' then some (c.toNat - 71)
  else if isDigit c then some (c.toNat + 4)
  else if c == '+' then some 62
  else if c == '/' then some 63
  else none

/-- The bytes that a text in base 64 stands for. -/
def base64Bytes? : List Char → Option (List UInt8)
  | [] => some []
  | [a, b, '=', '='] => do
    let (x, y) := (← base64Value? a, ← base64Value? b)
    if y % 16 == 0 then some [(x * 4 + y / 16).toUInt8] else none
  | [a, b, c, '='] => do
    let (x, y, z) := (← base64Value? a, ← base64Value? b, ← base64Value? c)
    if z % 4 == 0 then some [(x * 4 + y / 16).toUInt8, (y % 16 * 16 + z / 4).toUInt8] else none
  | a :: b :: c :: d :: rest => do
    let (x, y, z, w) := (← base64Value? a, ← base64Value? b, ← base64Value? c, ← base64Value? d)
    let bytes ← base64Bytes? rest
    some ((x * 4 + y / 16).toUInt8 :: (y % 16 * 16 + z / 4).toUInt8 ::
      (z % 4 * 64 + w).toUInt8 :: bytes)
  | _ => none

end DocSchema.Text
