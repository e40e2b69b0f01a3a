/-
Module: Handheld.Text.Hex
Purpose: Fixed-width upper-case hexadecimal, the spelling that notes and error messages use for
  bytes and addresses.
Main exports: hexFixed, hexByte, hexWord
-/

namespace Handheld.Text

/-- The upper-case hexadecimal digit of a nibble. -/
def hexDigit (n : Nat) : Char :=
  if n < 10 then Char.ofNat (48 + n) else Char.ofNat (55 + n)

/-- The lowest `width` hexadecimal digits of `n`, most significant first. -/
def hexDigits : (width n : Nat) → List Char
  | 0, _ => []
  | width + 1, n => hexDigits width (n / 16) ++ [hexDigit (n % 16)]

/-- The lowest `width` hexadecimal digits of `n` behind `0x`. -/
def hexFixed (width n : Nat) : String :=
  "0x" ++ String.ofList (hexDigits width n)

/-- A byte as `0x` and two digits. -/
def hexByte (b : UInt8) : String :=
  hexFixed 2 b.toNat

/-- A word as `0x` and four digits. -/
def hexWord (w : UInt16) : String :=
  hexFixed 4 w.toNat

/-- Every digit counts, leading zeros too. -/
theorem length_hexDigits (width n : Nat) : (hexDigits width n).length = width := by
  induction width generalizing n with
  | zero => rfl
  | succ width ih => simp [hexDigits, ih]

end Handheld.Text
