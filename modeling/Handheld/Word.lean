/-
Module: Handheld.Word
Purpose: Sixteen-bit words and their two bytes.
Main exports: joinBytes, highByte, lowByte, toNat_joinBytes, joinBytes_highByte_lowByte
-/

namespace Handheld

/-- The word with the given high and low bytes. -/
def joinBytes (high low : UInt8) : UInt16 :=
  high.toUInt16 <<< 8 ||| low.toUInt16

/-- The high byte of a word. -/
def highByte (w : UInt16) : UInt8 :=
  (w >>> 8).toUInt8

/-- The low byte of a word. -/
def lowByte (w : UInt16) : UInt8 :=
  w.toUInt8

theorem toNat_highByte (w : UInt16) : (highByte w).toNat = w.toNat / 256 := by
  have h := w.toNat_lt
  have hshift : w.toNat >>> 8 = w.toNat / 256 := Nat.shiftRight_eq_div_pow _ 8
  simp only [highByte, UInt16.toNat_toUInt8, UInt16.toNat_shiftRight, UInt16.reduceToNat,
    Nat.reduceMod, hshift]
  omega

theorem toNat_lowByte (w : UInt16) : (lowByte w).toNat = w.toNat % 256 :=
  UInt16.toNat_toUInt8 w

theorem toNat_joinBytes (high low : UInt8) :
    (joinBytes high low).toNat = 256 * high.toNat + low.toNat := by
  have hhigh := high.toNat_lt
  have hlow := low.toNat_lt
  have height : (8 : UInt16).toNat % 16 = 8 := rfl
  simp only [joinBytes, UInt16.toNat_or, UInt16.toNat_shiftLeft, UInt8.toNat_toUInt16, height]
  rw [Nat.shiftLeft_eq, Nat.mod_eq_of_lt (by omega), ← Nat.shiftLeft_eq,
    ← Nat.shiftLeft_add_eq_or_of_lt hlow, Nat.shiftLeft_eq]
  omega

/-- The bytes of a word make it up again. -/
theorem joinBytes_highByte_lowByte (w : UInt16) : joinBytes (highByte w) (lowByte w) = w := by
  apply UInt16.toNat_inj.mp
  rw [toNat_joinBytes, toNat_highByte, toNat_lowByte]
  omega

@[simp] theorem highByte_joinBytes (high low : UInt8) : highByte (joinBytes high low) = high := by
  have hlow := low.toNat_lt
  apply UInt8.toNat_inj.mp
  rw [toNat_highByte, toNat_joinBytes]
  omega

@[simp] theorem lowByte_joinBytes (high low : UInt8) : lowByte (joinBytes high low) = low := by
  have hlow := low.toNat_lt
  apply UInt8.toNat_inj.mp
  rw [toNat_lowByte, toNat_joinBytes]
  omega

end Handheld
