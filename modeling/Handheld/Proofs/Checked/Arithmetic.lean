/-
Module: Handheld.Proofs.Checked.Arithmetic
Purpose: Arithmetic that gives up where a result does not fit, and the arithmetic of the processor
  done with it. Sums and differences are taken in the widths of the registers they are made in, and
  nothing wraps around; for all operands there is a result, and it is the one of the wrapping
  arithmetic.
Main exports: Checked.add, Checked.sub, Checked.rem, Checked.signed, Checked.place, Checked.slice,
  toNat_and_mask, and_mask_ne_zero, Arith.result?_eq, addWords?_eq, addOffset?_eq, bitMask?_eq,
  LineSet.vector?_eq
-/
import Handheld.Interrupt
import Handheld.Processor.Arithmetic
import Mathlib.Algebra.Group.Int.Defs
import Mathlib.Algebra.Group.Nat.Defs
import Mathlib.Data.Nat.Bitwise

namespace Handheld

namespace Checked

/-- A number, if it has no more than so many bits. -/
def fit (bits n : Nat) : Option Nat :=
  if n < 2 ^ bits then some n else none

/-- A sum in a width. -/
def add (bits a b : Nat) : Option Nat :=
  fit bits (a + b)

/-- A product in a width. -/
def mul (bits a b : Nat) : Option Nat :=
  fit bits (a * b)

/-- A difference of numbers without a sign. -/
def sub (a b : Nat) : Option Nat :=
  if b ≤ a then some (a - b) else none

/-- A remainder. -/
def rem (a b : Nat) : Option Nat :=
  if b = 0 then none else some (a % b)

/-- A number with a sign, if it has no more than so many bits. -/
def signed (bits : Nat) (n : Int) : Option Int :=
  if -2 ^ (bits - 1) ≤ n ∧ n < 2 ^ (bits - 1) then some n else none

/-- The distance of a shift in a width. -/
def distance (bits n : Nat) : Option Nat :=
  if n < bits then some n else none

/-- A place in a memory. -/
def place (size i : Nat) : Option (Fin size) :=
  if h : i < size then some ⟨i, h⟩ else none

/-- The length of the part of a memory that goes from one place up to another. -/
def slice (size start stop : Nat) : Option Nat :=
  if start ≤ stop ∧ stop ≤ size then some (stop - start) else none

/-- The width of places in memories, at the least that a machine has. -/
def indexBits : Nat := 32

variable {bits a b n size : Nat}

theorem add_eq (h : a + b < 2 ^ bits) : add bits a b = some (a + b) :=
  if_pos h

theorem mul_eq (h : a * b < 2 ^ bits) : mul bits a b = some (a * b) :=
  if_pos h

theorem sub_eq (h : b ≤ a) : sub a b = some (a - b) :=
  if_pos h

theorem sub_eq_none (h : a < b) : sub a b = none :=
  if_neg (Nat.not_le.mpr h)

theorem rem_eq (h : b ≠ 0) : rem a b = some (a % b) :=
  if_neg h

theorem signed_eq {n : Int} (hlow : -2 ^ (bits - 1) ≤ n) (hhigh : n < 2 ^ (bits - 1)) :
    signed bits n = some n :=
  if_pos ⟨hlow, hhigh⟩

theorem distance_eq (h : n < bits) : distance bits n = some n :=
  if_pos h

theorem place_eq {i : Nat} (h : i < size) : place size i = some ⟨i, h⟩ :=
  dif_pos h

/-- What stands at a place that has been checked. -/
theorem get_place {α : Type} {i : Nat} (memory : Vector α size) (h : i < size) :
    memory.get ⟨i, h⟩ = memory[i] := rfl

theorem slice_eq {start stop : Nat} (hstart : start ≤ stop) (hstop : stop ≤ size) :
    slice size start stop = some (stop - start) :=
  if_pos ⟨hstart, hstop⟩

end Checked

/-! ### Bytes -/

/-- A mask of low bits is a remainder. -/
theorem toNat_and_mask (value mask : UInt8) {n : Nat} (h : mask.toNat = 2 ^ n - 1) :
    (value &&& mask).toNat = value.toNat % 2 ^ n := by
  rw [UInt8.toNat_and, h]
  exact Nat.and_two_pow_sub_one_eq_mod _ _

/-- A mask of one bit tests that bit. -/
theorem and_mask_ne_zero (b : UInt8) {mask : UInt8} {i : Nat} (h : mask.toNat = 2 ^ i) :
    (b &&& mask != 0) = b.toNat.testBit i := by
  rw [Bool.eq_iff_iff, bne_iff_ne, ne_eq, ← UInt8.toNat_inj, UInt8.toNat_and, h, Nat.and_two_pow]
  cases b.toNat.testBit i <;> simp

/-- The sum of two bytes and a carry, made in sixteen bits, and that of their nibbles in eight. -/
def addBytes? (x y : UInt8) (carry : Bool) : Option ByteResult := do
  let bytes ← Checked.add 16 x.toNat y.toNat
  let full ← Checked.add 16 bytes (carryValue carry)
  let nibbles ← Checked.add 8 (x.toNat % 16) (y.toNat % 16)
  let half ← Checked.add 8 nibbles (carryValue carry)
  let value := UInt8.ofNat full
  some { value
         flags := { zero := value == 0, subtract := false, halfCarry := 15 < half
                    carry := 255 < full } }

/-- The difference of two bytes less a borrow, and that of their nibbles, both with a sign. -/
def subtractBytes? (x y : UInt8) (borrow : Bool) : Option ByteResult := do
  let bytes ← Checked.signed 16 (x.toNat - y.toNat)
  let full ← Checked.signed 16 (bytes - carryValue borrow)
  let nibbles ← Checked.signed 16 ((x.toNat % 16 : Nat) - (y.toNat % 16 : Nat))
  let half ← Checked.signed 16 (nibbles - carryValue borrow)
  let value := UInt8.ofInt full
  some { value
         flags := { zero := value == 0, subtract := true, halfCarry := half < 0
                    carry := full < 0 } }

/-- An operation on the accumulator. The bitwise ones count nothing. -/
def Arith.result? (op : Arith) (x y : UInt8) (carry : Bool) : Option ByteResult :=
  match op with
  | .add => addBytes? x y false
  | .addCarry => addBytes? x y carry
  | .sub => subtractBytes? x y false
  | .subCarry => subtractBytes? x y carry
  | .compare => do
    let r ← subtractBytes? x y false
    some ⟨x, r.flags⟩
  | .and | .xor | .or => some (op.apply x y carry)

/-- The byte with only the given bit set. -/
def bitMask? (bit : Fin 8) : Option UInt8 := do
  let distance ← Checked.distance 8 bit.val
  some (1 <<< UInt8.ofNat distance)

theorem carryValue_le (carry : Bool) : carryValue carry ≤ 1 := by
  cases carry <;> decide

theorem addBytes?_eq (x y : UInt8) (carry : Bool) :
    addBytes? x y carry = some (addBytes x y carry) := by
  have hx := x.toNat_lt
  have hy := y.toNat_lt
  have hcarry := carryValue_le carry
  have hbytes : Checked.add 16 x.toNat y.toNat = some (x.toNat + y.toNat) :=
    Checked.add_eq (by omega)
  have hfull : Checked.add 16 (x.toNat + y.toNat) (carryValue carry) =
      some (x.toNat + y.toNat + carryValue carry) :=
    Checked.add_eq (by omega)
  have hnibbles : Checked.add 8 (x.toNat % 16) (y.toNat % 16) =
      some (x.toNat % 16 + y.toNat % 16) :=
    Checked.add_eq (by omega)
  have hhalf : Checked.add 8 (x.toNat % 16 + y.toNat % 16) (carryValue carry) =
      some (x.toNat % 16 + y.toNat % 16 + carryValue carry) :=
    Checked.add_eq (by omega)
  have hvalue : UInt8.ofNat (x.toNat + y.toNat + carryValue carry) =
      x + y + (carryValue carry).toUInt8 := by
    rw [UInt8.ofNat_add, UInt8.ofNat_add, UInt8.ofNat_toNat, UInt8.ofNat_toNat]
  simp only [addBytes?, hbytes, hfull, hnibbles, hhalf, Option.bind_eq_bind, Option.bind_some, hvalue]
  rfl

theorem subtractBytes?_eq (x y : UInt8) (borrow : Bool) :
    subtractBytes? x y borrow = some (subtractBytes x y borrow) := by
  have hx := x.toNat_lt
  have hy := y.toNat_lt
  have hborrow := carryValue_le borrow
  have hbytes : Checked.signed 16 (x.toNat - y.toNat) = some (x.toNat - y.toNat : Int) :=
    Checked.signed_eq (by omega) (by omega)
  have hfull : Checked.signed 16 (x.toNat - y.toNat - carryValue borrow) =
      some (x.toNat - y.toNat - carryValue borrow : Int) :=
    Checked.signed_eq (by omega) (by omega)
  have hnibbles : Checked.signed 16 ((x.toNat % 16 : Nat) - (y.toNat % 16 : Nat)) =
      some ((x.toNat % 16 : Nat) - (y.toNat % 16 : Nat) : Int) :=
    Checked.signed_eq (by omega) (by omega)
  have hhalf : Checked.signed 16 ((x.toNat % 16 : Nat) - (y.toNat % 16 : Nat) - carryValue borrow) =
      some ((x.toNat % 16 : Nat) - (y.toNat % 16 : Nat) - carryValue borrow : Int) :=
    Checked.signed_eq (by omega) (by omega)
  have hvalue : UInt8.ofInt (x.toNat - y.toNat - carryValue borrow) =
      x - y - (carryValue borrow).toUInt8 := by
    have hnat (n : Nat) : UInt8.ofInt n = UInt8.ofNat n := by
      apply UInt8.toNat_inj.mp
      rw [UInt8.ofInt, UInt8.toNat_ofNat', UInt8.toNat_ofNat']
      omega
    rw [Int.sub_eq_add_neg, Int.sub_eq_add_neg, UInt8.ofInt_add, UInt8.ofInt_add, UInt8.ofInt_neg,
      UInt8.ofInt_neg, hnat, hnat, hnat, UInt8.ofNat_toNat, UInt8.ofNat_toNat, ← UInt8.sub_eq_add_neg,
      ← UInt8.sub_eq_add_neg]
  have hcarry : ((x.toNat - y.toNat - carryValue borrow : Int) < 0) ↔
      x.toNat < y.toNat + carryValue borrow := by omega
  have hhalfCarry :
      ((x.toNat % 16 : Nat) - (y.toNat % 16 : Nat) - carryValue borrow : Int) < 0 ↔
        x.toNat % 16 < y.toNat % 16 + carryValue borrow := by omega
  simp only [subtractBytes?, hbytes, hfull, hnibbles, hhalf, Option.bind_eq_bind, Option.bind_some,
    hvalue, hcarry, hhalfCarry]
  rfl

/-- Whatever the operands, no operation on the accumulator exceeds its widths. -/
theorem Arith.result?_eq (op : Arith) (x y : UInt8) (carry : Bool) :
    op.result? x y carry = some (op.apply x y carry) := by
  cases op with
  | add => exact addBytes?_eq x y false
  | addCarry => exact addBytes?_eq x y carry
  | sub => exact subtractBytes?_eq x y false
  | subCarry => exact subtractBytes?_eq x y carry
  | compare =>
      unfold Arith.result?
      dsimp only
      rw [subtractBytes?_eq]
      rfl
  | and | xor | or => rfl

theorem bitMask?_eq (bit : Fin 8) : bitMask? bit = some (bitMask bit) := by
  unfold bitMask?
  rw [Checked.distance_eq bit.isLt]
  rfl

/-! ### Words -/

/-- The sum of two words. Its carry is told by the sum in thirty-two bits, and the half carry by that
    of the lower twelve bits in sixteen. -/
def addWords? (x y : UInt16) (zero : Bool) : Option WordResult := do
  let half ← Checked.add 16 (x.toNat % 0x1000) (y.toNat % 0x1000)
  let full ← Checked.add 32 x.toNat y.toNat
  some { value := x + y
         flags := { zero, subtract := false, halfCarry := 0x0FFF < half, carry := 0xFFFF < full } }

/-- A word plus a signed byte, whose flags are told by sums of the lower bits in sixteen. -/
def addOffset? (base : UInt16) (offset : UInt8) : Option WordResult := do
  let half ← Checked.add 16 (base.toNat % 16) ((signExtend offset).toNat % 16)
  let low ← Checked.add 16 (base.toNat % 256) ((signExtend offset).toNat % 256)
  some { value := base + signExtend offset
         flags := { zero := false, subtract := false, halfCarry := 15 < half, carry := 255 < low } }

theorem addWords?_eq (x y : UInt16) (zero : Bool) :
    addWords? x y zero = some (addWords x y zero) := by
  have hx := x.toNat_lt
  have hy := y.toNat_lt
  have hhalf : Checked.add 16 (x.toNat % 0x1000) (y.toNat % 0x1000) =
      some (x.toNat % 0x1000 + y.toNat % 0x1000) :=
    Checked.add_eq (by omega)
  have hfull : Checked.add 32 x.toNat y.toNat = some (x.toNat + y.toNat) :=
    Checked.add_eq (by omega)
  simp only [addWords?, hhalf, hfull, Option.bind_eq_bind, Option.bind_some]
  rfl

/-- The low byte of a byte with its sign spread out is the byte. -/
theorem signExtend_mod (offset : UInt8) : (signExtend offset).toNat % 256 = offset.toNat := by
  have hbits : ∀ bits : BitVec 8,
      (signExtend (UInt8.ofBitVec bits)).toNat % 256 = (UInt8.ofBitVec bits).toNat := by
    decide
  exact hbits offset.toBitVec

theorem addOffset?_eq (base : UInt16) (offset : UInt8) :
    addOffset? base offset = some (addOffset base offset) := by
  have hlow := signExtend_mod offset
  have hnibble : (signExtend offset).toNat % 16 = offset.toNat % 16 := by omega
  have hhalf : Checked.add 16 (base.toNat % 16) (offset.toNat % 16) =
      some (base.toNat % 16 + offset.toNat % 16) :=
    Checked.add_eq (by omega)
  have hsum : Checked.add 16 (base.toNat % 256) offset.toNat =
      some (base.toNat % 256 + offset.toNat) :=
    Checked.add_eq (by omega)
  simp only [addOffset?, hlow, hnibble, hhalf, hsum, Option.bind_eq_bind, Option.bind_some]
  rfl

/-! ### Handlers -/

/-- The handler address of the most urgent line of a set, counted in sixteen bits. -/
def LineSet.vector? (s : LineSet) : Option UInt16 := do
  let offset ← Checked.mul 16 (trailingZeros s.bits) 8
  let address ← Checked.add 16 0x40 offset
  some (UInt16.ofNat address)

theorem trailingZeros_le (b : UInt8) : trailingZeros b ≤ 8 := by
  unfold trailingZeros
  cases hfound : (List.range 8).find? fun i => b.toNat.testBit i with
  | none => exact Nat.le_refl 8
  | some i =>
      have hrange := List.mem_range.mp (List.mem_of_find?_eq_some hfound)
      exact Nat.le_of_lt hrange

theorem LineSet.vector?_eq (s : LineSet) : s.vector? = some s.vector := by
  have hzeros := trailingZeros_le s.bits
  have hoffset : Checked.mul 16 (trailingZeros s.bits) 8 = some (trailingZeros s.bits * 8) :=
    Checked.mul_eq (by omega)
  have haddress : Checked.add 16 0x40 (trailingZeros s.bits * 8) =
      some (0x40 + trailingZeros s.bits * 8) :=
    Checked.add_eq (by omega)
  have hvalue : UInt16.ofNat (0x40 + trailingZeros s.bits * 8) = s.vector := by
    unfold LineSet.vector
    rw [UInt16.ofNat_add, UInt16.ofNat_mul, UInt16.mul_comm]
    rfl
  simp only [LineSet.vector?, hoffset, haddress, Option.bind_eq_bind, Option.bind_some, hvalue]

end Handheld
