/-
Module: Handheld.Processor.Arithmetic
Purpose: The arithmetic of the instruction set as functions on bytes, words and incoming flags. None
  of them knows the register file.
Main exports: ByteResult, WordResult, addBytes, subtractBytes, Arith.apply, Shift.apply,
  decimalAdjust, incrementByte, decrementByte, addWords, addOffset, testBitFlags
-/
import Handheld.Processor.Instruction

namespace Handheld

/-- A byte and the flags that its computation leaves. -/
structure ByteResult where
  value : UInt8
  flags : Flags
deriving DecidableEq, Repr

/-- A word and the flags that its computation leaves. -/
structure WordResult where
  value : UInt16
  flags : Flags
deriving DecidableEq, Repr

/-- A carry as a number. -/
def carryValue (carry : Bool) : Nat :=
  if carry then 1 else 0

/-- The sum of two bytes and a carry. The half carry is the carry out of the low nibble. -/
def addBytes (x y : UInt8) (carry : Bool) : ByteResult :=
  let value := x + y + (carryValue carry).toUInt8
  { value
    flags :=
      { zero := value == 0
        subtract := false
        halfCarry := 15 < x.toNat % 16 + y.toNat % 16 + carryValue carry
        carry := 255 < x.toNat + y.toNat + carryValue carry } }

/-- The difference of two bytes less a borrow. The half carry is the borrow of the low nibble. -/
def subtractBytes (x y : UInt8) (borrow : Bool) : ByteResult :=
  let value := x - y - (carryValue borrow).toUInt8
  { value
    flags :=
      { zero := value == 0
        subtract := true
        halfCarry := x.toNat % 16 < y.toNat % 16 + carryValue borrow
        carry := x.toNat < y.toNat + carryValue borrow } }

/-- The flags of a bitwise operation, which only AND gives a half carry. -/
def logicFlags (value : UInt8) (halfCarry : Bool) : Flags :=
  { zero := value == 0, subtract := false, halfCarry, carry := false }

/-- An operation on the accumulator `x`, a second byte and the carry flag. A comparison leaves the
    accumulator alone and the flags of the subtraction. -/
def Arith.apply (op : Arith) (x y : UInt8) (carry : Bool) : ByteResult :=
  match op with
  | .add => addBytes x y false
  | .addCarry => addBytes x y carry
  | .sub => subtractBytes x y false
  | .subCarry => subtractBytes x y carry
  | .and => ⟨x &&& y, logicFlags (x &&& y) true⟩
  | .xor => ⟨x ^^^ y, logicFlags (x ^^^ y) false⟩
  | .or => ⟨x ||| y, logicFlags (x ||| y) false⟩
  | .compare => ⟨x, (subtractBytes x y false).flags⟩

/-- One more, wrapping; the carry flag is passed through. -/
def incrementByte (x : UInt8) (carry : Bool) : ByteResult :=
  let value := x + 1
  { value
    flags :=
      { zero := value == 0, subtract := false, halfCarry := x.toNat % 16 == 15, carry } }

/-- One less, wrapping; the carry flag is passed through. -/
def decrementByte (x : UInt8) (carry : Bool) : ByteResult :=
  let value := x - 1
  { value
    flags :=
      { zero := value == 0, subtract := true, halfCarry := x.toNat % 16 == 0, carry } }

/-- Correct the result of an addition or subtraction of packed decimal digits, given the flags that
    it left. After an addition a digit above nine or a carry out of it calls for six more in that
    place; after a subtraction only a borrow does. -/
def decimalAdjust (x : UInt8) (flags : Flags) : ByteResult :=
  let carry := flags.carry || (!flags.subtract && decide (0x99 < x))
  let value :=
    if flags.subtract then
      let x := if flags.carry then x - 0x60 else x
      if flags.halfCarry then x - 0x06 else x
    else
      let x := if carry then x + 0x60 else x
      if flags.halfCarry || decide (9 < x &&& 0x0F) then x + 0x06 else x
  { value
    flags := { zero := value == 0, subtract := flags.subtract, halfCarry := false, carry } }

/-- Rotate or shift a byte. The bit that leaves it becomes the carry; a swap leaves none. -/
def Shift.apply (op : Shift) (x : UInt8) (carry : Bool) : ByteResult :=
  let out : UInt8 × Bool :=
    match op with
    | .rotateLeft => (x <<< 1 ||| x >>> 7, x &&& 0x80 != 0)
    | .rotateRight => (x >>> 1 ||| x <<< 7, x &&& 0x01 != 0)
    | .rotateLeftCarry => (x <<< 1 ||| (carryValue carry).toUInt8, x &&& 0x80 != 0)
    | .rotateRightCarry => (x >>> 1 ||| (carryValue carry).toUInt8 <<< 7, x &&& 0x01 != 0)
    | .shiftLeft => (x <<< 1, x &&& 0x80 != 0)
    | .shiftRightSigned => (x >>> 1 ||| x &&& 0x80, x &&& 0x01 != 0)
    | .swapNibbles => (x <<< 4 ||| x >>> 4, false)
    | .shiftRight => (x >>> 1, x &&& 0x01 != 0)
  { value := out.1
    flags := { zero := out.1 == 0, subtract := false, halfCarry := false, carry := out.2 } }

/-- The byte with only the given bit set. -/
def bitMask (bit : Fin 8) : UInt8 :=
  1 <<< UInt8.ofNat bit.val

/-- The flags of a bit test: zero says that the bit is clear, and the carry is passed through. -/
def testBitFlags (bit : Fin 8) (x : UInt8) (carry : Bool) : Flags :=
  { zero := x &&& bitMask bit == 0, subtract := false, halfCarry := true, carry }

/-- The sum of two words. Half carry and carry leave bits 11 and 15; the zero flag is passed
    through. -/
def addWords (x y : UInt16) (zero : Bool) : WordResult :=
  { value := x + y
    flags :=
      { zero
        subtract := false
        halfCarry := 0x0FFF < x.toNat % 0x1000 + y.toNat % 0x1000
        carry := 0xFFFF < x.toNat + y.toNat } }

/-- A byte read as a signed number, as a word. -/
def signExtend (x : UInt8) : UInt16 :=
  if x < 0x80 then x.toUInt16 else x.toUInt16 ||| 0xFF00

/-- A word plus a signed byte. Half carry and carry are those of adding the byte, as an unsigned
    one, to the low byte of the word. -/
def addOffset (base : UInt16) (offset : UInt8) : WordResult :=
  { value := base + signExtend offset
    flags :=
      { zero := false
        subtract := false
        halfCarry := 15 < base.toNat % 16 + offset.toNat % 16
        carry := 255 < base.toNat % 256 + offset.toNat } }

end Handheld
