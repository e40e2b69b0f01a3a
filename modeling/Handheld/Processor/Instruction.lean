/-
Module: Handheld.Processor.Instruction
Purpose: The instruction set as data. Immediate operands are part of the instruction, so that an
  instruction says all it will do but for the registers and the bus it meets.
Main exports: Operand, Condition, Arith, Shift, Address, Instr
-/
import Handheld.Processor.Registers

namespace Handheld

/-- A byte operand: a register, or the memory byte that HL points at. -/
inductive Operand where
  | reg (r : Reg)
  | atHL
deriving DecidableEq, Repr

/-- The condition of a branch. -/
inductive Condition where
  | nonZero
  | zero
  | noCarry
  | carry
deriving DecidableEq, Repr

/-- The operations on A and a second byte. -/
inductive Arith where
  | add
  | addCarry
  | sub
  | subCarry
  | and
  | xor
  | or
  | compare
deriving DecidableEq, Repr

/-- The rotations and shifts of a byte. -/
inductive Shift where
  | rotateLeft
  | rotateRight
  | rotateLeftCarry
  | rotateRightCarry
  | shiftLeft
  | shiftRightSigned
  | swapNibbles
  | shiftRight
deriving DecidableEq, Repr

/-- Where a load or store of A finds its byte. -/
inductive Address where
  | bc
  | de
  /-- HL, which is then incremented. -/
  | hlThenUp
  /-- HL, which is then decremented. -/
  | hlThenDown
  /-- The given offset into the page at 0xFF00. -/
  | high (offset : UInt8)
  /-- The offset in C into the page at 0xFF00. -/
  | highC
  | absolute (address : UInt16)
deriving DecidableEq, Repr

/-- The instructions, each with its immediate operands. A branch without a condition is always
    taken. -/
inductive Instr where
  | nop
  | halt
  | stop
  | disableInterrupts
  | enableInterrupts
  | load (dst src : Operand)
  | loadByte (dst : Operand) (value : UInt8)
  | loadA (src : Address)
  | storeA (dst : Address)
  | loadWord (dst : Pair) (value : UInt16)
  | storeSP (address : UInt16)
  | loadSPFromHL
  | loadHLFromSP (offset : UInt8)
  | push (src : StackPair)
  | pop (dst : StackPair)
  | arith (op : Arith) (src : Operand)
  | arithByte (op : Arith) (value : UInt8)
  | inc (dst : Operand)
  | dec (dst : Operand)
  | incWord (dst : Pair)
  | decWord (dst : Pair)
  | addHL (src : Pair)
  | addSP (offset : UInt8)
  | decimalAdjust
  | complement
  | setCarry
  | flipCarry
  | rotateA (op : Shift)
  | shift (op : Shift) (dst : Operand)
  | testBit (bit : Fin 8) (src : Operand)
  | clearBit (bit : Fin 8) (dst : Operand)
  | setBit (bit : Fin 8) (dst : Operand)
  | jump (condition : Option Condition) (target : UInt16)
  | jumpHL
  | jumpRelative (condition : Option Condition) (offset : UInt8)
  | call (condition : Option Condition) (target : UInt16)
  | ret (condition : Option Condition)
  | retEnable
  | restart (target : UInt8)
deriving DecidableEq, Repr

namespace Operand

/-- The operand with number `i`, of which three bits count. -/
def ofIndex (i : Nat) : Operand :=
  match i % 8 with
  | 0 => .reg .b
  | 1 => .reg .c
  | 2 => .reg .d
  | 3 => .reg .e
  | 4 => .reg .h
  | 5 => .reg .l
  | 6 => .atHL
  | _ => .reg .a

end Operand

/-- The condition with number `i`, of which two bits count. -/
def Condition.ofIndex (i : Nat) : Condition :=
  match i % 4 with
  | 0 => .nonZero
  | 1 => .zero
  | 2 => .noCarry
  | _ => .carry

/-- The operation with number `i`, of which three bits count. -/
def Arith.ofIndex (i : Nat) : Arith :=
  match i % 8 with
  | 0 => .add
  | 1 => .addCarry
  | 2 => .sub
  | 3 => .subCarry
  | 4 => .and
  | 5 => .xor
  | 6 => .or
  | _ => .compare

/-- The shift with number `i`, of which three bits count. -/
def Shift.ofIndex (i : Nat) : Shift :=
  match i % 8 with
  | 0 => .rotateLeft
  | 1 => .rotateRight
  | 2 => .rotateLeftCarry
  | 3 => .rotateRightCarry
  | 4 => .shiftLeft
  | 5 => .shiftRightSigned
  | 6 => .swapNibbles
  | _ => .shiftRight

/-- The register-indirect address with number `i`, of which two bits count. -/
def Address.ofIndex (i : Nat) : Address :=
  match i % 4 with
  | 0 => .bc
  | 1 => .de
  | 2 => .hlThenUp
  | _ => .hlThenDown

end Handheld
