/-
Module: Handheld.Proofs.Processor.Footprint
Purpose: What an instruction may write, opcode by opcode: byte registers, the stack pointer, flags
  and bytes of memory. The footprint of a decoded instruction is the one in the row of its opcode.
Main exports: Footprint, Opcode.footprint, Instr.footprint, Opcode.footprint_of_decode
-/
import Handheld.Proofs.Processor.InstructionTime

namespace Handheld

/-- What an instruction may write besides the program counter. -/
structure Footprint where
  registers : List Reg := []
  stackPointer : Bool := false
  flags : List Flag := []
  /-- F is written as a whole byte, which leaves its four unused bits clear. -/
  wholeF : Bool := false
  /-- Addresses in memory. -/
  memory : List UInt16 := []
deriving DecidableEq, Repr

/-- One instruction after another. -/
def Footprint.append (first second : Footprint) : Footprint where
  registers := first.registers ++ second.registers
  stackPointer := first.stackPointer || second.stackPointer
  flags := first.flags ++ second.flags
  wholeF := first.wholeF || second.wholeF
  memory := first.memory ++ second.memory

/-- All flags. -/
def Flag.all : List Flag :=
  [.zero, .subtract, .halfCarry, .carry]

/-! ### The table -/

namespace Opcode

/-- The register that an instruction of the extended set works on, by the column of its code. Column 6
    is the byte at HL. -/
def extendedRegisters (code : UInt8) : List Reg :=
  match code.toNat % 8 with
  | 0 => [.b]
  | 1 => [.c]
  | 2 => [.d]
  | 3 => [.e]
  | 4 => [.h]
  | 5 => [.l]
  | 6 => []
  | _ => [.a]

/-- The footprint of an instruction of the extended set. -/
def extendedFootprint (regs : Registers) (code : UInt8) : Footprint :=
  let memory := if code.toNat % 8 = 6 then [joinBytes regs.h regs.l] else []
  match code.toNat / 64 with
  -- rotations, shifts and SWAP
  | 0 => { registers := extendedRegisters code, flags := Flag.all, wholeF := true, memory }
  -- BIT
  | 1 => { flags := [.zero, .subtract, .halfCarry], wholeF := true }
  -- RES and SET
  | _ => { registers := extendedRegisters code, memory }

/-- The byte registers that an opcode writes. -/
def registers (opcode : UInt8) : List Reg :=
  match opcode.toNat with
  -- LD r,r', LD r,n, INC r and DEC r
  | 0x40 | 0x41 | 0x42 | 0x43 | 0x44 | 0x45 | 0x46 | 0x47 | 0x06 | 0x04 | 0x05 => [.b]
  | 0x48 | 0x49 | 0x4A | 0x4B | 0x4C | 0x4D | 0x4E | 0x4F | 0x0E | 0x0C | 0x0D => [.c]
  | 0x50 | 0x51 | 0x52 | 0x53 | 0x54 | 0x55 | 0x56 | 0x57 | 0x16 | 0x14 | 0x15 => [.d]
  | 0x58 | 0x59 | 0x5A | 0x5B | 0x5C | 0x5D | 0x5E | 0x5F | 0x1E | 0x1C | 0x1D => [.e]
  | 0x60 | 0x61 | 0x62 | 0x63 | 0x64 | 0x65 | 0x66 | 0x67 | 0x26 | 0x24 | 0x25 => [.h]
  | 0x68 | 0x69 | 0x6A | 0x6B | 0x6C | 0x6D | 0x6E | 0x6F | 0x2E | 0x2C | 0x2D => [.l]
  | 0x78 | 0x79 | 0x7A | 0x7B | 0x7C | 0x7D | 0x7E | 0x7F | 0x3E | 0x3C | 0x3D => [.a]
  -- ADD, ADC, SUB, SBC, AND, XOR and OR; CP writes flags alone
  | 0x80 | 0x81 | 0x82 | 0x83 | 0x84 | 0x85 | 0x86 | 0x87 | 0xC6 => [.a]
  | 0x88 | 0x89 | 0x8A | 0x8B | 0x8C | 0x8D | 0x8E | 0x8F | 0xCE => [.a]
  | 0x90 | 0x91 | 0x92 | 0x93 | 0x94 | 0x95 | 0x96 | 0x97 | 0xD6 => [.a]
  | 0x98 | 0x99 | 0x9A | 0x9B | 0x9C | 0x9D | 0x9E | 0x9F | 0xDE => [.a]
  | 0xA0 | 0xA1 | 0xA2 | 0xA3 | 0xA4 | 0xA5 | 0xA6 | 0xA7 | 0xE6 => [.a]
  | 0xA8 | 0xA9 | 0xAA | 0xAB | 0xAC | 0xAD | 0xAE | 0xAF | 0xEE => [.a]
  | 0xB0 | 0xB1 | 0xB2 | 0xB3 | 0xB4 | 0xB5 | 0xB6 | 0xB7 | 0xF6 => [.a]
  -- RLCA, RRCA, RLA, RRA, DAA and CPL
  | 0x07 | 0x0F | 0x17 | 0x1F | 0x27 | 0x2F => [.a]
  -- LD A,(BC), LD A,(DE), LDH A,(n), LD A,(C) and LD A,(nn)
  | 0x0A | 0x1A | 0xF0 | 0xF2 | 0xFA => [.a]
  -- LD A,(HL+) and LD A,(HL-)
  | 0x2A | 0x3A => [.h, .l, .a]
  -- LD (HL+),A and LD (HL-),A
  | 0x22 | 0x32 => [.h, .l]
  -- LD rr,nn, INC rr, DEC rr and POP rr
  | 0x01 | 0x03 | 0x0B | 0xC1 => [.b, .c]
  | 0x11 | 0x13 | 0x1B | 0xD1 => [.d, .e]
  | 0x21 | 0x23 | 0x2B | 0xE1 => [.h, .l]
  | 0xF1 => [.a]
  -- ADD HL,rr and LD HL,SP+e
  | 0x09 | 0x19 | 0x29 | 0x39 | 0xF8 => [.h, .l]
  | _ => []

/-- Whether an opcode writes the stack pointer, given whether its branch is taken. -/
def writesSP (opcode : UInt8) (taken : Bool) : Bool :=
  match opcode.toNat with
  -- LD SP,nn, INC SP, DEC SP, LD SP,HL and ADD SP,e
  | 0x31 | 0x33 | 0x3B | 0xF9 | 0xE8 => true
  -- PUSH and POP
  | 0xC5 | 0xD5 | 0xE5 | 0xF5 | 0xC1 | 0xD1 | 0xE1 | 0xF1 => true
  -- RST
  | 0xC7 | 0xCF | 0xD7 | 0xDF | 0xE7 | 0xEF | 0xF7 | 0xFF => true
  -- RET and RETI
  | 0xC9 | 0xD9 => true
  -- CALL and RET cc
  | 0xCD | 0xC4 | 0xCC | 0xD4 | 0xDC | 0xC0 | 0xC8 | 0xD0 | 0xD8 => taken
  | _ => false

/-- The flags that an opcode writes. -/
def flags (opcode : UInt8) : List Flag :=
  match opcode.toNat with
  -- INC r and DEC r
  | 0x04 | 0x0C | 0x14 | 0x1C | 0x24 | 0x2C | 0x34 | 0x3C => [.zero, .subtract, .halfCarry]
  | 0x05 | 0x0D | 0x15 | 0x1D | 0x25 | 0x2D | 0x35 | 0x3D => [.zero, .subtract, .halfCarry]
  -- ADD HL,rr, SCF and CCF
  | 0x09 | 0x19 | 0x29 | 0x39 | 0x37 | 0x3F => [.subtract, .halfCarry, .carry]
  -- DAA
  | 0x27 => [.zero, .halfCarry, .carry]
  -- CPL
  | 0x2F => [.subtract, .halfCarry]
  -- RLCA, RRCA, RLA and RRA
  | 0x07 | 0x0F | 0x17 | 0x1F => Flag.all
  -- ADD SP,e, LD HL,SP+e and POP AF
  | 0xE8 | 0xF8 | 0xF1 => Flag.all
  -- the operations on A
  | 0xC6 | 0xCE | 0xD6 | 0xDE | 0xE6 | 0xEE | 0xF6 | 0xFE => Flag.all
  | n => if n / 64 = 2 then Flag.all else []

/-- Whether an opcode writes F as a whole byte. Three of those that write flags do not: CPL, SCF and
    CCF. -/
def writesWholeF (opcode : UInt8) : Bool :=
  match opcode.toNat with
  | 0x2F | 0x37 | 0x3F => false
  | _ => flags opcode != []

/-- The addresses that an opcode writes, given the two bytes behind it and whether its branch is
    taken. -/
def stores (regs : Registers) (opcode low high : UInt8) (taken : Bool) : List UInt16 :=
  match opcode.toNat with
  -- LD (HL),r, LD (HL),n, INC (HL), DEC (HL), LD (HL+),A and LD (HL-),A
  | 0x70 | 0x71 | 0x72 | 0x73 | 0x74 | 0x75 | 0x77 | 0x36 | 0x34 | 0x35 | 0x22 | 0x32 =>
    [joinBytes regs.h regs.l]
  -- LD (BC),A and LD (DE),A
  | 0x02 => [joinBytes regs.b regs.c]
  | 0x12 => [joinBytes regs.d regs.e]
  -- LDH (n),A, LD (C),A and LD (nn),A
  | 0xE0 => [0xFF00 ||| low.toUInt16]
  | 0xE2 => [0xFF00 ||| regs.c.toUInt16]
  | 0xEA => [joinBytes high low]
  -- LD (nn),SP
  | 0x08 => [joinBytes high low, joinBytes high low + 1]
  -- PUSH and RST
  | 0xC5 | 0xD5 | 0xE5 | 0xF5 => [regs.sp - 1, regs.sp - 1 - 1]
  | 0xC7 | 0xCF | 0xD7 | 0xDF | 0xE7 | 0xEF | 0xF7 | 0xFF => [regs.sp - 1, regs.sp - 1 - 1]
  -- CALL
  | 0xCD | 0xC4 | 0xCC | 0xD4 | 0xDC => if taken then [regs.sp - 1, regs.sp - 1 - 1] else []
  | _ => []

/-- The footprint of an opcode with the two bytes behind it. -/
def footprint (regs : Registers) (opcode low high : UInt8) : Footprint :=
  let taken := ((branch? opcode low high).filter (Branch.taken regs.f)).isSome
  if opcode = 0xCB then extendedFootprint regs low
  else
    { registers := registers opcode
      stackPointer := writesSP opcode taken
      flags := flags opcode
      wholeF := writesWholeF opcode
      memory := stores regs opcode low high taken }

end Opcode

/-! ### Footprints of instructions -/

/-- The register of an operand, if it is one. -/
def Operand.registers : Operand → List Reg
  | .reg r => [r]
  | .atHL => []

/-- The byte registers of a pair. -/
def Pair.registers : Pair → List Reg
  | .bc => [.b, .c]
  | .de => [.d, .e]
  | .hl => [.h, .l]
  | .sp => []

/-- Whether a pair is the stack pointer. -/
def Pair.isSP : Pair → Bool
  | .sp => true
  | _ => false

/-- What a load or store of A does to its address. -/
def Address.registers : Address → List Reg
  | .hlThenUp | .hlThenDown => [.h, .l]
  | _ => []

/-- A comparison leaves A alone. -/
def Arith.registers : Arith → List Reg
  | .compare => []
  | _ => [.a]

/-- What a stack pair is replaced in: AF is A and the flags. -/
def StackPair.footprint : StackPair → Footprint
  | .bc => { registers := [.b, .c] }
  | .de => { registers := [.d, .e] }
  | .hl => { registers := [.h, .l] }
  | .af => { registers := [.a], flags := Flag.all, wholeF := true }

/-- The writes of a push, if there is one. -/
def Footprint.push (regs : Registers) (taken : Bool) : Footprint where
  stackPointer := taken
  memory := if taken then [regs.sp - 1, regs.sp - 1 - 1] else []

/-- The writes of a byte computed in place, to the operand and to flags. -/
def Operand.modified (regs : Registers) (flags : List Flag) (dst : Operand) : Footprint :=
  { registers := dst.registers, flags, wholeF := true, memory := dst.places regs }

/-- The footprint of an instruction. -/
def Instr.footprint (regs : Registers) (instr : Instr) : Footprint :=
  match instr with
  | .load dst _ | .loadByte dst _ | .clearBit _ dst | .setBit _ dst =>
    { registers := dst.registers, memory := dst.places regs }
  | .loadA src => { registers := src.registers ++ [.a] }
  | .storeA dst => { registers := dst.registers, memory := [dst.place regs] }
  | .loadWord dst _ | .incWord dst | .decWord dst =>
    { registers := dst.registers, stackPointer := dst.isSP }
  | .storeSP address => { memory := [address, address + 1] }
  | .loadSPFromHL => { stackPointer := true }
  | .loadHLFromSP _ => { registers := [.h, .l], flags := Flag.all, wholeF := true }
  | .push _ | .restart _ => .push regs true
  | .pop dst => { dst.footprint with stackPointer := true }
  | .arith op _ | .arithByte op _ => { registers := op.registers, flags := Flag.all, wholeF := true }
  | .inc dst | .dec dst => dst.modified regs [.zero, .subtract, .halfCarry]
  | .shift _ dst => dst.modified regs Flag.all
  | .addHL _ =>
    { registers := [.h, .l], flags := [.subtract, .halfCarry, .carry], wholeF := true }
  | .addSP _ => { stackPointer := true, flags := Flag.all, wholeF := true }
  | .decimalAdjust => { registers := [.a], flags := [.zero, .halfCarry, .carry], wholeF := true }
  | .complement => { registers := [.a], flags := [.subtract, .halfCarry] }
  | .setCarry | .flipCarry => { flags := [.subtract, .halfCarry, .carry] }
  | .rotateA _ => { registers := [.a], flags := Flag.all, wholeF := true }
  | .testBit _ _ => { flags := [.zero, .subtract, .halfCarry], wholeF := true }
  | .call _ _ => .push regs (instr.takenBranch? regs.f).isSome
  | .ret _ => { stackPointer := (instr.takenBranch? regs.f).isSome }
  | .retEnable => { stackPointer := true }
  | _ => {}

/-! ### Agreement -/

theorem Operand.registers_ofIndex (code : UInt8) :
    (Operand.ofIndex code.toNat).registers = Opcode.extendedRegisters code := by
  unfold Operand.ofIndex Opcode.extendedRegisters
  generalize code.toNat % 8 = column
  split <;> simp only [Operand.registers]

theorem Operand.places_ofIndex (regs : Registers) (code : UInt8) :
    (Operand.ofIndex code.toNat).places regs =
      if code.toNat % 8 = 6 then [joinBytes regs.h regs.l] else [] := by
  unfold Operand.ofIndex
  generalize code.toNat % 8 = column
  split <;> simp_all [Operand.places, Registers.hl]

/-- The extended set is laid out in four quarters. -/
theorem Opcode.footprint_decodeExtended (regs : Registers) (code : UInt8) :
    (decodeExtended code).footprint regs = extendedFootprint regs code := by
  unfold decodeExtended extendedFootprint
  rw [← Operand.registers_ofIndex, ← Operand.places_ofIndex regs code]
  rcases code.toNat / 64 with _ | _ | _ | quarter <;> rfl

theorem Opcode.footprint_row (n : Fin 256) (regs : Registers) (low high : UInt8) (instr : Instr)
    (h : (decode (UInt8.ofNat n)).instr? low high = some instr) :
    instr.footprint regs = footprint regs (UInt8.ofNat n) low high := by
  fin_cases n
  case «203» =>
    obtain rfl : decodeExtended low = instr := Option.some.inj h
    exact footprint_decodeExtended regs low
  all_goals
    cases h <;> rfl

/-- Decoding agrees with the table in every row. -/
theorem Opcode.footprint_of_decode {opcode low high : UInt8} {instr : Instr}
    (h : (decode opcode).instr? low high = some instr) (regs : Registers) :
    instr.footprint regs = footprint regs opcode low high := by
  have hrow := footprint_row ⟨opcode.toNat, opcode.toNat_lt⟩ regs low high instr
  rw [UInt8.ofNat_toNat] at hrow
  exact hrow h

end Handheld
