/-
Module: Handheld.Proofs.Processor.OpcodeTable
Purpose: The published table of the instruction set, opcode by opcode: how long an instruction is,
  where it sends control and under which condition, and what it costs beyond its accesses to memory.
  Decoding agrees with the table in every row.
Main exports: Destination, Branch, Opcode.length, Opcode.branch?, Opcode.internalCycles,
  Form.instr?, Opcode.Tabled, Opcode.tabled_of_decode, Form.instr?_eq_none_iff
-/
import Handheld.Processor.Decode
import Mathlib.Tactic.FinCases
import Mathlib.Data.Fintype.Basic

namespace Handheld

/-! ### Branches -/

/-- Where a branch leads. -/
inductive Destination where
  /-- The address that the instruction gives. -/
  | address (target : UInt16)
  /-- So many bytes, as a signed number, from the following instruction. -/
  | relative (offset : UInt8)
  /-- Where HL points. -/
  | atHL
  /-- The address on top of the stack. -/
  | stacked
deriving DecidableEq, Repr

/-- A change of the course of control. -/
structure Branch where
  condition : Option Condition
  destination : Destination
  /-- The address of the following instruction is pushed, to be returned to. -/
  links : Bool
deriving DecidableEq, Repr

/-- Whether a condition is met, by the bits of F: bit 7 is the zero flag, and bit 4 the
    carry flag. -/
def Condition.metBy (f : UInt8) : Condition → Bool
  | .nonZero => !f.toNat.testBit 7
  | .zero => f.toNat.testBit 7
  | .noCarry => !f.toNat.testBit 4
  | .carry => f.toNat.testBit 4

/-- Whether a branch is taken: without a condition it always is. -/
def Branch.taken (f : UInt8) (branch : Branch) : Bool :=
  branch.condition.all (Condition.metBy f)

namespace Opcode

/-! ### The table -/

/-- The length of an instruction in bytes. -/
def length (opcode : UInt8) : Nat :=
  match opcode.toNat with
  -- LD r,n
  | 0x06 | 0x0E | 0x16 | 0x1E | 0x26 | 0x2E | 0x36 | 0x3E => 2
  -- ADD A,n and the other operations on A
  | 0xC6 | 0xCE | 0xD6 | 0xDE | 0xE6 | 0xEE | 0xF6 | 0xFE => 2
  -- JR
  | 0x18 | 0x20 | 0x28 | 0x30 | 0x38 => 2
  -- LDH (n),A and LDH A,(n)
  | 0xE0 | 0xF0 => 2
  -- ADD SP,e and LD HL,SP+e
  | 0xE8 | 0xF8 => 2
  -- STOP, and the extended set
  | 0x10 | 0xCB => 2
  -- LD rr,nn and LD (nn),SP
  | 0x01 | 0x11 | 0x21 | 0x31 | 0x08 => 3
  -- JP
  | 0xC3 | 0xC2 | 0xCA | 0xD2 | 0xDA => 3
  -- CALL
  | 0xCD | 0xC4 | 0xCC | 0xD4 | 0xDC => 3
  -- LD (nn),A and LD A,(nn)
  | 0xEA | 0xFA => 3
  | _ => 1

/-- The branch of an instruction, given the two bytes behind its opcode. -/
def branch? (opcode low high : UInt8) : Option Branch :=
  let word := joinBytes high low
  match opcode.toNat with
  -- JR
  | 0x18 => some ⟨none, .relative low, false⟩
  | 0x20 => some ⟨some .nonZero, .relative low, false⟩
  | 0x28 => some ⟨some .zero, .relative low, false⟩
  | 0x30 => some ⟨some .noCarry, .relative low, false⟩
  | 0x38 => some ⟨some .carry, .relative low, false⟩
  -- JP
  | 0xC3 => some ⟨none, .address word, false⟩
  | 0xC2 => some ⟨some .nonZero, .address word, false⟩
  | 0xCA => some ⟨some .zero, .address word, false⟩
  | 0xD2 => some ⟨some .noCarry, .address word, false⟩
  | 0xDA => some ⟨some .carry, .address word, false⟩
  | 0xE9 => some ⟨none, .atHL, false⟩
  -- CALL
  | 0xCD => some ⟨none, .address word, true⟩
  | 0xC4 => some ⟨some .nonZero, .address word, true⟩
  | 0xCC => some ⟨some .zero, .address word, true⟩
  | 0xD4 => some ⟨some .noCarry, .address word, true⟩
  | 0xDC => some ⟨some .carry, .address word, true⟩
  -- RET and RETI
  | 0xC9 => some ⟨none, .stacked, false⟩
  | 0xD9 => some ⟨none, .stacked, false⟩
  | 0xC0 => some ⟨some .nonZero, .stacked, false⟩
  | 0xC8 => some ⟨some .zero, .stacked, false⟩
  | 0xD0 => some ⟨some .noCarry, .stacked, false⟩
  | 0xD8 => some ⟨some .carry, .stacked, false⟩
  -- RST
  | 0xC7 => some ⟨none, .address 0x00, true⟩
  | 0xCF => some ⟨none, .address 0x08, true⟩
  | 0xD7 => some ⟨none, .address 0x10, true⟩
  | 0xDF => some ⟨none, .address 0x18, true⟩
  | 0xE7 => some ⟨none, .address 0x20, true⟩
  | 0xEF => some ⟨none, .address 0x28, true⟩
  | 0xF7 => some ⟨none, .address 0x30, true⟩
  | 0xFF => some ⟨none, .address 0x38, true⟩
  | _ => none

/-- The cycles of an instruction beyond four for each byte that it fetches, reads or writes. -/
def internalCycles (opcode : UInt8) (taken : Bool) : Nat :=
  match opcode.toNat with
  -- INC rr and DEC rr
  | 0x03 | 0x13 | 0x23 | 0x33 | 0x0B | 0x1B | 0x2B | 0x3B => 4
  -- ADD HL,rr
  | 0x09 | 0x19 | 0x29 | 0x39 => 4
  -- LD SP,HL and LD HL,SP+e
  | 0xF9 | 0xF8 => 4
  -- PUSH rr
  | 0xC5 | 0xD5 | 0xE5 | 0xF5 => 4
  -- RST
  | 0xC7 | 0xCF | 0xD7 | 0xDF | 0xE7 | 0xEF | 0xF7 | 0xFF => 4
  -- RET and RETI
  | 0xC9 | 0xD9 => 4
  -- JR
  | 0x18 | 0x20 | 0x28 | 0x30 | 0x38 => if taken then 4 else 0
  -- JP a16
  | 0xC3 | 0xC2 | 0xCA | 0xD2 | 0xDA => if taken then 4 else 0
  -- CALL
  | 0xCD | 0xC4 | 0xCC | 0xD4 | 0xDC => if taken then 4 else 0
  -- RET cc
  | 0xC0 | 0xC8 | 0xD0 | 0xD8 => if taken then 8 else 4
  -- ADD SP,e
  | 0xE8 => 8
  | _ => 0

/-- HALT, which looks for pending lines. -/
def halt : UInt8 := 0x76

/-- STOP, whose second byte takes no time. -/
def stop : UInt8 := 0x10

end Opcode

/-! ### The table by instruction -/

namespace Instr

/-- The branch of an instruction. -/
def branch? : Instr → Option Branch
  | .jump condition target => some ⟨condition, .address target, false⟩
  | .jumpHL => some ⟨none, .atHL, false⟩
  | .jumpRelative condition offset => some ⟨condition, .relative offset, false⟩
  | .call condition target => some ⟨condition, .address target, true⟩
  | .ret condition => some ⟨condition, .stacked, false⟩
  | .retEnable => some ⟨none, .stacked, false⟩
  | .restart target => some ⟨none, .address target.toUInt16, true⟩
  | _ => none

/-- The cycles of an instruction beyond four for each byte. -/
def internalCycles (taken : Bool) : Instr → Nat
  | .incWord _ | .decWord _ | .addHL _ | .loadSPFromHL | .loadHLFromSP _ | .push _ | .restart _
  | .ret none | .retEnable => 4
  | .jump _ _ | .jumpRelative _ _ | .call _ _ => if taken then 4 else 0
  | .ret (some _) => if taken then 8 else 4
  | .addSP _ => 8
  | _ => 0

/-- The bytes of an instruction. -/
def length : Instr → Nat
  | .loadByte _ _ | .arithByte _ _ | .loadHLFromSP _ | .addSP _ | .jumpRelative _ _ | .stop
  | .loadA (.high _) | .storeA (.high _)
  | .shift _ _ | .testBit _ _ | .clearBit _ _ | .setBit _ _ => 2
  | .loadWord _ _ | .storeSP _ | .jump _ _ | .call _ _
  | .loadA (.absolute _) | .storeA (.absolute _) => 3
  | _ => 1

end Instr

/-- The number of bytes that a form asks for, its opcode included. -/
def Form.length : Form → Nat
  | .complete _ | .illegal => 1
  | .withByte _ | .extended => 2
  | .withWord _ => 3

/-- The instruction that a form and the two bytes behind its opcode make up. -/
def Form.instr? (form : Form) (low high : UInt8) : Option Instr :=
  match form with
  | .complete instr => some instr
  | .withByte instr => some (instr low)
  | .withWord instr => some (instr (joinBytes high low))
  | .extended => some (decodeExtended low)
  | .illegal => none

/-- The instruction is the one that the table has for its opcode. -/
structure Opcode.Tabled (opcode low high : UInt8) (instr : Instr) : Prop where
  length : instr.length = Opcode.length opcode
  branch : instr.branch? = Opcode.branch? opcode low high
  internal : ∀ taken, instr.internalCycles taken = Opcode.internalCycles opcode taken
  halt : instr = .halt ↔ opcode = Opcode.halt
  stop : instr = .stop ↔ opcode = Opcode.stop
  /-- No load has both its operands in memory. -/
  load : instr ≠ .load .atHL .atHL

/-! ### Agreement -/

/-- The whole extended set shares one row. -/
theorem Opcode.tabled_decodeExtended (low high : UInt8) :
    Opcode.Tabled 0xCB low high (decodeExtended low) := by
  unfold decodeExtended
  dsimp only
  split
  all_goals exact ⟨rfl, rfl, fun _ => rfl, by simp; decide, by simp; decide, by simp⟩

theorem Opcode.tabled_row (n : Fin 256) (low high : UInt8) (instr : Instr)
    (h : (decode (UInt8.ofNat n)).instr? low high = some instr) :
    Opcode.Tabled (UInt8.ofNat n) low high instr := by
  fin_cases n
  case «203» =>
    obtain rfl : decodeExtended low = instr := Option.some.inj h
    exact tabled_decodeExtended low high
  -- in all other rows the immediate bytes are plain arguments, so that the row holds by computation
  all_goals
    cases h <;> exact ⟨rfl, rfl, fun _ => rfl, by simp; decide, by simp; decide, nofun⟩

/-- Decoding agrees with the table in every row. -/
theorem Opcode.tabled_of_decode {opcode low high : UInt8} {instr : Instr}
    (h : (decode opcode).instr? low high = some instr) : Opcode.Tabled opcode low high instr := by
  have hrow := tabled_row ⟨opcode.toNat, opcode.toNat_lt⟩ low high instr
  rw [UInt8.ofNat_toNat] at hrow
  exact hrow h

/-- The form of an opcode asks for as many bytes as the table says. -/
theorem Form.length_decode (opcode : UInt8) : (decode opcode).length = Opcode.length opcode := by
  have h : ∀ n : Fin 256, (decode (UInt8.ofNat n)).length = Opcode.length (UInt8.ofNat n) := by
    decide +kernel
  simpa using h ⟨opcode.toNat, opcode.toNat_lt⟩

/-- The rows without an instruction are the listed ones. -/
theorem Form.instr?_eq_none_iff (opcode low high : UInt8) :
    (decode opcode).instr? low high = none ↔ opcode ∈ illegalOpcodes := by
  rw [← not_iff_not, ← isLegal_decode_iff]
  cases decode opcode <;> simp [Form.instr?, Form.isLegal]

end Handheld
