/-
Module: Handheld.Processor.Decode
Purpose: From bytes to instructions. An opcode decodes to a form, which says how many immediate
  bytes follow it and which instruction they complete; eleven opcodes have no form.
Main exports: Form, decode, decodeExtended, illegalOpcodes
-/
import Handheld.Processor.Instruction

namespace Handheld

/-- What an opcode stands for before its immediate bytes are known. -/
inductive Form where
  /-- The opcode is the whole instruction. -/
  | complete (instr : Instr)
  /-- One immediate byte completes it. -/
  | withByte (instr : UInt8 → Instr)
  /-- Two immediate bytes, the low one first, complete it. -/
  | withWord (instr : UInt16 → Instr)
  /-- The next byte selects an instruction of the extended set. -/
  | extended
  /-- There is no such instruction. -/
  | illegal

/-- Opcodes 0x00 to 0x3F, by their row `y` and column `z`. -/
def decodeMisc (y z : Nat) : Form :=
  match z with
  | 0 =>
    match y with
    | 0 => .complete .nop
    | 1 => .withWord .storeSP
    | 2 => .withByte fun _ => .stop
    | 3 => .withByte (.jumpRelative none)
    | _ => .withByte (.jumpRelative (some (.ofIndex y)))
  | 1 =>
    if y % 2 = 0 then .withWord (.loadWord (.ofIndex (y / 2)))
    else .complete (.addHL (.ofIndex (y / 2)))
  | 2 =>
    if y % 2 = 0 then .complete (.storeA (.ofIndex (y / 2)))
    else .complete (.loadA (.ofIndex (y / 2)))
  | 3 =>
    if y % 2 = 0 then .complete (.incWord (.ofIndex (y / 2)))
    else .complete (.decWord (.ofIndex (y / 2)))
  | 4 => .complete (.inc (.ofIndex y))
  | 5 => .complete (.dec (.ofIndex y))
  | 6 => .withByte (.loadByte (.ofIndex y))
  | _ =>
    match y with
    | 4 => .complete .decimalAdjust
    | 5 => .complete .complement
    | 6 => .complete .setCarry
    | 7 => .complete .flipCarry
    | _ => .complete (.rotateA (.ofIndex y))

/-- Opcodes 0xC0 to 0xFF, by their row `y` and column `z`. -/
def decodeControl (y z : Nat) : Form :=
  match z with
  | 0 =>
    match y with
    | 4 => .withByte fun offset => .storeA (.high offset)
    | 5 => .withByte .addSP
    | 6 => .withByte fun offset => .loadA (.high offset)
    | 7 => .withByte .loadHLFromSP
    | _ => .complete (.ret (some (.ofIndex y)))
  | 1 =>
    match y with
    | 1 => .complete (.ret none)
    | 3 => .complete .retEnable
    | 5 => .complete .jumpHL
    | 7 => .complete .loadSPFromHL
    | _ => .complete (.pop (.ofIndex (y / 2)))
  | 2 =>
    match y with
    | 4 => .complete (.storeA .highC)
    | 5 => .withWord fun address => .storeA (.absolute address)
    | 6 => .complete (.loadA .highC)
    | 7 => .withWord fun address => .loadA (.absolute address)
    | _ => .withWord (.jump (some (.ofIndex y)))
  | 3 =>
    match y with
    | 0 => .withWord (.jump none)
    | 1 => .extended
    | 6 => .complete .disableInterrupts
    | 7 => .complete .enableInterrupts
    | _ => .illegal
  | 4 => if y < 4 then .withWord (.call (some (.ofIndex y))) else .illegal
  | 5 =>
    if y % 2 = 0 then .complete (.push (.ofIndex (y / 2)))
    else if y = 1 then .withWord (.call none)
    else .illegal
  | 6 => .withByte (.arithByte (.ofIndex y))
  | _ => .complete (.restart (UInt8.ofNat (8 * y)))

/-- The form of an opcode. Its two highest bits choose a quarter of the table, the next three a row
    and the last three a column. -/
def decode (opcode : UInt8) : Form :=
  let y := opcode.toNat / 8 % 8
  let z := opcode.toNat % 8
  match opcode.toNat / 64 with
  | 0 => decodeMisc y z
  | 1 => if y = 6 ∧ z = 6 then .complete .halt else .complete (.load (.ofIndex y) (.ofIndex z))
  | 2 => .complete (.arith (.ofIndex y) (.ofIndex z))
  | _ => decodeControl y z

/-- The instruction of the extended set with the given code. -/
def decodeExtended (code : UInt8) : Instr :=
  let y : Fin 8 := Fin.ofNat 8 (code.toNat / 8)
  let operand := Operand.ofIndex code.toNat
  match code.toNat / 64 with
  | 0 => .shift (.ofIndex y) operand
  | 1 => .testBit y operand
  | 2 => .clearBit y operand
  | _ => .setBit y operand

/-- The opcodes without an instruction. -/
def illegalOpcodes : List UInt8 :=
  [0xD3, 0xDB, 0xDD, 0xE3, 0xE4, 0xEB, 0xEC, 0xED, 0xF4, 0xFC, 0xFD]

/-- Whether the form completes to an instruction. -/
def Form.isLegal : Form → Bool
  | .illegal => false
  | _ => true

/-- The table has no gaps beyond the listed ones. -/
theorem isLegal_decode_iff (opcode : UInt8) :
    (decode opcode).isLegal = true ↔ opcode ∉ illegalOpcodes := by
  have h : ∀ n : Fin 256, (decode (UInt8.ofNat n)).isLegal = true ↔
      UInt8.ofNat n ∉ illegalOpcodes := by decide +kernel
  simpa using h ⟨opcode.toNat, opcode.toNat_lt⟩

end Handheld
