/-
Module: Handheld.Proofs.Processor.OperandForms
Purpose: One operation in several places of the opcode tables. An operation finds its byte in a
  register, in memory or behind the opcode; wherever that is, the outcome is told by the operation, the
  byte and the flags alone.
Main exports: Operand.column, Arith.row, Core.Leads, Core.ArithForm, ByteOp, Instr.InPlace,
  operand_forms_agree
-/
import Handheld.Proofs.Processor.RegisterFrame

namespace Handheld

/-! ### The layout of the tables -/

/-- The column of an operand in the tables. -/
def Operand.column : Operand → UInt8
  | .reg .b => 0
  | .reg .c => 1
  | .reg .d => 2
  | .reg .e => 3
  | .reg .h => 4
  | .reg .l => 5
  | .atHL => 6
  | .reg .a => 7

/-- The row of an operation on A: ADD, ADC, SUB, SBC, AND, XOR, OR and CP. -/
def Arith.row : Arith → UInt8
  | .add => 0
  | .addCarry => 1
  | .sub => 2
  | .subCarry => 3
  | .and => 4
  | .xor => 5
  | .or => 6
  | .compare => 7

theorem decode_arith (op : Arith) (o : Operand) :
    decode (0x80 + 8 * op.row + o.column) = .complete (.arith op o) := by
  cases o with
  | reg r => cases op <;> cases r <;> rfl
  | atHL => cases op <;> rfl

theorem decode_arithByte (op : Arith) :
    decode (0xC6 + 8 * op.row) = .withByte (.arithByte op) := by
  cases op <;> rfl

theorem decode_inc (o : Operand) : decode (0x04 + 8 * o.column) = .complete (.inc o) := by
  cases o with
  | reg r => cases r <;> rfl
  | atHL => rfl

theorem decode_dec (o : Operand) : decode (0x05 + 8 * o.column) = .complete (.dec o) := by
  cases o with
  | reg r => cases r <;> rfl
  | atHL => rfl

/-- The instructions in a row of the extended set. -/
def extendedRow (row : Fin 32) : Operand → Instr :=
  let y : Fin 8 := ⟨row.val % 8, Nat.mod_lt _ (by decide)⟩
  match row.val / 8 with
  | 0 => .shift (.ofIndex y)
  | 1 => .testBit y
  | 2 => .clearBit y
  | _ => .setBit y

theorem decodeExtended_row (row : Fin 32) (o : Operand) :
    decodeExtended (8 * UInt8.ofNat row + o.column) = extendedRow row o := by
  revert row
  cases o with
  | reg r => cases r <;> decide +kernel
  | atHL => decide +kernel

theorem decode_rotateA (row : Fin 4) :
    decode (0x07 + 8 * UInt8.ofNat row) = .complete (.rotateA (.ofIndex row)) := by
  fin_cases row <;> rfl

theorem decodeExtended_rotateA (row : Fin 4) :
    decodeExtended (0x07 + 8 * UInt8.ofNat row) = .shift (.ofIndex row) (.reg .a) := by
  fin_cases row <;> rfl

/-- The operations on a byte in a register or at HL: INC, DEC, and the rows of the extended set. -/
inductive ByteOp where
  | inc
  | dec
  | extended (row : Fin 32)

/-- The instruction that an operation is on a given operand. -/
def ByteOp.instr : ByteOp → Operand → Instr
  | .inc => .inc
  | .dec => .dec
  | .extended row => extendedRow row

/-! ### One instruction on flat memory -/

/-- The processor after an instruction that leaves it these registers, the program counter apart: a
    byte that had to be read twice has been, and an enabling of interrupts has come nearer. -/
def Processor.finished (p : Processor) (regs : Registers) : Processor :=
  { p with haltBug := false, regs }.settleEnable

namespace Core

/-- Fetching and executing one instruction leads from `m` to `m'`, the program counter apart. -/
def Leads (m m' : Core FlatMemory) : Prop :=
  ∃ report pc, m.runInstruction = (.ok report, m'.jumpTo pc)

/-- What a fetch leaves, with the program counter at the given place. -/
def afterFetch (m : Core FlatMemory) (pc : UInt16) : Core FlatMemory :=
  ⟨{ m.cpu with haltBug := false, regs := { m.cpu.regs with pc } }, m.bus⟩

theorem jumpTo_finished (p : Processor) (regs : Registers) (mem : FlatMemory) (pc : UInt16) :
    jumpTo ⟨p.finished regs, mem⟩ pc = ⟨p.finished { regs with pc }, mem⟩ := by
  unfold Processor.finished Processor.settleEnable
  dsimp only
  split
  · rfl
  · split <;> rfl

variable {m : Core FlatMemory} {instr : Instr}

theorem fetch_of_complete (h : decode (m.bus.get m.cpu.regs.pc) = .complete instr) :
    ∃ pc, m.fetch = (.ok instr, m.afterFetch pc) := by
  rw [fetch_eq, fetchByte_flat, complete, h]
  exact ⟨_, rfl⟩

theorem fetch_of_withByte {f : UInt8 → Instr}
    (h : decode (m.bus.get m.cpu.regs.pc) = .withByte f) :
    ∃ pc, m.fetch = (.ok (f (m.bus.get (operandAddress m.cpu))), m.afterFetch pc) := by
  rw [fetch_eq, fetchByte_flat, complete, h]
  dsimp only
  rw [fetchByte_flat]
  exact ⟨_, rfl⟩

theorem fetch_of_extended (h : m.bus.get m.cpu.regs.pc = 0xCB) :
    ∃ pc, m.fetch =
      (.ok (decodeExtended (m.bus.get (operandAddress m.cpu))), m.afterFetch pc) := by
  have hdecode : decode (m.bus.get m.cpu.regs.pc) = .extended := by
    rw [h]
    rfl
  rw [fetch_eq, fetchByte_flat, complete, hdecode]
  dsimp only
  rw [fetchByte_flat]
  exact ⟨_, rfl⟩

/-- An instruction leads to what its execution leaves, wherever the fetch has left the program
    counter. -/
theorem leads_of_fetch {regs : Registers} {mem : FlatMemory}
    (hfetch : ∃ pc, m.fetch = (.ok instr, m.afterFetch pc))
    (hexecute : ∀ pc, ((m.afterFetch pc).execute instr).2 =
      ⟨{ m.cpu with haltBug := false, regs := { regs with pc } }, mem⟩) :
    m.Leads ⟨m.cpu.finished regs, mem⟩ := by
  obtain ⟨pc, hpc⟩ := hfetch
  refine ⟨⟨((m.afterFetch pc).execute instr).1, .executed instr⟩, pc, ?_⟩
  rw [runInstruction_eq, hpc, jumpTo_finished]
  unfold finish
  dsimp only
  rw [hexecute]
  rfl

/-! ### Operations on A -/

/-- The next instruction is an operation on A that finds the byte `v`: in a register, in memory at HL
    or behind the opcode. -/
inductive ArithForm (op : Arith) (v : UInt8) (m : Core FlatMemory) : Prop where
  | operand (o : Operand) (hcode : m.bus.get m.cpu.regs.pc = 0x80 + 8 * op.row + o.column)
      (hvalue : (m.load o).1 = v)
  | immediate (hcode : m.bus.get m.cpu.regs.pc = 0xC6 + 8 * op.row)
      (hvalue : m.bus.get (operandAddress m.cpu) = v)

/-- Wherever the byte is found, the operation leaves the same A and F and nothing else. -/
theorem ArithForm.leads {op : Arith} {v : UInt8} (h : ArithForm op v m) :
    let result := op.apply m.cpu.regs.a v (m.cpu.regs.flag .carry)
    m.Leads ⟨m.cpu.finished { m.cpu.regs with a := result.value, f := result.flags.toByte },
      m.bus⟩ := by
  cases h with
  | operand o hcode hvalue =>
      have hdecode : decode (m.bus.get m.cpu.regs.pc) = .complete (.arith op o) := by
        rw [hcode, decode_arith]
      refine leads_of_fetch (fetch_of_complete hdecode) fun pc => ?_
      subst hvalue
      cases o <;> rfl
  | immediate hcode hvalue =>
      have hdecode : decode (m.bus.get m.cpu.regs.pc) = .withByte (.arithByte op) := by
        rw [hcode, decode_arithByte]
      refine leads_of_fetch (fetch_of_withByte hdecode) fun pc => ?_
      subst hvalue
      rfl

end Core

/-! ### Operations in place -/

/-- The next instruction is the operation on the operand. -/
def ByteOp.IsNext (op : ByteOp) (o : Operand) (m : Core FlatMemory) : Prop :=
  match op with
  | .inc => m.bus.get m.cpu.regs.pc = 0x04 + 8 * o.column
  | .dec => m.bus.get m.cpu.regs.pc = 0x05 + 8 * o.column
  | .extended row => m.bus.get m.cpu.regs.pc = 0xCB ∧
      m.bus.get (Core.operandAddress m.cpu) = 8 * UInt8.ofNat row + o.column

theorem ByteOp.IsNext.fetch {op : ByteOp} {o : Operand} {m : Core FlatMemory}
    (h : op.IsNext o m) : ∃ pc, m.fetch = (.ok (op.instr o), m.afterFetch pc) := by
  cases op with
  | inc =>
      apply Core.fetch_of_complete
      rw [show m.bus.get m.cpu.regs.pc = _ from h]
      exact decode_inc o
  | dec =>
      apply Core.fetch_of_complete
      rw [show m.bus.get m.cpu.regs.pc = _ from h]
      exact decode_dec o
  | extended row =>
      obtain ⟨hescape, hcode⟩ := h
      have hfetch := Core.fetch_of_extended hescape
      rwa [hcode, decodeExtended_row] at hfetch

/-- Instructions, one for each operand, that replace the byte of the operand and F by what `f` makes
    of them, and change nothing else. -/
structure Instr.InPlace (family : Operand → Instr) (f : UInt8 → UInt8 → UInt8 × UInt8) : Prop where
  reg (m : Core FlatMemory) (r : Reg) : (m.execute (family (.reg r))).2 =
    m.mapRegs fun regs => { regs with f := (f (regs.get r) regs.f).2 }.set r
      (f (regs.get r) regs.f).1
  atHL (m : Core FlatMemory) : (m.execute (family .atHL)).2 =
    (m.mapRegs fun regs => { regs with f := (f (m.bus.get regs.hl) regs.f).2 }).write
      m.cpu.regs.hl (f (m.bus.get m.cpu.regs.hl) m.cpu.regs.f).1

namespace Instr

/-- What a computation that is given a byte and the carry makes of a byte and F. -/
def onByteAndF (compute : UInt8 → Bool → ByteResult) (v f : UInt8) : UInt8 × UInt8 :=
  let result := compute v (f &&& Flag.carry.mask != 0)
  (result.value, result.flags.toByte)

theorem inPlace_modify {family : Operand → Instr} {compute : UInt8 → Bool → ByteResult}
    (h : ∀ (m : Core FlatMemory) o, (m.execute (family o)).2 = m.modify o compute) :
    InPlace family (onByteAndF compute) where
  reg m r := h m (.reg r)
  atHL m := h m .atHL

/-- A test of a bit puts the byte back as it was. -/
theorem inPlace_testBit (bit : Fin 8) : InPlace (.testBit bit) fun v f =>
    (v, (testBitFlags bit v (f &&& Flag.carry.mask != 0)).toByte) where
  reg m r := by
    have hsame (f : UInt8) :
        { m.cpu.regs with f }.set r (m.cpu.regs.get r) = { m.cpu.regs with f } := by
      cases r <;> rfl
    unfold Core.mapRegs
    dsimp only
    rw [hsame]
    rfl
  atHL m := by
    have hsame : m.bus.set m.cpu.regs.hl (m.bus.get m.cpu.regs.hl) = m.bus := by
      simp [FlatMemory.set, FlatMemory.get]
    unfold Core.write Core.mapRegs
    dsimp only [Bus.write]
    rw [hsame]
    rfl

theorem inPlace_clearBit (bit : Fin 8) : InPlace (.clearBit bit) fun v f =>
    (v &&& ~~~bitMask bit, f) where
  reg _ _ := rfl
  atHL _ := rfl

theorem inPlace_setBit (bit : Fin 8) : InPlace (.setBit bit) fun v f =>
    (v ||| bitMask bit, f) where
  reg _ _ := rfl
  atHL _ := rfl

end Instr

/-- Every operation on a byte does the same with a byte in a register and with one in memory. -/
theorem ByteOp.inPlace (op : ByteOp) : ∃ f, Instr.InPlace op.instr f := by
  cases op with
  | inc => exact ⟨_, Instr.inPlace_modify fun _ _ => rfl⟩
  | dec => exact ⟨_, Instr.inPlace_modify fun _ _ => rfl⟩
  | extended row =>
      unfold instr extendedRow
      dsimp only
      split
      · exact ⟨_, Instr.inPlace_modify fun _ _ => rfl⟩
      · exact ⟨_, Instr.inPlace_testBit _⟩
      · exact ⟨_, Instr.inPlace_clearBit _⟩
      · exact ⟨_, Instr.inPlace_setBit _⟩

namespace Instr.InPlace

variable {op : ByteOp} {f : UInt8 → UInt8 → UInt8 × UInt8} {m : Core FlatMemory}

theorem leads_reg (h : InPlace op.instr f) {r : Reg} (hnext : op.IsNext (.reg r) m) :
    m.Leads ⟨m.cpu.finished ({ m.cpu.regs with f := (f (m.cpu.regs.get r) m.cpu.regs.f).2 }.set r
      (f (m.cpu.regs.get r) m.cpu.regs.f).1), m.bus⟩ := by
  refine Core.leads_of_fetch hnext.fetch fun pc => ?_
  rw [h.reg]
  cases r <;> rfl

theorem leads_atHL (h : InPlace op.instr f) (hnext : op.IsNext .atHL m) :
    m.Leads ⟨m.cpu.finished
      { m.cpu.regs with f := (f (m.bus.get m.cpu.regs.hl) m.cpu.regs.f).2 },
      m.bus.set m.cpu.regs.hl (f (m.bus.get m.cpu.regs.hl) m.cpu.regs.f).1⟩ := by
  refine Core.leads_of_fetch hnext.fetch fun pc => ?_
  rw [h.atHL]
  rfl

end Instr.InPlace

/-! ### Rotations of A -/

namespace Core

variable {m : Core FlatMemory} {row : Fin 4}

theorem leads_rotateA (hcode : m.bus.get m.cpu.regs.pc = 0x07 + 8 * UInt8.ofNat row) :
    let result := (Shift.ofIndex row).apply m.cpu.regs.a (m.cpu.regs.flag .carry)
    m.Leads ⟨m.cpu.finished ({ m.cpu.regs with
      a := result.value, f := result.flags.toByte }.setFlag .zero false), m.bus⟩ := by
  have hdecode : decode (m.bus.get m.cpu.regs.pc) = .complete (.rotateA (.ofIndex row)) := by
    rw [hcode, decode_rotateA]
  exact leads_of_fetch (fetch_of_complete hdecode) fun pc => rfl

theorem leads_rotateA_extended (hescape : m.bus.get m.cpu.regs.pc = 0xCB)
    (hcode : m.bus.get (operandAddress m.cpu) = 0x07 + 8 * UInt8.ofNat row) :
    let result := (Shift.ofIndex row).apply m.cpu.regs.a (m.cpu.regs.flag .carry)
    m.Leads ⟨m.cpu.finished { m.cpu.regs with
      a := result.value, f := result.flags.toByte }, m.bus⟩ := by
  have hfetch := fetch_of_extended hescape
  rw [hcode, decodeExtended_rotateA] at hfetch
  exact leads_of_fetch hfetch fun pc => rfl

end Core

/-! ### Main statement -/

/-- The forms of an operation agree. An operation on A leaves the same A and F, and nothing else,
    wherever its byte is found. Counting up, counting down and every operation of the extended set make
    the same byte and the same F of a byte in a register and of one in memory, put the byte back where
    it was and change nothing else. The four rotations of A do what they do in the extended set, but
    leave the zero flag clear. -/
theorem operand_forms_agree :
    (∀ (op : Arith) (v a f : UInt8), ∃ a' f', ∀ m : Core FlatMemory,
      m.cpu.regs.a = a → m.cpu.regs.f = f → Core.ArithForm op v m →
        m.Leads ⟨m.cpu.finished { m.cpu.regs with a := a', f := f' }, m.bus⟩) ∧
    (∀ (op : ByteOp) (v f : UInt8), ∃ v' f', ∀ m : Core FlatMemory, m.cpu.regs.f = f →
      (∀ r, m.cpu.regs.get r = v → op.IsNext (.reg r) m →
        m.Leads ⟨m.cpu.finished ({ m.cpu.regs with f := f' }.set r v'), m.bus⟩) ∧
      (m.bus.get m.cpu.regs.hl = v → op.IsNext .atHL m →
        m.Leads ⟨m.cpu.finished { m.cpu.regs with f := f' }, m.bus.set m.cpu.regs.hl v'⟩)) ∧
    ∀ (row : Fin 4) (a f : UInt8), ∃ a' f', ∀ m : Core FlatMemory,
      m.cpu.regs.a = a → m.cpu.regs.f = f →
      (m.bus.get m.cpu.regs.pc = 0x07 + 8 * UInt8.ofNat row →
        m.Leads ⟨m.cpu.finished ({ m.cpu.regs with a := a', f := f' }.setFlag .zero false),
          m.bus⟩) ∧
      (m.bus.get m.cpu.regs.pc = 0xCB →
        m.bus.get (Core.operandAddress m.cpu) = 0x07 + 8 * UInt8.ofNat row →
          m.Leads ⟨m.cpu.finished { m.cpu.regs with a := a', f := f' }, m.bus⟩) := by
  refine ⟨fun op v a f => ?arith, fun op v f => ?inPlace, fun row a f => ?rotate⟩
  case arith =>
    refine ⟨(op.apply a v (f &&& Flag.carry.mask != 0)).value,
      (op.apply a v (f &&& Flag.carry.mask != 0)).flags.toByte, ?_⟩
    rintro m rfl rfl hform
    exact hform.leads
  case inPlace =>
    obtain ⟨compute, hcompute⟩ := op.inPlace
    refine ⟨(compute v f).1, (compute v f).2, ?_⟩
    rintro m rfl
    constructor
    · rintro r rfl hnext
      exact hcompute.leads_reg hnext
    · rintro rfl hnext
      exact hcompute.leads_atHL hnext
  case rotate =>
    refine ⟨((Shift.ofIndex row).apply a (f &&& Flag.carry.mask != 0)).value,
      ((Shift.ofIndex row).apply a (f &&& Flag.carry.mask != 0)).flags.toByte, ?_⟩
    rintro m rfl rfl
    exact ⟨Core.leads_rotateA, Core.leads_rotateA_extended⟩

/-- A processor in front of three bytes. -/
def inFrontOf (regs : Registers) (x y z : UInt8) : Core FlatMemory :=
  ⟨{ regs }, ({} : FlatMemory).setAll 0 [x, y, z]⟩

theorem get_inFrontOf {regs : Registers} {x y z : UInt8} :
    (inFrontOf regs x y z).bus.get 0 = x ∧ (inFrontOf regs x y z).bus.get 1 = y ∧
      (inFrontOf regs x y z).bus.get 2 = z := by
  simp [inFrontOf, FlatMemory.setAll, FlatMemory.get_set]

/-- ADC finds a one in B, in memory and behind the opcode; SLA finds it in B and in memory; and A is
    rotated through the carry without and with the prefix. -/
theorem operand_forms_agree_one :
    (∃ a f : UInt8,
      (inFrontOf { a := 0x0F, b := 0x01 } 0x88 0 0).Leads
        (inFrontOf { a, f, b := 0x01 } 0x88 0 0) ∧
      (inFrontOf { a := 0x0F, l := 0x01 } 0x8E 0x01 0).Leads
        (inFrontOf { a, f, l := 0x01 } 0x8E 0x01 0) ∧
      (inFrontOf { a := 0x0F } 0xCE 0x01 0).Leads (inFrontOf { a, f } 0xCE 0x01 0)) ∧
    (∃ v f : UInt8,
      (inFrontOf { b := 0x01 } 0xCB 0x20 0).Leads (inFrontOf { f, b := v } 0xCB 0x20 0) ∧
      (inFrontOf { l := 0x02 } 0xCB 0x26 0x01).Leads
        ⟨{ regs := { f, l := 0x02 } }, (inFrontOf {} 0xCB 0x26 0x01).bus.set 0x0002 v⟩) ∧
    ∃ a f : UInt8,
      (inFrontOf { a := 0x80 } 0x17 0 0).Leads
        (inFrontOf (Registers.setFlag { a, f } .zero false) 0x17 0 0) ∧
      (inFrontOf { a := 0x80 } 0xCB 0x17 0).Leads (inFrontOf { a, f } 0xCB 0x17 0) := by
  obtain ⟨harith, hinPlace, hrotate⟩ := operand_forms_agree
  obtain ⟨a, f, hadd⟩ := harith .addCarry 0x01 0x0F 0x00
  obtain ⟨v, f', hshift⟩ := hinPlace (.extended 4) 0x01 0x00
  obtain ⟨a', f'', hturn⟩ := hrotate 2 0x80 0x00
  refine ⟨⟨a, f, ?_, ?_, ?_⟩, ⟨v, f', ?_, ?_⟩, ⟨a', f'', ?_, ?_⟩⟩
  · exact hadd _ rfl rfl (.operand (.reg .b) get_inFrontOf.1 rfl)
  · exact hadd _ rfl rfl (.operand .atHL get_inFrontOf.1 get_inFrontOf.2.1)
  · exact hadd _ rfl rfl (.immediate get_inFrontOf.1 get_inFrontOf.2.1)
  · exact (hshift _ rfl).1 .b rfl ⟨get_inFrontOf.1, get_inFrontOf.2.1⟩
  · exact (hshift _ rfl).2 get_inFrontOf.2.2 ⟨get_inFrontOf.1, get_inFrontOf.2.1⟩
  · exact (hturn _ rfl rfl).1 get_inFrontOf.1
  · exact (hturn _ rfl rfl).2 get_inFrontOf.1 get_inFrontOf.2.1

end Handheld
