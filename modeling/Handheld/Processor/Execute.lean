/-
Module: Handheld.Processor.Execute
Purpose: What each instruction does once it has been fetched, and how many clock cycles it takes,
  fetches included.
Main exports: Core.execute, Core.pendingLines
-/
import Handheld.Processor.Basic

namespace Handheld

/-- The address of the enable byte IE. -/
def enableAddress : UInt16 := 0xFFFF

/-- The address of the request byte IF. -/
def requestAddress : UInt16 := 0xFF0F

/-- The cycles that an operand adds to those of its register form. -/
def Operand.extraCycles (cost : Nat) : Operand → Nat
  | .reg _ => 0
  | .atHL => cost

/-- The cycles of a load or store of A. -/
def Address.cycles : Address → Nat
  | .bc | .de | .hlThenUp | .hlThenDown => 8
  | .high _ => 12
  | .highC => 8
  | .absolute _ => 16

namespace Core

variable {σ : Type} [Bus σ]

/-- The lines that are both enabled and requested, as the bus shows them. -/
def pendingLines (m : Core σ) : LineSet × Core σ :=
  let (enable, m) := m.read enableAddress
  let (request, m) := m.read requestAddress
  (.ofByte (enable &&& request), m)

/-- Put the result of a computation with A into A and F. -/
def accept (m : Core σ) (r : ByteResult) : Core σ :=
  m.mapRegs fun regs => { regs with a := r.value, f := r.flags.toByte }

/-- Replace an operand by a computed byte and set F; the computation is given the carry flag. -/
def modify (m : Core σ) (dst : Operand) (f : UInt8 → Bool → ByteResult) : Core σ :=
  let (value, m) := m.load dst
  let r := f value (m.cpu.regs.flag .carry)
  (m.mapRegs fun regs => regs.setFlags r.flags).store dst r.value

/-- HALT. With interrupts off and a line already pending the processor does not halt but will read
    the next byte twice. -/
def halt (m : Core σ) : Core σ :=
  if m.cpu.ime then { m with cpu.halted := true }
  else
    let (lines, m) := m.pendingLines
    if lines.bits = 0 then { m with cpu.halted := true } else { m with cpu.haltBug := true }

/-- STOP. A button press from before does not end it. -/
def stop (m : Core σ) : Core σ :=
  let (_, m) := m.takeWake
  { m with cpu.stopped := true, cpu.halted := false }

/-- Carry out a fetched instruction. The answer is the number of clock cycles it takes. -/
def execute (m : Core σ) : Instr → Nat × Core σ
  | .nop => (4, m)
  | .halt => (4, m.halt)
  | .stop => (4, m.stop)
  | .disableInterrupts => (4, { m with cpu := m.cpu.disableInterrupts })
  | .enableInterrupts => (4, { m with cpu.enablePending := true })
  | .load dst src =>
    let (value, m) := m.load src
    (4 + max (dst.extraCycles 4) (src.extraCycles 4), m.store dst value)
  | .loadByte dst value => (8 + dst.extraCycles 4, m.store dst value)
  | .loadA src =>
    let (address, m) := m.resolve src
    let (value, m) := m.read address
    (src.cycles, m.mapRegs fun r => { r with a := value })
  | .storeA dst =>
    let (address, m) := m.resolve dst
    (dst.cycles, m.write address m.cpu.regs.a)
  | .loadWord dst value => (12, m.mapRegs fun r => r.setPair dst value)
  | .storeSP address =>
    let m := m.write address (lowByte m.cpu.regs.sp)
    (20, m.write (address + 1) (highByte m.cpu.regs.sp))
  | .loadSPFromHL => (8, m.mapRegs fun r => { r with sp := r.hl })
  | .loadHLFromSP offset =>
    (12, m.mapRegs fun r =>
      let sum := addOffset r.sp offset
      (r.setFlags sum.flags).setHL sum.value)
  | .push src => (16, m.push (m.cpu.regs.stackPair src))
  | .pop dst =>
    let (value, m) := m.pop
    (12, m.mapRegs fun r => r.setStackPair dst value)
  | .arith op src =>
    let (value, m) := m.load src
    let r := op.apply m.cpu.regs.a value (m.cpu.regs.flag .carry)
    (4 + src.extraCycles 4, m.accept r)
  | .arithByte op value =>
    (8, m.accept (op.apply m.cpu.regs.a value (m.cpu.regs.flag .carry)))
  | .inc dst => (4 + dst.extraCycles 8, m.modify dst incrementByte)
  | .dec dst => (4 + dst.extraCycles 8, m.modify dst decrementByte)
  | .incWord dst => (8, m.mapRegs fun r => r.setPair dst (r.pair dst + 1))
  | .decWord dst => (8, m.mapRegs fun r => r.setPair dst (r.pair dst - 1))
  | .addHL src =>
    (8, m.mapRegs fun r =>
      let sum := addWords r.hl (r.pair src) (r.flag .zero)
      (r.setFlags sum.flags).setHL sum.value)
  | .addSP offset =>
    (16, m.mapRegs fun r =>
      let sum := addOffset r.sp offset
      { r.setFlags sum.flags with sp := sum.value })
  | .decimalAdjust =>
    let r := m.cpu.regs
    (4, m.accept (Handheld.decimalAdjust r.a
      { zero := r.flag .zero, subtract := r.flag .subtract
        halfCarry := r.flag .halfCarry, carry := r.flag .carry }))
  | .complement =>
    (4, m.mapRegs fun r =>
      ({ r with a := ~~~r.a }.setFlag .subtract true).setFlag .halfCarry true)
  | .setCarry =>
    (4, m.mapRegs fun r =>
      ((r.setFlag .subtract false).setFlag .halfCarry false).setFlag .carry true)
  | .flipCarry =>
    (4, m.mapRegs fun r =>
      ((r.setFlag .subtract false).setFlag .halfCarry false).setFlag .carry (!r.flag .carry))
  | .rotateA op =>
    (4, (m.accept (op.apply m.cpu.regs.a (m.cpu.regs.flag .carry))).mapRegs
      fun r => r.setFlag .zero false)
  | .shift op dst => (8 + dst.extraCycles 8, m.modify dst op.apply)
  | .testBit bit src =>
    let (value, m) := m.load src
    (8 + src.extraCycles 4,
      m.mapRegs fun r => r.setFlags (testBitFlags bit value (r.flag .carry)))
  | .clearBit bit dst =>
    let (value, m) := m.load dst
    (8 + dst.extraCycles 8, m.store dst (value &&& ~~~bitMask bit))
  | .setBit bit dst =>
    let (value, m) := m.load dst
    (8 + dst.extraCycles 8, m.store dst (value ||| bitMask bit))
  | .jump condition target =>
    if m.cpu.holds condition then (16, m.jumpTo target) else (12, m)
  | .jumpHL => (4, m.jumpTo m.cpu.regs.hl)
  | .jumpRelative condition offset =>
    if m.cpu.holds condition then (12, m.jumpTo (m.cpu.regs.pc + signExtend offset)) else (8, m)
  | .call condition target =>
    if m.cpu.holds condition then (24, (m.push m.cpu.regs.pc).jumpTo target) else (12, m)
  | .ret none =>
    let (target, m) := m.pop
    (16, m.jumpTo target)
  | .ret (some condition) =>
    if m.cpu.holds condition then
      let (target, m) := m.pop
      (20, m.jumpTo target)
    else (8, m)
  | .retEnable =>
    let (target, m) := m.pop
    let m := m.jumpTo target
    (16, { m with cpu := { m.cpu.disableInterrupts with ime := true } })
  | .restart target => (16, (m.push m.cpu.regs.pc).jumpTo target.toUInt16)

end Core

end Handheld
