/-
Module: Handheld.Processor.Basic
Purpose: The state of the processor, the state it has when a cartridge takes over, and its accesses
  to the bus: reads, writes, fetches at the program counter and the stack.
Main exports: Processor, Processor.boot, Core, Core.fetchByte, Core.push, Core.pop
-/
import Handheld.Processor.Arithmetic
import Handheld.Processor.Bus

namespace Handheld

/-- The state of the processor. -/
structure Processor where
  regs : Registers
  /-- The interrupt master enable. -/
  ime : Bool := false
  /-- Waiting for an interrupt request. -/
  halted : Bool := false
  /-- Waiting for a button press. -/
  stopped : Bool := false
  /-- The next fetch leaves the program counter where it is. -/
  haltBug : Bool := false
  /-- Interrupts are to be enabled after the instruction that follows the next boundary. -/
  enablePending : Bool := false
  /-- Interrupts are to be enabled at the next boundary. -/
  enableDelay : Bool := false
  /-- The fault on which the processor has locked up. -/
  fault : Option Fault := none
deriving DecidableEq, Repr

namespace Processor

/-- The registers as the boot program leaves them. -/
def bootRegisters : Registers :=
  { a := 0x01, f := 0xB0, b := 0x00, c := 0x13, d := 0x00, e := 0xD8, h := 0x01, l := 0x4D
    sp := 0xFFFE, pc := 0x0100 }

/-- The processor as the boot program leaves it: about to run the cartridge at 0x0100, with
    interrupts off. -/
def boot : Processor :=
  { regs := bootRegisters }

/-- Turn interrupts off at once, and drop an enabling that is under way. -/
def disableInterrupts (p : Processor) : Processor :=
  { p with ime := false, enablePending := false, enableDelay := false }

/-- Whether a branch with this condition is taken. -/
def holds (p : Processor) : Option Condition → Bool
  | none => true
  | some .nonZero => !p.regs.flag .zero
  | some .zero => p.regs.flag .zero
  | some .noCarry => !p.regs.flag .carry
  | some .carry => p.regs.flag .carry

/-- The end of an instruction, for an enabling of interrupts that is under way: what was delayed
    takes effect, and what was pending is delayed. -/
def settleEnable (p : Processor) : Processor :=
  if p.enableDelay then { p with ime := true, enableDelay := false }
  else if p.enablePending then { p with enablePending := false, enableDelay := true }
  else p

end Processor

/-- A processor on its bus. -/
structure Core (σ : Type) where
  cpu : Processor
  bus : σ

namespace Core

variable {σ : Type} [Bus σ]

/-- Change the register file. -/
@[inline]
def mapRegs (m : Core σ) (f : Registers → Registers) : Core σ :=
  { m with cpu.regs := f m.cpu.regs }

/-- Read a byte from the bus. -/
@[inline]
def read (m : Core σ) (address : UInt16) : UInt8 × Core σ :=
  let (value, bus) := Bus.read m.bus address
  (value, { m with bus })

/-- Write a byte to the bus. -/
@[inline]
def write (m : Core σ) (address : UInt16) (value : UInt8) : Core σ :=
  { m with bus := Bus.write m.bus address value }

/-- Take the request to leave STOP, if there is one. -/
@[inline]
def takeWake (m : Core σ) : Bool × Core σ :=
  let (wake, bus) := Bus.takeWake m.bus
  (wake, { m with bus })

/-- Let the bus hear a note. -/
@[inline]
def tell (m : Core σ) (note : Note) : Core σ :=
  { m with bus := Bus.hear m.bus note }

/-- Read the byte at the program counter and step past it. After a HALT that did not halt, the
    program counter stays put once, and the byte will be read again. -/
def fetchByte (m : Core σ) : UInt8 × Core σ :=
  let (value, m) := m.read m.cpu.regs.pc
  if m.cpu.haltBug then (value, { m with cpu.haltBug := false })
  else (value, m.mapRegs fun r => { r with pc := r.pc + 1 })

/-- Fetch two bytes as a word, the low one first. -/
def fetchWord (m : Core σ) : UInt16 × Core σ :=
  let (low, m) := m.fetchByte
  let (high, m) := m.fetchByte
  (joinBytes high low, m)

/-- Push a word, the high byte first, so that it lies in memory with the low byte first. -/
def push (m : Core σ) (value : UInt16) : Core σ :=
  let m := m.mapRegs fun r => { r with sp := r.sp - 1 }
  let m := m.write m.cpu.regs.sp (highByte value)
  let m := m.mapRegs fun r => { r with sp := r.sp - 1 }
  m.write m.cpu.regs.sp (lowByte value)

/-- Pop a word. -/
def pop (m : Core σ) : UInt16 × Core σ :=
  let (low, m) := m.read m.cpu.regs.sp
  let (high, m) := m.read (m.cpu.regs.sp + 1)
  (joinBytes high low, m.mapRegs fun r => { r with sp := r.sp + 2 })

/-- Read an operand. -/
def load (m : Core σ) : Operand → UInt8 × Core σ
  | .reg r => (m.cpu.regs.get r, m)
  | .atHL => m.read m.cpu.regs.hl

/-- Write an operand. -/
def store (m : Core σ) (dst : Operand) (value : UInt8) : Core σ :=
  match dst with
  | .reg r => m.mapRegs fun regs => regs.set r value
  | .atHL => m.write m.cpu.regs.hl value

/-- Jump. -/
@[inline]
def jumpTo (m : Core σ) (target : UInt16) : Core σ :=
  m.mapRegs fun r => { r with pc := target }

/-- The address at which the byte of A is loaded or stored; HL moves on where the form says so. -/
def resolve (m : Core σ) : Address → UInt16 × Core σ
  | .bc => (m.cpu.regs.bc, m)
  | .de => (m.cpu.regs.de, m)
  | .hlThenUp => (m.cpu.regs.hl, m.mapRegs fun r => r.setHL (r.hl + 1))
  | .hlThenDown => (m.cpu.regs.hl, m.mapRegs fun r => r.setHL (r.hl - 1))
  | .high offset => (0xFF00 ||| offset.toUInt16, m)
  | .highC => (0xFF00 ||| m.cpu.regs.c.toUInt16, m)
  | .absolute address => (address, m)

end Core

end Handheld
