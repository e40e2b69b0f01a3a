/-
Module: Handheld.Proofs.Checked.Processor
Purpose: A step of the processor in which every sum, difference and shift that must not leave its
  width is checked. What is meant to wrap around is left as it is. On no bus does a check stop the
  step, whatever the state of the processor.
Main exports: Core.execute?, Core.execute?_eq, Core.step?, Core.step?_eq
-/
import Handheld.Processor.Step
import Handheld.Proofs.Checked.Arithmetic

namespace Handheld.Core

variable {σ : Type} [Bus σ]

/-- Carry out a fetched instruction. The instructions that are not named only move bytes, or count
    with registers that wrap around. -/
def execute? (m : Core σ) : Instr → Option (Nat × Core σ)
  | .loadHLFromSP offset => do
    let sum ← addOffset? m.cpu.regs.sp offset
    some (12, m.mapRegs fun r => (r.setFlags sum.flags).setHL sum.value)
  | .addSP offset => do
    let sum ← addOffset? m.cpu.regs.sp offset
    some (16, m.mapRegs fun r => { r.setFlags sum.flags with sp := sum.value })
  | .addHL src => do
    let r := m.cpu.regs
    let sum ← addWords? r.hl (r.pair src) (r.flag .zero)
    some (8, m.mapRegs fun r => (r.setFlags sum.flags).setHL sum.value)
  | .arith op src => do
    let (value, m) := m.load src
    let r ← op.result? m.cpu.regs.a value (m.cpu.regs.flag .carry)
    some (4 + src.extraCycles 4, m.accept r)
  | .arithByte op value => do
    let r ← op.result? m.cpu.regs.a value (m.cpu.regs.flag .carry)
    some (8, m.accept r)
  | .testBit bit src => do
    let (value, m) := m.load src
    let mask ← bitMask? bit
    some (8 + src.extraCycles 4, m.mapRegs fun r => r.setFlags
      { zero := value &&& mask == 0, subtract := false, halfCarry := true, carry := r.flag .carry })
  | .clearBit bit dst => do
    let (value, m) := m.load dst
    let mask ← bitMask? bit
    some (8 + dst.extraCycles 8, m.store dst (value &&& ~~~mask))
  | .setBit bit dst => do
    let (value, m) := m.load dst
    let mask ← bitMask? bit
    some (8 + dst.extraCycles 8, m.store dst (value ||| mask))
  | instr => some (m.execute instr)

/-- Service one line. -/
def service? (m : Core σ) (line : LineSet) : Option (Core σ) := do
  let m := { m with cpu := m.cpu.disableInterrupts }
  let (request, m) := m.read requestAddress
  let m := m.write requestAddress (request &&& ~~~line.bits)
  let target := returnAddress m.cpu
  let m := { m with cpu.haltBug := false }
  let vector ← line.vector?
  let m := (m.push target).jumpTo vector
  some (m.tell (.interruptTaken line vector target m.cpu.regs.sp))

/-- Fetch and execute one instruction. -/
def runInstruction? (m : Core σ) : Option (Except Fault Report × Core σ) :=
  match m.fetch with
  | (.error fault, m) => some (.error fault, m.lock fault)
  | (.ok instr, m) => do
    let (cycles, m) ← m.execute? instr
    some (.ok ⟨cycles, .executed instr⟩, { m with cpu := m.cpu.settleEnable })

/-- A step that is not stopped. -/
def stepAwake? (m : Core σ) : Option (Except Fault Report × Core σ) :=
  match m.poll with
  | (some line, m) => do
    let m ← m.service? line
    some (.ok ⟨20, .serviced line⟩, m)
  | (none, m) => if m.cpu.halted then some (.ok ⟨4, .idle⟩, m) else m.runInstruction?

/-- One step. -/
def step? (m : Core σ) : Option (Except Fault Report × Core σ) :=
  match m.cpu.fault with
  | some fault => some (.error fault, m)
  | none =>
    if m.cpu.stopped then
      let (wake, m) := m.takeWake
      if wake then stepAwake? { m.tell .leftStop with cpu.stopped := false }
      else some (.ok ⟨4, .idle⟩, m)
    else m.stepAwake?

theorem execute?_eq (m : Core σ) (instr : Instr) : m.execute? instr = some (m.execute instr) := by
  cases instr with
  | loadHLFromSP offset | addSP offset =>
      simp only [execute?, addOffset?_eq, Option.bind_eq_bind, Option.bind_some]
      rfl
  | addHL src =>
      simp only [execute?, addWords?_eq, Option.bind_eq_bind, Option.bind_some]
      rfl
  | arith op src | arithByte op value =>
      simp only [execute?, Arith.result?_eq, Option.bind_eq_bind, Option.bind_some]
      rfl
  | testBit bit src | clearBit bit dst | setBit bit dst =>
      simp only [execute?, bitMask?_eq, Option.bind_eq_bind, Option.bind_some]
      rfl
  | _ => rfl

theorem service?_eq (m : Core σ) (line : LineSet) : m.service? line = some (m.service line) := by
  simp only [service?, LineSet.vector?_eq, Option.bind_eq_bind, Option.bind_some]
  rfl

theorem runInstruction?_eq (m : Core σ) : m.runInstruction? = some m.runInstruction := by
  unfold runInstruction? runInstruction
  rcases m.fetch with ⟨_ | instr, m⟩
  · rfl
  · simp only [execute?_eq, Option.bind_eq_bind, Option.bind_some]

theorem stepAwake?_eq (m : Core σ) : m.stepAwake? = some m.stepAwake := by
  unfold stepAwake? stepAwake
  rcases m.poll with ⟨_ | line, m⟩
  · dsimp only
    rw [runInstruction?_eq, apply_ite some]
  · simp only [service?_eq, Option.bind_eq_bind, Option.bind_some]

/-- No arithmetic of the processor leaves its width, in whatever state it is. -/
theorem step?_eq (m : Core σ) : m.step? = some m.step := by
  unfold step? step
  cases m.cpu.fault with
  | some fault => rfl
  | none =>
      dsimp only
      simp only [stepAwake?_eq, apply_ite some]

end Handheld.Core
