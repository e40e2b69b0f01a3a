/-
Module: Handheld.Proofs.Processor.Control
Purpose: What a processor knows besides its registers: whether it waits, whether it has locked up,
  and what is to become of interrupts. Five instructions change it, a fetch only uses up a repeated
  one, and everything else leaves it alone.
Main exports: Processor.control, Processor.stall, Instr.control, Core.control_fetch,
  Core.control_execute, Core.control_poll
-/
import Handheld.Proofs.Processor.StepDialogue

namespace Handheld

/-- The processor with its registers put aside. -/
def Processor.control (p : Processor) : Processor :=
  { p with regs := bootRegisters }

/-- What can keep a processor from executing: a fault, HALT and STOP. -/
def Processor.stall (p : Processor) : Option Fault × Bool × Bool :=
  (p.fault, p.halted, p.stopped)

/-- What an instruction does to a processor besides its registers. HALT asks whether a line is
    due. -/
def Instr.control (due : Bool) (p : Processor) : Instr → Processor
  | .halt => if !p.ime && due then { p with haltBug := true } else { p with halted := true }
  | .stop => { p with stopped := true, halted := false }
  | .disableInterrupts => p.disableInterrupts
  | .enableInterrupts => { p with enablePending := true }
  | .retEnable => { p.disableInterrupts with ime := true }
  | _ => p

namespace Core

/-! ### Parts of a step that change registers at most -/

variable {σ : Type}

@[simp] theorem control_mapRegs (m : Core σ) (f : Registers → Registers) :
    (m.mapRegs f).cpu.control = m.cpu.control := rfl

@[simp] theorem control_jumpTo (m : Core σ) (target : UInt16) :
    (m.jumpTo target).cpu.control = m.cpu.control := rfl

@[simp] theorem control_resolve (m : Core σ) (place : Address) :
    (m.resolve place).2.cpu.control = m.cpu.control := by
  cases place <;> rfl

@[simp] theorem control_accept (m : Core σ) (r : ByteResult) :
    (m.accept r).cpu.control = m.cpu.control := rfl

variable [Bus σ]

@[simp] theorem control_read (m : Core σ) (place : UInt16) :
    (m.read place).2.cpu.control = m.cpu.control := rfl

@[simp] theorem control_write (m : Core σ) (place : UInt16) (value : UInt8) :
    (m.write place value).cpu.control = m.cpu.control := rfl

@[simp] theorem control_tell (m : Core σ) (note : Note) :
    (m.tell note).cpu.control = m.cpu.control := rfl

@[simp] theorem control_takeWake (m : Core σ) : m.takeWake.2.cpu.control = m.cpu.control := rfl

@[simp] theorem control_load (m : Core σ) (src : Operand) :
    (m.load src).2.cpu.control = m.cpu.control := by
  cases src <;> rfl

@[simp] theorem control_store (m : Core σ) (dst : Operand) (value : UInt8) :
    (m.store dst value).cpu.control = m.cpu.control := by
  cases dst <;> rfl

@[simp] theorem control_modify (m : Core σ) (dst : Operand) (f : UInt8 → Bool → ByteResult) :
    (m.modify dst f).cpu.control = m.cpu.control := by
  cases dst <;> rfl

@[simp] theorem control_push (m : Core σ) (value : UInt16) :
    (m.push value).cpu.control = m.cpu.control := rfl

@[simp] theorem control_pop (m : Core σ) : m.pop.2.cpu.control = m.cpu.control := rfl

/-! ### Fetches -/

@[simp] theorem control_fetchByte (m : Core σ) :
    m.fetchByte.2.cpu.control = { m.cpu.control with haltBug := false } := by
  unfold fetchByte
  dsimp only
  split
  · rfl
  · next hbug =>
    have hclear : m.cpu.control.haltBug = false := (Bool.not_eq_true _).mp hbug
    rw [← hclear]
    rfl

@[simp] theorem control_fetchWord (m : Core σ) :
    m.fetchWord.2.cpu.control = { m.cpu.control with haltBug := false } := by
  have h : m.fetchWord.2 = m.fetchByte.2.fetchByte.2 := rfl
  rw [h, control_fetchByte, control_fetchByte]

theorem control_complete (opcode : UInt8) {m : Core σ} (h : m.cpu.control.haltBug = false) :
    (complete opcode m).2.cpu.control = m.cpu.control := by
  have hsame : { m.cpu.control with haltBug := false } = m.cpu.control := by
    rw [← h]
  unfold complete
  split <;> simp [hsame]

/-- A fetch uses up a repeated one that was still to come. -/
@[simp] theorem control_fetch (m : Core σ) :
    m.fetch.2.cpu.control = { m.cpu.control with haltBug := false } := by
  have hclear : m.fetchByte.2.cpu.control.haltBug = false := by
    rw [control_fetchByte]
  rw [fetch_eq, control_complete _ hclear, control_fetchByte]

/-! ### Instructions -/

theorem cpu_pendingLines (m : Core σ) : m.pendingLines.2.cpu = m.cpu := rfl

theorem control_halt (m : Core σ) : m.halt.cpu.control =
    Instr.control (m.pendingLines.1.bits != 0) m.cpu.control .halt := by
  cases hime : m.cpu.ime with
  | true => simp [halt, Instr.control, Processor.control, hime]
  | false =>
      by_cases hnone : m.pendingLines.1.bits = 0
      · simp [halt, Instr.control, Processor.control, cpu_pendingLines, hime, hnone]
      · simp [halt, Instr.control, Processor.control, cpu_pendingLines, hime, hnone]

/-- Besides registers, executing an instruction changes what the instruction says. -/
theorem control_execute (m : Core σ) (instr : Instr) : (m.execute instr).2.cpu.control =
    instr.control (m.pendingLines.1.bits != 0) m.cpu.control := by
  cases instr with
  | halt => exact m.control_halt
  | ret condition =>
      cases condition with
      | none => rfl
      | some condition =>
          simp only [execute, Instr.control]
          split <;> rfl
  | jump condition target =>
      simp only [execute, Instr.control]
      split <;> rfl
  | jumpRelative condition offset =>
      simp only [execute, Instr.control]
      split <;> rfl
  | call condition target =>
      simp only [execute, Instr.control]
      split <;> rfl
  | stop | disableInterrupts | enableInterrupts | retEnable => rfl
  | _ => simp [execute, Instr.control]

theorem stall_settleEnable (p : Processor) : p.settleEnable.stall = p.stall := by
  unfold Processor.settleEnable
  split
  · rfl
  · split <;> rfl

/-! ### The look for a pending line -/

/-- A pending line ends HALT. -/
theorem control_poll (m : Core σ) : m.poll.2.cpu.control =
    { m.cpu.control with halted := m.cpu.halted && m.pendingLines.1.bits == 0 } := by
  unfold poll
  dsimp only
  split
  · next hnone =>
    rw [hnone]
    simp only [beq_self_eq_true, Bool.and_true]
    rfl
  · next hsome =>
    rw [beq_false_of_ne hsome, Bool.and_false]
    rfl

end Core

end Handheld
