/-
Module: Handheld.Processor.Step
Purpose: One step of the processor: an instruction, the servicing of an interrupt, or four cycles of
  waiting in HALT or STOP.
Main exports: Activity, Report, Core.fetch, Core.service, Core.step
-/
import Handheld.Processor.Decode
import Handheld.Processor.Execute

namespace Handheld

/-- What a step has done. -/
inductive Activity where
  /-- Nothing: the processor waits in HALT or STOP. -/
  | idle
  /-- The line has been serviced. -/
  | serviced (line : LineSet)
  | executed (instr : Instr)
deriving DecidableEq, Repr

/-- The account of a step that did not fail. -/
structure Report where
  /-- Clock cycles by which the rest of the machine has to follow. -/
  cycles : Nat
  activity : Activity
deriving DecidableEq, Repr

namespace Core

variable {σ : Type} [Bus σ]

/-- Fetch an instruction with all its immediate bytes. An opcode without an instruction is a fault,
    placed one below the program counter that its fetch has left. -/
def fetch (m : Core σ) : Except Fault Instr × Core σ :=
  let (opcode, m) := m.fetchByte
  match decode opcode with
  | .complete instr => (.ok instr, m)
  | .withByte instr =>
    let (value, m) := m.fetchByte
    (.ok (instr value), m)
  | .withWord instr =>
    let (value, m) := m.fetchWord
    (.ok (instr value), m)
  | .extended =>
    let (code, m) := m.fetchByte
    (.ok (decodeExtended code), m)
  | .illegal => (.error ⟨opcode, m.cpu.regs.pc - 1⟩, m)

/-- Lock up on a fault. -/
def lock (m : Core σ) (fault : Fault) : Core σ :=
  let r := m.cpu.regs
  let m := m.tell (.locked fault r.sp r.af r.bc r.de r.hl)
  { m with cpu.fault := some fault }

/-- The address to which the handler of an interrupt returns. While a HALT that did not halt still
    waits for its second fetch, that is the HALT itself. -/
def returnAddress (cpu : Processor) : UInt16 :=
  if cpu.haltBug then cpu.regs.pc - 1 else cpu.regs.pc

/-- Service one line: turn interrupts off, withdraw the request, push the return address and go to
    the handler. -/
def service (m : Core σ) (line : LineSet) : Core σ :=
  let m := { m with cpu := m.cpu.disableInterrupts }
  let (request, m) := m.read requestAddress
  let m := m.write requestAddress (request &&& ~~~line.bits)
  let target := returnAddress m.cpu
  let m := { m with cpu.haltBug := false }
  let m := (m.push target).jumpTo line.vector
  m.tell (.interruptTaken line line.vector target m.cpu.regs.sp)

/-- Look for a pending line. Any pending line ends HALT; the most urgent one is returned if
    interrupts are on. -/
def poll (m : Core σ) : Option LineSet × Core σ :=
  let (lines, m) := m.pendingLines
  if lines.bits = 0 then (none, m)
  else
    let m := { m with cpu.halted := false }
    (if m.cpu.ime then lines.highest? else none, m)

/-- Fetch and execute one instruction. -/
def runInstruction (m : Core σ) : Except Fault Report × Core σ :=
  match m.fetch with
  | (.error fault, m) => (.error fault, m.lock fault)
  | (.ok instr, m) =>
    let (cycles, m) := m.execute instr
    (.ok ⟨cycles, .executed instr⟩, { m with cpu := m.cpu.settleEnable })

/-- A step of a processor that is neither locked nor stopped. -/
def stepAwake (m : Core σ) : Except Fault Report × Core σ :=
  match m.poll with
  | (some line, m) => (.ok ⟨20, .serviced line⟩, m.service line)
  | (none, m) =>
    if m.cpu.halted then (.ok ⟨4, .idle⟩, m) else m.runInstruction

/-- One step. A processor that has locked up reports the same fault for ever, and one that has
    stopped waits until the bus asks it to wake. -/
def step (m : Core σ) : Except Fault Report × Core σ :=
  match m.cpu.fault with
  | some fault => (.error fault, m)
  | none =>
    if m.cpu.stopped then
      let (wake, m) := m.takeWake
      if wake then stepAwake { m.tell .leftStop with cpu.stopped := false }
      else (.ok ⟨4, .idle⟩, m)
    else m.stepAwake

end Core

end Handheld
