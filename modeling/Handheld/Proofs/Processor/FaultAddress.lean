/-
Module: Handheld.Proofs.Processor.FaultAddress
Purpose: Which byte a fault is about, and where the fault places it. The step that locks the
  processor up reads the offending byte last, at the program counter. The fault always names that
  byte, and it names its address unless the byte is the one that a HALT that did not halt makes the
  processor read twice: then the address is one too low.
Main exports: Recorded, Core.bytesRead, Core.fetch_error, Core.fault_address_iff,
  Core.fault_address_below_byte
-/
import Handheld.Proofs.Processor.Latch
import Handheld.Proofs.Processor.Outcome
import Handheld.Proofs.Processor.RepeatedFetch

namespace Handheld

/-- A machine with a record of the bytes that have been read from it and of their addresses, the
    latest first. -/
structure Recorded (σ : Type) where
  bus : σ
  reads : List (UInt16 × UInt8) := []

instance {σ : Type} [Bus σ] : Bus (Recorded σ) where
  read r address :=
    let (value, bus) := Bus.read r.bus address
    (value, ⟨bus, (address, value) :: r.reads⟩)
  write r address value := { r with bus := Bus.write r.bus address value }
  takeWake r :=
    let (wake, bus) := Bus.takeWake r.bus
    (wake, { r with bus })
  hear r note := { r with bus := Bus.hear r.bus note }

/-- A record changes no answer. -/
theorem Dialogue.run_recorded {α σ : Type} [Bus σ] (d : Dialogue α) (bus : σ)
    (reads : List (UInt16 × UInt8)) : (d.run (⟨bus, reads⟩ : Recorded σ)).1 = (d.run bus).1 := by
  induction d generalizing bus reads with
  | done result => rfl
  | read address next ih => exact ih _ _ _
  | write address value next ih => exact ih _ _
  | takeWake next ih => exact ih _ _ _
  | hear note next ih => exact ih _ _

namespace Core

variable {σ : Type} [Bus σ]

/-- The same state, with a record of what is read from here on. -/
def record (m : Core σ) : Core (Recorded σ) :=
  ⟨m.cpu, ⟨m.bus, []⟩⟩

/-- The bytes that a step reads and their addresses, in order. -/
def bytesRead (m : Core σ) : List (UInt16 × UInt8) :=
  m.record.step.2.bus.reads.reverse

theorem step_record (m : Core σ) : m.record.step.1 = m.step.1 := by
  obtain ⟨d, hrun⟩ := exists_dialogue_step m.cpu
  have hplain : m.step = d.runCore m.bus := hrun m.bus
  have hrecorded : m.record.step = d.runCore (⟨m.bus, []⟩ : Recorded σ) := hrun _
  rw [hplain, hrecorded]
  exact congrArg Prod.fst (d.run_recorded m.bus [])

/-! ### The parts of the step that locks up -/

/-- A fetch fails on its first byte, and the fault is made of that byte and of the program counter
    that it has left. -/
theorem fetch_error {m fetched : Core σ} {fault : Fault} (h : m.fetch = (.error fault, fetched)) :
    decode m.fetchByte.1 = .illegal ∧ fetched = m.fetchByte.2 ∧
      fault = ⟨m.fetchByte.1, m.fetchByte.2.cpu.regs.pc - 1⟩ := by
  rw [fetch_eq, complete] at h
  cases hform : decode m.fetchByte.1 with
  | illegal =>
      rw [hform] at h
      obtain ⟨hfault, hfetched⟩ := Prod.mk.inj h
      exact ⟨rfl, hfetched.symm, (Except.error.inj hfault).symm⟩
  | _ =>
      rw [hform] at h
      cases h

/-- Where the fault of a failed fetch places the byte. -/
theorem address_of_fetch_error {m fetched : Core σ} {fault : Fault}
    (h : m.fetch = (.error fault, fetched)) :
    fault.address = if m.cpu.haltBug then m.cpu.regs.pc - 1 else m.cpu.regs.pc := by
  obtain ⟨-, -, rfl⟩ := fetch_error h
  cases hbug : m.cpu.haltBug with
  | true => simp [fetchByte, read, hbug]
  | false => simp [fetchByte, read, mapRegs, hbug]

theorem regs_poll (m : Core σ) : m.poll.2.cpu.regs = m.cpu.regs := by
  unfold poll
  dsimp only
  split <;> rfl

theorem haltBug_poll (m : Core σ) : m.poll.2.cpu.haltBug = m.cpu.haltBug := by
  have hcontrol := congrArg Processor.haltBug m.control_poll
  exact hcontrol

variable {m awake : Core (Recorded σ)}

/-- A look for pending lines reads two bytes. -/
theorem reads_poll (m : Core (Recorded σ)) : ∃ enable request, m.poll.2.bus.reads =
    (requestAddress, request) :: (enableAddress, enable) :: m.bus.reads := by
  refine ⟨(m.read enableAddress).1, ((m.read enableAddress).2.read requestAddress).1, ?_⟩
  unfold poll
  dsimp only
  split <;> rfl

theorem reads_fetchByte (m : Core (Recorded σ)) :
    m.fetchByte.2.bus.reads = (m.cpu.regs.pc, m.fetchByte.1) :: m.bus.reads := by
  unfold fetchByte
  dsimp only
  split <;> rfl

theorem reads_of_awake (h : Awake m awake) :
    awake.bus.reads = m.bus.reads ∧ awake.cpu.regs = m.cpu.regs ∧
      awake.cpu.haltBug = m.cpu.haltBug := by
  cases h with
  | already => exact ⟨rfl, rfl, rfl⟩
  | woken => exact ⟨rfl, rfl, rfl⟩

/-! ### The step -/

/-- What a step that locks up has read: the two bytes that tell of pending lines, and the byte at
    the program counter, on which it fails. -/
theorem bytesRead_of_error {m m' : Core σ} {fault : Fault} (hunlocked : m.cpu.fault = none)
    (h : m.step = (.error fault, m')) :
    fault.opcode ∈ illegalOpcodes ∧
      fault.address = (if m.cpu.haltBug then m.cpu.regs.pc - 1 else m.cpu.regs.pc) ∧
        ∃ enable request, m.bytesRead = [(enableAddress, enable), (requestAddress, request),
          (m.cpu.regs.pc, fault.opcode)] := by
  have hrecorded : m.record.step = (.error fault, m.record.step.2) :=
    Prod.ext (m.step_record.trans (congrArg Prod.fst h)) rfl
  unfold bytesRead
  generalize m.record.step.2 = after at hrecorded ⊢
  cases failure_step hrecorded with
  | again hfault =>
      have hlocked : m.cpu.fault = some fault := hfault
      rw [hunlocked] at hlocked
      cases hlocked
  | @fetched awake fetched fault hawake hline hfetch =>
      obtain ⟨hreads, hregs, hbug⟩ := reads_of_awake hawake
      have hpc : awake.poll.2.cpu.regs.pc = m.cpu.regs.pc :=
        congrArg Registers.pc ((regs_poll awake).trans hregs)
      have haddress := address_of_fetch_error hfetch
      rw [haltBug_poll, hbug, hpc] at haddress
      obtain ⟨hillegal, rfl, rfl⟩ := fetch_error hfetch
      obtain ⟨enable, request, hpoll⟩ := reads_poll awake
      refine ⟨?_, haddress, enable, request, ?_⟩
      · by_contra hlegal
        rw [← isLegal_decode_iff, hillegal] at hlegal
        cases hlegal
      · -- locking up reads nothing more
        have hlock : (awake.poll.2.fetchByte.2.lock
            ⟨awake.poll.2.fetchByte.1, awake.poll.2.fetchByte.2.cpu.regs.pc - 1⟩).bus.reads =
              awake.poll.2.fetchByte.2.bus.reads := rfl
        rw [hlock, reads_fetchByte, hpoll, hreads, hpc]
        rfl

theorem sub_one_eq_self_iff (w : UInt16) (b : Bool) :
    (if b then w - 1 else w) = w ↔ b = false := by
  cases b with
  | false => exact iff_of_true rfl rfl
  | true => exact iff_of_false (sub_one_ne w) Bool.noConfusion

/-- The step that locks a processor up has read the byte that its fault names at the program
    counter, as the last and only byte of an instruction. The address that its fault names is the
    one that the byte was read at exactly if the byte did not have to be read twice; otherwise it is
    the address below. -/
theorem fault_address_iff {m m' : Core σ} {fault : Fault} (hunlocked : m.cpu.fault = none)
    (h : m.step = (.error fault, m')) :
    fault.opcode ∈ illegalOpcodes ∧
      (∃ enable request, m.bytesRead = [(enableAddress, enable), (requestAddress, request),
        (m.cpu.regs.pc, fault.opcode)]) ∧
      (m.bytesRead.getLast? = some (fault.address, fault.opcode) ↔ m.cpu.haltBug = false) ∧
      (m.cpu.haltBug = true → fault.address = m.cpu.regs.pc - 1) := by
  obtain ⟨hillegal, haddress, enable, request, hreads⟩ := bytesRead_of_error hunlocked h
  refine ⟨hillegal, ⟨enable, request, hreads⟩, ?_, ?_⟩
  · have hlast : m.bytesRead.getLast? = some (m.cpu.regs.pc, fault.opcode) := by
      rw [hreads]
      rfl
    rw [hlast, Option.some_inj, Prod.mk.injEq, and_iff_left rfl, eq_comm, haddress]
    exact sub_one_eq_self_iff _ _
  · intro hbug
    rw [haddress, if_pos hbug]

/-! ### Flat memory -/

/-- A look for pending lines comes to nothing while interrupts are off. -/
theorem poll_masked {p : Processor} (hime : p.ime = false) (hhalted : p.halted = false)
    (mem : FlatMemory) : poll ⟨p, mem⟩ = (none, ⟨p, mem⟩) := by
  have hline : (poll ⟨p, mem⟩).1 = none := by
    cases hfound : (poll ⟨p, mem⟩).1 with
    | none => rfl
    | some line =>
        have hon : p.ime = true := ime_of_poll hfound
        rw [hime] at hon
        cases hon
  exact Prod.ext hline (poll_flat p hhalted mem)

/-- The step of a processor without interrupts that waits for nothing, on a byte that is no
    instruction. -/
theorem step_hole {p : Processor} {mem : FlatMemory} (hfault : p.fault = none)
    (hstopped : p.stopped = false) (hhalted : p.halted = false) (hime : p.ime = false)
    (hdecode : decode (mem.get p.regs.pc) = .illegal) :
    (step ⟨p, mem⟩).1 =
      .error ⟨mem.get p.regs.pc, if p.haltBug then p.regs.pc - 1 else p.regs.pc⟩ := by
  have hbyte : (fetchByte ⟨p, mem⟩).1 = mem.get p.regs.pc := by
    unfold fetchByte
    dsimp only
    split <;> rfl
  have hfetch : fetch ⟨p, mem⟩ = (.error ⟨mem.get p.regs.pc,
      (fetchByte ⟨p, mem⟩).2.cpu.regs.pc - 1⟩, (fetchByte ⟨p, mem⟩).2) := by
    rw [fetch_eq, complete, hbyte, hdecode]
  have haddress := address_of_fetch_error hfetch
  dsimp only at haddress
  rw [step_running hfault hstopped (poll_masked hime hhalted mem) hhalted, hfetch, haddress]
  rfl

/-- HALT, while interrupts are off and a line is due. -/
theorem step_halt_due {p : Processor} {mem : FlatMemory} (hfault : p.fault = none)
    (hstopped : p.stopped = false) (hhalted : p.halted = false) (hime : p.ime = false)
    (hbug : p.haltBug = false) (hpending : p.enablePending = false) (hdelay : p.enableDelay = false)
    (hdecode : decode (mem.get p.regs.pc) = .complete .halt)
    (hdue : (pendingLines ⟨p, mem⟩).1.bits ≠ 0) :
    step ⟨p, mem⟩ = (.ok ⟨4, .executed .halt⟩,
      ⟨{ p with regs.pc := p.regs.pc + 1, haltBug := true }, mem⟩) := by
  have hbyte : fetchByte ⟨p, mem⟩ =
      (mem.get p.regs.pc, ⟨{ p with regs.pc := p.regs.pc + 1 }, mem⟩) := by
    simp [fetchByte, read, Bus.read, mapRegs, hbug]
  have hhalt : halt ⟨{ p with regs.pc := p.regs.pc + 1 }, mem⟩ =
      ⟨{ p with regs.pc := p.regs.pc + 1, haltBug := true }, mem⟩ := by
    unfold halt
    dsimp only
    rw [if_neg (by simp [hime])]
    exact if_neg hdue
  have hfetch : fetch ⟨p, mem⟩ = (.ok .halt, ⟨{ p with regs.pc := p.regs.pc + 1 }, mem⟩) := by
    rw [fetch_eq, hbyte, complete, hdecode]
  rw [step_executing hfault hstopped hhalted (poll_masked hime hhalted mem) hfetch, finish, execute,
    hhalt]
  simp [Processor.settleEnable, hpending, hdelay]

theorem exists_step_of_fst {m : Core FlatMemory} {result : Except Fault Report}
    (h : m.step.1 = result) : ∃ m', m.step = (result, m') :=
  ⟨m.step.2, Prod.ext h rfl⟩

/-- A memory with a byte that is no instruction at its very end. -/
def holeAtEnd : FlatMemory :=
  ({} : FlatMemory).set 0xFFFF 0xDD

/-- The fetch of the last byte of memory wraps the program counter, and the fault is placed back at
    the end. -/
theorem fault_address_iff_holeAtEnd :
    ∃ m', step ⟨{ regs := { pc := 0xFFFF } }, holeAtEnd⟩ = (.error ⟨0xDD, 0xFFFF⟩, m') ∧
      (bytesRead ⟨{ regs := { pc := 0xFFFF } }, holeAtEnd⟩).getLast? = some (0xFFFF, 0xDD) := by
  have hbyte : holeAtEnd.get 0xFFFF = 0xDD := FlatMemory.get_set_self _ _ _
  have hresult : (step ⟨{ regs := { pc := 0xFFFF } }, holeAtEnd⟩).1 = .error ⟨0xDD, 0xFFFF⟩ := by
    rw [step_hole rfl rfl rfl rfl (by rw [hbyte]; rfl), hbyte]
    rfl
  obtain ⟨m', hstep⟩ := exists_step_of_fst hresult
  obtain ⟨-, -, hlast, -⟩ := fault_address_iff rfl hstep
  exact ⟨m', hstep, hlast.mpr rfl⟩

/-- A memory with a HALT in front of a byte that is no instruction, and a line due. -/
def holeAfterHalt : FlatMemory :=
  (((({} : FlatMemory).set 0x0000 0x76).set 0x0001 0xD3).set enableAddress 1).set requestAddress 1

theorem get_holeAfterHalt (place : UInt16) : holeAfterHalt.get place =
    if place = requestAddress then 1 else if place = enableAddress then 1
    else if place = 0x0001 then 0xD3 else if place = 0x0000 then 0x76 else 0 := by
  rw [holeAfterHalt, FlatMemory.get_set, FlatMemory.get_set, FlatMemory.get_set,
    FlatMemory.get_set, FlatMemory.get_blank]

/-- The HALT does not halt, and the step after it locks up on the byte at 0x0001. Its fault is placed
    at 0x0000, where the HALT stands. -/
theorem fault_address_below_byte :
    ∃ m' m'', step ⟨{ regs := { pc := 0x0000 } }, holeAfterHalt⟩ =
        (.ok ⟨4, .executed .halt⟩, m') ∧ m'.cpu.fault = none ∧
      m'.step = (.error ⟨0xD3, 0x0000⟩, m'') ∧ m'.bytesRead.getLast? = some (0x0001, 0xD3) ∧
      m'.bus.get 0x0000 = 0x76 := by
  have hdue : (pendingLines ⟨{ regs := { pc := 0x0000 } }, holeAfterHalt⟩).1.bits ≠ 0 := by
    simp only [pendingLines, read, Bus.read]
    rw [get_holeAfterHalt, get_holeAfterHalt]
    decide
  have hdecode : decode (holeAfterHalt.get 0x0000) = .complete .halt := by
    rw [get_holeAfterHalt]
    rfl
  have hhalt := step_halt_due (p := { regs := { pc := 0x0000 } }) rfl rfl rfl rfl rfl rfl rfl hdecode
    hdue
  have hhole : (step ⟨{ regs := { pc := 0x0001 }, haltBug := true }, holeAfterHalt⟩).1 =
      .error ⟨0xD3, 0x0000⟩ := by
    rw [step_hole rfl rfl rfl rfl (by rw [get_holeAfterHalt]; rfl), get_holeAfterHalt]
    rfl
  obtain ⟨m'', hfault⟩ := exists_step_of_fst hhole
  obtain ⟨-, -, enable, request, hreads⟩ := bytesRead_of_error rfl hfault
  refine ⟨_, m'', hhalt, rfl, hfault, ?_, get_holeAfterHalt 0x0000⟩
  have hpc : (0x0000 : UInt16) + 1 = 0x0001 := rfl
  dsimp only
  rw [hpc, hreads]
  rfl

end Core

end Handheld
