/-
Module: Handheld.Proofs.Processor.FlagNibble
Purpose: F holds the four flags and nothing else. Whatever a step does, on any bus and with any
  bytes that it reads, the lower nibble of F stays clear if it was clear, and it is clear at
  power-on. So PUSH AF stores the two registers as they are.
Main exports: Registers.unused, Core.unused_execute, Core.unused_step, Processor.Course,
  Processor.Course.unused_eq, flagNibble_clear
-/
import Handheld.Proofs.Processor.RegisterFrame

namespace Handheld

/-- The bits of F that stand for no flag. -/
def Registers.unused (r : Registers) : UInt8 :=
  r.f &&& 0x0F

namespace Registers

variable (r : Registers)

/-! ### Register files -/

@[simp] theorem unused_set (reg : Reg) (value : UInt8) : (r.set reg value).unused = r.unused := by
  cases reg <;> rfl

@[simp] theorem unused_setPair (pair : Pair) (value : UInt16) :
    (r.setPair pair value).unused = r.unused := by
  cases pair <;> rfl

@[simp] theorem unused_setFlags (flags : Flags) : (r.setFlags flags).unused = 0 :=
  flags.unused_toByte

@[simp] theorem unused_setFlag (flag : Flag) (value : Bool) :
    (r.setFlag flag value).unused = r.unused :=
  (r.framed_setFlag flag value).unused_eq

/-- Of a popped word the lower nibble is dropped. -/
theorem unused_setStackPair {r : Registers} (h : r.unused = 0) (pair : StackPair) (value : UInt16) :
    (r.setStackPair pair value).unused = 0 := by
  cases pair with
  | af => exact (r.framed_setAF value).unused_eq
  | bc | de | hl => exact h

end Registers

namespace Core

/-! ### Parts of an execution -/

section

variable {σ : Type}

theorem unused_accept (m : Core σ) (result : ByteResult) :
    (m.accept result).cpu.regs.unused = 0 :=
  result.flags.unused_toByte

theorem unused_resolve (m : Core σ) (place : Address) :
    (m.resolve place).2.cpu.regs.unused = m.cpu.regs.unused := by
  cases place <;> rfl

variable [Bus σ]

theorem unused_load (m : Core σ) (src : Operand) :
    (m.load src).2.cpu.regs.unused = m.cpu.regs.unused := by
  cases src <;> rfl

theorem unused_store (m : Core σ) (dst : Operand) (value : UInt8) :
    (m.store dst value).cpu.regs.unused = m.cpu.regs.unused := by
  cases dst with
  | reg r => exact m.cpu.regs.unused_set r value
  | atHL => rfl

theorem unused_modify (m : Core σ) (dst : Operand) (f : UInt8 → Bool → ByteResult) :
    (m.modify dst f).cpu.regs.unused = 0 := by
  unfold modify
  dsimp only
  rw [unused_store]
  exact Registers.unused_setFlags _ _

theorem unused_service (m : Core σ) (lines : LineSet) :
    (m.service lines).cpu.regs.unused = m.cpu.regs.unused := rfl

theorem unused_halt (m : Core σ) : m.halt.cpu.regs.unused = m.cpu.regs.unused := by
  unfold halt
  split
  · rfl
  · dsimp only
    split <;> rfl

end

variable {σ : Type} [Bus σ] {m : Core σ}

/-! ### Instructions -/

/-- Every instruction writes F as a byte of flags, flag by flag, or not at all. -/
theorem unused_execute (h : m.cpu.regs.unused = 0) (instr : Instr) :
    (m.execute instr).2.cpu.regs.unused = 0 := by
  cases instr with
  | nop | stop | disableInterrupts | enableInterrupts | storeSP | loadSPFromHL | push | jumpHL
  | retEnable | restart => exact h
  | halt => exact m.unused_halt.trans h
  | load dst src | clearBit bit src | setBit bit src =>
      exact ((m.load src).2.unused_store _ _).trans ((m.unused_load src).trans h)
  | loadByte dst value => exact (m.unused_store dst value).trans h
  | loadA place | storeA place => exact (m.unused_resolve place).trans h
  | loadWord dst | incWord dst | decWord dst => exact (m.cpu.regs.unused_setPair dst _).trans h
  | pop dst => exact Registers.unused_setStackPair (r := m.pop.2.cpu.regs) h dst m.pop.1
  | arith op src => exact unused_accept _ _
  | arithByte | decimalAdjust => exact unused_accept _ _
  | inc dst | dec dst | shift op dst => exact m.unused_modify dst _
  | loadHLFromSP | addHL | addSP => exact Registers.unused_setFlags m.cpu.regs _
  | testBit bit src => exact Registers.unused_setFlags (m.load src).2.cpu.regs _
  | complement =>
      exact (Registers.unused_setFlag _ _ _).trans ((Registers.unused_setFlag _ _ _).trans h)
  | setCarry | flipCarry =>
      exact (Registers.unused_setFlag _ _ _).trans
        ((Registers.unused_setFlag _ _ _).trans ((Registers.unused_setFlag _ _ _).trans h))
  | rotateA op => exact (Registers.unused_setFlag _ _ _).trans (m.unused_accept _)
  | jump | jumpRelative | call =>
      simp only [execute]
      split <;> exact h
  | ret condition =>
      cases condition with
      | none => exact h
      | some condition =>
          simp only [execute]
          split <;> exact h

/-! ### Steps -/

theorem regs_fetchByte (m : Core σ) : ∃ pc, m.fetchByte.2.cpu.regs = { m.cpu.regs with pc } := by
  unfold fetchByte
  dsimp only
  split
  · exact ⟨m.cpu.regs.pc, rfl⟩
  · exact ⟨m.cpu.regs.pc + 1, rfl⟩

theorem regs_fetchWord (m : Core σ) : ∃ pc, m.fetchWord.2.cpu.regs = { m.cpu.regs with pc } := by
  obtain ⟨_, hfirst⟩ := m.regs_fetchByte
  obtain ⟨pc, hsecond⟩ := m.fetchByte.2.regs_fetchByte
  refine ⟨pc, hsecond.trans ?_⟩
  rw [hfirst]

/-- Of the registers a fetch changes the program counter alone. -/
theorem regs_fetch (m : Core σ) : ∃ pc, m.fetch.2.cpu.regs = { m.cpu.regs with pc } := by
  obtain ⟨start, hopcode⟩ := m.regs_fetchByte
  obtain ⟨next, hbyte⟩ := m.fetchByte.2.regs_fetchByte
  obtain ⟨last, hword⟩ := m.fetchByte.2.regs_fetchWord
  rw [hopcode] at hbyte hword
  rw [fetch_eq]
  unfold complete
  split
  · exact ⟨start, hopcode⟩
  · exact ⟨next, hbyte⟩
  · exact ⟨last, hword⟩
  · exact ⟨next, hbyte⟩
  · exact ⟨start, hopcode⟩

theorem regs_of_awake {awake : Core σ} (h : Awake m awake) : awake.cpu.regs = m.cpu.regs := by
  cases h <;> rfl

/-- What a step finds in the registers when it comes to fetch an instruction. -/
theorem regs_fetched {awake : Core σ} (h : Awake m awake) :
    ∃ pc, awake.poll.2.fetch.2.cpu.regs = { m.cpu.regs with pc } := by
  obtain ⟨pc, hfetch⟩ := awake.poll.2.regs_fetch
  rw [regs_poll, regs_of_awake h] at hfetch
  exact ⟨pc, hfetch⟩

/-- What one step preserves, whether it fails or not. -/
theorem unused_step (h : m.cpu.regs.unused = 0) : m.step.2.cpu.regs.unused = 0 := by
  cases hstep : m.step with
  | mk result m' =>
      cases result with
      | error fault =>
          cases failure_step hstep with
          | again hfault => exact h
          | fetched hawake hline hfetch =>
              obtain ⟨pc, hregs⟩ := regs_fetched hawake
              rw [hfetch] at hregs
              exact (congrArg Registers.unused hregs).trans h
      | ok report =>
          cases outcome_step hstep with
          | stopped hstopped hwake => exact h
          | @halted awake hawake hline hhalted =>
              rw [regs_poll, regs_of_awake hawake]
              exact h
          | @serviced awake line hawake hline =>
              rw [unused_service, regs_poll, regs_of_awake hawake, h]
          | @executed awake fetched instr hawake hline hfetch =>
              obtain ⟨pc, hregs⟩ := regs_fetched hawake
              rw [hfetch] at hregs
              have hbefore : fetched.cpu.regs.unused = 0 :=
                (congrArg Registers.unused hregs).trans h
              have hsettle := (fetched.execute instr).2.cpu.regs_settleEnable
              exact (congrArg Registers.unused hsettle).trans (unused_execute hbefore instr)

/-! ### Storing A and F -/

theorem and_flags_of_unused {r : Registers} (h : r.unused = 0) : r.f &&& 0xF0 = r.f := by
  have hnone : r.f.toBitVec &&& 0x0F#8 = 0#8 := congrArg UInt8.toBitVec h
  apply UInt8.toBitVec_inj.mp
  calc r.f.toBitVec &&& 0xF0#8
    _ = (r.f.toBitVec &&& 0xF0#8) ||| (r.f.toBitVec &&& 0x0F#8) := by rw [hnone, BitVec.or_zero]
    _ = r.f.toBitVec &&& (0xF0#8 ||| 0x0F#8) := BitVec.and_or_distrib_left.symm
    _ = r.f.toBitVec := BitVec.and_allOnes

/-- A step that executes PUSH AF stores A and below it F, as they are. -/
theorem bus_of_pushAF {m' : Core σ} {report : Report} (h : m.cpu.regs.unused = 0)
    (hstep : m.step = (.ok report, m')) (hpush : report.activity = .executed (.push .af)) :
    ∃ awake fetched : Core σ, Awake m awake ∧ awake.poll.2.fetch = (.ok (.push .af), fetched) ∧
      m'.bus = Bus.write (Bus.write fetched.bus (m.cpu.regs.sp - 1) m.cpu.regs.a)
        (m.cpu.regs.sp - 2) m.cpu.regs.f := by
  obtain ⟨awake, fetched, hawake, -, hfetch, rfl⟩ := (outcome_step hstep).executed_inv hpush
  obtain ⟨pc, hregs⟩ := regs_fetched hawake
  rw [hfetch] at hregs
  have htwo : m.cpu.regs.sp - 2 = m.cpu.regs.sp - 1 - 1 := by grind
  have hstored : (fetched.execute (.push .af)).2.bus =
      Bus.write (Bus.write fetched.bus (fetched.cpu.regs.sp - 1) (highByte fetched.cpu.regs.af))
        (fetched.cpu.regs.sp - 1 - 1) (lowByte fetched.cpu.regs.af) := rfl
  refine ⟨awake, fetched, hawake, hfetch, ?_⟩
  dsimp only
  rw [hstored, hregs, htwo, Registers.af, highByte_joinBytes, lowByte_joinBytes,
    and_flags_of_unused h]

end Core

/-! ### Runs -/

/-- From the state `p` the processor comes to `q` by steps, which may fail, and by resets. Between
    two steps the bus may change in any way, as it does on a console. -/
inductive Processor.Course (σ : Type) [Bus σ] (p : Processor) : Processor → Prop where
  | start : Course σ p p
  | step {q : Processor} (before : Course σ p q) (bus : σ) :
      Course σ p (Core.step ⟨q, bus⟩).2.cpu
  | reset {q : Processor} (before : Course σ p q) : Course σ p .boot

/-- What a whole run preserves. -/
theorem Processor.Course.unused_eq {σ : Type} [Bus σ] {p q : Processor} (hcourse : Course σ p q)
    (h : p.regs.unused = 0) : q.regs.unused = 0 := by
  induction hcourse with
  | start => exact h
  | @step q before bus ih => exact Core.unused_step (m := ⟨q, bus⟩) ih
  | reset before ih => decide

/-- The lower nibble of F, on every bus. A step that finds it clear leaves it clear, whatever the
    step does and whether it fails or not; it is clear in every run from power-on, with resets in
    between; and so PUSH AF stores A and F exactly as they are, A at the higher address. -/
theorem flagNibble_clear {σ : Type} [Bus σ] :
    (∀ m : Core σ, m.cpu.regs.f &&& 0x0F = 0 → m.step.2.cpu.regs.f &&& 0x0F = 0) ∧
    (∀ q : Processor, Processor.Course σ .boot q → q.regs.f &&& 0x0F = 0) ∧
    (∀ (m m' : Core σ) (report : Report), m.cpu.regs.f &&& 0x0F = 0 →
      m.step = (.ok report, m') → report.activity = .executed (.push .af) →
      ∃ awake fetched : Core σ, Core.Awake m awake ∧
        awake.poll.2.fetch = (.ok (.push .af), fetched) ∧
        m'.bus = Bus.write (Bus.write fetched.bus (m.cpu.regs.sp - 1) m.cpu.regs.a)
          (m.cpu.regs.sp - 2) m.cpu.regs.f) := by
  refine ⟨?step, ?run, ?push⟩
  case step => exact fun m h => Core.unused_step h
  case run => exact fun q hcourse => hcourse.unused_eq (by decide)
  case push => exact fun m m' report h hstep hpush => Core.bus_of_pushAF h hstep hpush

/-- About to execute PUSH AF at the start of work RAM, with all flags set. -/
def savingFlags : Core FlatMemory where
  cpu := { regs := { a := 0x12, f := 0xF0, sp := 0xD002, pc := 0xC000 } }
  bus := ({} : FlatMemory).set 0xC000 0xF5

theorem step_savingFlags : savingFlags.step.1 = .ok ⟨16, .executed (.push .af)⟩ := by
  have hbyte (address : UInt16) : savingFlags.bus.get address =
      if address = 0xC000 then 0xF5 else 0 := by
    rw [savingFlags, FlatMemory.get_set, FlatMemory.get_blank]
  have hquiet : savingFlags.bus.get enableAddress &&& savingFlags.bus.get requestAddress &&& 0x1F =
      0 := by
    rw [hbyte, hbyte]
    rfl
  have hopcode : decode (savingFlags.bus.get savingFlags.cpu.regs.pc) = .complete (.push .af) := by
    rw [hbyte]
    rfl
  exact congrArg Prod.fst (Core.step_flat rfl rfl rfl rfl hquiet hopcode)

theorem flagNibble_clear_savingFlags :
    (savingFlags.cpu.regs.f &&& 0x0F = 0 ∧ savingFlags.step.2.cpu.regs.f &&& 0x0F = 0) ∧
    (Processor.Course FlatMemory .boot (Core.step ⟨.boot, savingFlags.bus⟩).2.cpu ∧
      (Core.step ⟨.boot, savingFlags.bus⟩).2.cpu.regs.f &&& 0x0F = 0) ∧
    ∃ m' report, savingFlags.step = (.ok report, m') ∧
      report.activity = .executed (.push .af) ∧
      ∃ awake fetched, Core.Awake savingFlags awake ∧
        awake.poll.2.fetch = (.ok (.push .af), fetched) ∧
        m'.bus = Bus.write (Bus.write fetched.bus 0xD001 0x12) 0xD000 0xF0 := by
  have hclear : savingFlags.cpu.regs.f &&& 0x0F = 0 := rfl
  have hcourse : Processor.Course FlatMemory .boot (Core.step ⟨.boot, savingFlags.bus⟩).2.cpu :=
    Processor.Course.start.step savingFlags.bus
  obtain ⟨hstep, hrun, hpush⟩ := flagNibble_clear (σ := FlatMemory)
  obtain ⟨m', hpushed⟩ := Core.exists_step_of_fst step_savingFlags
  exact ⟨⟨hclear, hstep savingFlags hclear⟩, ⟨hcourse, hrun _ hcourse⟩, m', _, hpushed, rfl,
    hpush savingFlags m' _ hclear hpushed rfl⟩

end Handheld
