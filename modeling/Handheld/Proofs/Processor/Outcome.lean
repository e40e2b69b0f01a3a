/-
Module: Handheld.Proofs.Processor.Outcome
Purpose: What a step can have done: waited, serviced a line, executed an instruction, or failed. How
  long a step that does not fail has taken follows from it; the longest is a call that is taken.
Main exports: Core.Awake, Core.Outcome, Core.Failure, Core.outcome_step, Core.failure_step,
  Core.bus_poll, Core.bus_fetch, Core.cycles_step_le
-/
import Handheld.Proofs.Processor.StepDialogue

namespace Handheld

namespace Core

variable {σ : Type} [Bus σ]

/-- The processor at which a step begins once it is known not to wait in STOP: the processor itself,
    or one that a button press has taken out of STOP. -/
inductive Awake (m : Core σ) : Core σ → Prop where
  | already (hstopped : m.cpu.stopped = false) : Awake m m
  | woken (hstopped : m.cpu.stopped = true) (hwake : m.takeWake.1 = true) :
      Awake m { m.takeWake.2.tell .leftStop with cpu.stopped := false }

/-- The outcomes of a step: the report and the machine after it. -/
inductive Outcome (m : Core σ) : Report → Core σ → Prop where
  | stopped (hstopped : m.cpu.stopped = true) (hwake : m.takeWake.1 = false) :
      Outcome m ⟨4, .idle⟩ m.takeWake.2
  | halted {awake : Core σ} (hawake : Awake m awake) (hline : awake.poll.1 = none)
      (hhalted : awake.poll.2.cpu.halted = true) : Outcome m ⟨4, .idle⟩ awake.poll.2
  | serviced {awake : Core σ} {line : LineSet} (hawake : Awake m awake)
      (hline : awake.poll.1 = some line) :
      Outcome m ⟨20, .serviced line⟩ (awake.poll.2.service line)
  | executed {awake fetched : Core σ} {instr : Instr} (hawake : Awake m awake)
      (hline : awake.poll.1 = none) (hfetch : awake.poll.2.fetch = (.ok instr, fetched)) :
      Outcome m ⟨(fetched.execute instr).1, .executed instr⟩
        { (fetched.execute instr).2 with cpu := (fetched.execute instr).2.cpu.settleEnable }

/-- How a step can fail: the processor had locked up before, or it has nothing else to do and
    fetches a byte that is no instruction. -/
inductive Failure (m : Core σ) : Fault → Core σ → Prop where
  | again {fault : Fault} (hfault : m.cpu.fault = some fault) : Failure m fault m
  | fetched {awake fetched : Core σ} {fault : Fault} (hawake : Awake m awake)
      (hline : awake.poll.1 = none) (hfetch : awake.poll.2.fetch = (.error fault, fetched)) :
      Failure m fault (fetched.lock fault)

/-- A step begins with a processor that has locked up, one that stays in STOP, or one that
    is awake. -/
theorem step_cases (m : Core σ) :
    (∃ fault, m.cpu.fault = some fault ∧ m.step = (.error fault, m)) ∨
      (m.cpu.stopped = true ∧ m.takeWake.1 = false ∧ m.step = (.ok ⟨4, .idle⟩, m.takeWake.2)) ∨
        ∃ awake, Awake m awake ∧ m.step = awake.stepAwake := by
  rw [step_eq]
  cases hfault : m.cpu.fault with
  | some fault => exact .inl ⟨fault, rfl, rfl⟩
  | none =>
      right
      dsimp only
      cases hstopped : m.cpu.stopped with
      | false => exact .inr ⟨m, .already hstopped, if_neg Bool.false_ne_true⟩
      | true =>
          rw [if_pos rfl]
          unfold resume
          cases hwake : m.takeWake.1 with
          | false => exact .inl ⟨rfl, rfl, if_neg Bool.false_ne_true⟩
          | true => exact .inr ⟨_, .woken hstopped hwake, if_pos rfl⟩

/-- A processor that is awake services a line, waits in HALT, or fetches an instruction. -/
theorem stepAwake_cases (m : Core σ) :
    (∃ line, m.poll.1 = some line ∧
        m.stepAwake = (.ok ⟨20, .serviced line⟩, m.poll.2.service line)) ∨
      m.poll.1 = none ∧ (m.poll.2.cpu.halted = true ∧ m.stepAwake = (.ok ⟨4, .idle⟩, m.poll.2) ∨
        m.stepAwake = finish m.poll.2.fetch.1 m.poll.2.fetch.2) := by
  rw [stepAwake_eq]
  cases m.poll.1 with
  | some line => exact .inl ⟨line, rfl, rfl⟩
  | none =>
      refine .inr ⟨rfl, ?_⟩
      unfold proceed
      dsimp only
      split
      · next hhalted => exact .inl ⟨hhalted, rfl⟩
      · exact .inr (runInstruction_eq _)

variable {m m' awake : Core σ} {report : Report} {fault : Fault}

theorem outcome_stepAwake (hawake : Awake m awake) (h : awake.stepAwake = (.ok report, m')) :
    Outcome m report m' := by
  rcases awake.stepAwake_cases with ⟨line, hline, hstep⟩ | ⟨hline, ⟨hhalted, hstep⟩ | hstep⟩
  · rw [hstep] at h
    cases h
    exact .serviced hawake hline
  · rw [hstep] at h
    cases h
    exact .halted hawake hline hhalted
  · rw [hstep] at h
    cases hfetch : awake.poll.2.fetch with
    | mk fetched after =>
        rw [hfetch] at h
        cases fetched with
        | error fault => cases h
        | ok instr =>
            cases h
            exact .executed hawake hline hfetch

theorem failure_stepAwake (hawake : Awake m awake) (h : awake.stepAwake = (.error fault, m')) :
    Failure m fault m' := by
  rcases awake.stepAwake_cases with ⟨line, hline, hstep⟩ | ⟨hline, ⟨hhalted, hstep⟩ | hstep⟩
  · rw [hstep] at h
    cases h
  · rw [hstep] at h
    cases h
  · rw [hstep] at h
    cases hfetch : awake.poll.2.fetch with
    | mk fetched after =>
        rw [hfetch] at h
        cases fetched with
        | error fault =>
            cases h
            exact .fetched hawake hline hfetch
        | ok instr => cases h

/-- Every step that does not fail has one of the outcomes. -/
theorem outcome_step (h : m.step = (.ok report, m')) : Outcome m report m' := by
  rcases m.step_cases with ⟨fault, -, hstep⟩ | ⟨hstopped, hwake, hstep⟩ | ⟨awake, hawake, hstep⟩
  · rw [hstep] at h
    cases h
  · rw [hstep] at h
    cases h
    exact .stopped hstopped hwake
  · exact outcome_stepAwake hawake (hstep.symm.trans h)

/-- Every step that fails does so in one of the two ways. -/
theorem failure_step (h : m.step = (.error fault, m')) : Failure m fault m' := by
  rcases m.step_cases with ⟨earlier, hfault, hstep⟩ | ⟨-, -, hstep⟩ | ⟨awake, hawake, hstep⟩
  · rw [hstep] at h
    cases h
    exact .again hfault
  · rw [hstep] at h
    cases h
  · exact failure_stepAwake hawake (hstep.symm.trans h)

/-- The fault is kept. -/
theorem Failure.locked (h : Failure m fault m') : m'.cpu.fault = some fault := by
  cases h with
  | again hfault => exact hfault
  | fetched => rfl

theorem fault_of_ok (h : m.step = (.ok report, m')) : m.cpu.fault = none := by
  cases hfault : m.cpu.fault with
  | none => rfl
  | some fault =>
      rw [step_eq, hfault] at h
      cases h

theorem fault_of_awake (h : Awake m awake) : awake.cpu.fault = m.cpu.fault := by
  cases h <;> rfl

theorem Outcome.serviced_inv {line : LineSet} (h : Outcome m report m')
    (hline : report.activity = .serviced line) :
    ∃ awake, Awake m awake ∧ awake.poll.1 = some line ∧ m' = awake.poll.2.service line := by
  cases h with
  | @serviced awake other hawake hpoll =>
      obtain rfl : other = line := Activity.serviced.inj hline
      exact ⟨awake, hawake, hpoll, rfl⟩
  | _ => cases hline

theorem Outcome.executed_inv {instr : Instr} (h : Outcome m report m')
    (hinstr : report.activity = .executed instr) :
    ∃ awake fetched, Awake m awake ∧ awake.poll.1 = none ∧
      awake.poll.2.fetch = (.ok instr, fetched) ∧
        m' = { (fetched.execute instr).2 with cpu := (fetched.execute instr).2.cpu.settleEnable } := by
  cases h with
  | @executed awake fetched other hawake hpoll hfetch =>
      obtain rfl : other = instr := Activity.executed.inj hinstr
      exact ⟨awake, fetched, hawake, hpoll, hfetch, rfl⟩
  | _ => cases hinstr

end Core

/-! ### Buses on which reading changes nothing -/

/-- Reading changes nothing on this bus. -/
def QuietReads (σ : Type) [Bus σ] : Prop :=
  ∀ (bus : σ) (address : UInt16), (Bus.read bus address).2 = bus

namespace Core

variable {σ : Type} [Bus σ]

/-- A look for pending lines leaves such a bus alone. -/
theorem bus_poll (hquiet : QuietReads σ) (m : Core σ) : m.poll.2.bus = m.bus := by
  have hlines : m.pendingLines.2.bus = m.bus := (hquiet _ requestAddress).trans (hquiet _ _)
  unfold poll
  dsimp only
  split <;> exact hlines

theorem bus_fetchByte (hquiet : QuietReads σ) (m : Core σ) : m.fetchByte.2.bus = m.bus := by
  unfold fetchByte
  dsimp only
  split <;> exact hquiet _ _

/-- So does a fetch. -/
theorem bus_fetch (hquiet : QuietReads σ) (m : Core σ) : m.fetch.2.bus = m.bus := by
  have hbyte := bus_fetchByte hquiet
  rw [fetch_eq]
  unfold complete
  cases decode m.fetchByte.1 with
  | complete instr => exact hbyte m
  | withByte instr => exact (hbyte _).trans (hbyte m)
  | withWord instr => exact ((hbyte _).trans (hbyte _)).trans (hbyte m)
  | extended => exact (hbyte _).trans (hbyte m)
  | illegal => exact hbyte m

end Core

/-! ### The length of a step -/

/-- The most cycles of a step. -/
def longestStep : Nat := 24

theorem Operand.extraCycles_le (cost : Nat) (o : Operand) : o.extraCycles cost ≤ cost := by
  cases o with
  | reg r => exact Nat.zero_le cost
  | atHL => exact Nat.le_refl cost

theorem Address.cycles_le (place : Address) : place.cycles ≤ 16 := by
  cases place <;> simp [cycles]

namespace Core

variable {σ : Type} [Bus σ]

theorem cycles_execute_le (m : Core σ) (instr : Instr) : (m.execute instr).1 ≤ longestStep := by
  unfold longestStep
  cases instr with
  | load dst src =>
      have hdst := dst.extraCycles_le 4
      have hsrc := src.extraCycles_le 4
      have hmax := Nat.max_le.mpr ⟨hdst, hsrc⟩
      simp only [execute]
      omega
  | loadByte o value | arith op o | testBit bit o =>
      have hextra := o.extraCycles_le 4
      simp only [execute]
      omega
  | inc o | dec o | shift op o | clearBit bit o | setBit bit o =>
      have hextra := o.extraCycles_le 8
      simp only [execute]
      omega
  | loadA place | storeA place =>
      have hplace := place.cycles_le
      simp only [execute]
      omega
  | jump condition target | jumpRelative condition target | call condition target =>
      simp only [execute]
      split <;> simp
  | ret condition =>
      cases condition with
      | none => simp [execute]
      | some condition =>
          simp only [execute]
          split <;> simp
  | _ => simp [execute]

theorem cycles_step_le {m m' : Core σ} {report : Report} (h : m.step = (.ok report, m')) :
    report.cycles ≤ longestStep := by
  cases outcome_step h with
  | stopped hstopped hwake => decide
  | halted hawake hline hhalted => decide
  | serviced hawake hline =>
      have hservice : 20 ≤ longestStep := by decide
      exact hservice
  | executed hawake hline hfetch => exact cycles_execute_le _ _

end Core

end Handheld
