/-
Module: Handheld.Proofs.Processor.Latch
Purpose: The three latches behind the interrupt enable, and what each activity of the processor does
  to them. The rest of a step (the registers, the bus, the waiting states) never touches them.
Main exports: Latches, Processor.latches, Instr.latch, Activity.latch, Core.latches_execute,
  Core.latches_step
-/
import Handheld.Proofs.Processor.Control

namespace Handheld

/-- The interrupt enable and the two latches of an enabling that is under way. -/
structure Latches where
  ime : Bool
  pending : Bool
  delay : Bool
deriving DecidableEq, Repr

/-- The latches of a processor. -/
def Processor.latches (p : Processor) : Latches :=
  ⟨p.ime, p.enablePending, p.enableDelay⟩

namespace Latches

/-- Interrupts are off, and no enabling is under way. -/
def off : Latches := ⟨false, false, false⟩

/-- The end of an instruction. -/
def settle (l : Latches) : Latches :=
  if l.delay then { l with ime := true, delay := false }
  else if l.pending then { l with pending := false, delay := true }
  else l

end Latches

/-- What an instruction itself does to the latches: only three instructions know of them. -/
def Instr.latch (l : Latches) : Instr → Latches
  | .enableInterrupts => { l with pending := true }
  | .disableInterrupts => .off
  | .retEnable => ⟨true, false, false⟩
  | _ => l

/-- What a step does to the latches. -/
def Activity.latch (l : Latches) : Activity → Latches
  | .idle => l
  | .serviced _ => .off
  | .executed instr => (instr.latch l).settle

theorem Instr.latches_control (instr : Instr) (due : Bool) (p : Processor) :
    (instr.control due p).latches = instr.latch p.latches := by
  cases instr with
  | halt =>
      unfold Instr.control
      dsimp only
      split <;> rfl
  | _ => rfl

namespace Core

variable {σ : Type} [Bus σ]

theorem latches_fetch (m : Core σ) : m.fetch.2.cpu.latches = m.cpu.latches := by
  have hcontrol := congrArg Processor.latches m.control_fetch
  exact hcontrol

/-! ### Activities -/

/-- Executing an instruction changes the latches as the instruction says. -/
theorem latches_execute (m : Core σ) (instr : Instr) :
    (m.execute instr).2.cpu.latches = instr.latch m.cpu.latches := by
  have hcontrol := congrArg Processor.latches (m.control_execute instr)
  exact hcontrol.trans (instr.latches_control _ m.cpu.control)

theorem latches_settleEnable (p : Processor) : p.settleEnable.latches = p.latches.settle := by
  cases hdelay : p.enableDelay <;> cases hpending : p.enablePending <;>
    simp [Processor.settleEnable, Latches.settle, Processor.latches, hdelay, hpending]

/-- The latches after an instruction that did not fail, and the activity reported for it. -/
theorem latches_runInstruction {m m' : Core σ} {report : Report}
    (h : m.runInstruction = (.ok report, m')) :
    ∃ instr, report.activity = .executed instr ∧
      m'.cpu.latches = (instr.latch m.cpu.latches).settle := by
  rw [runInstruction_eq] at h
  have hfetch := latches_fetch m
  cases hf : m.fetch.1 with
  | error fault =>
      rw [hf] at h
      simp [finish] at h
  | ok instr =>
      rw [hf] at h
      simp only [finish, Prod.mk.injEq, Except.ok.injEq] at h
      obtain ⟨rfl, rfl⟩ := h
      exact ⟨instr, rfl, by rw [latches_settleEnable, latches_execute, hfetch]⟩

theorem latches_poll (m : Core σ) : m.poll.2.cpu.latches = m.cpu.latches := by
  have hcontrol := congrArg Processor.latches m.control_poll
  exact hcontrol

/-- A line is only found to be serviced while interrupts are on. -/
theorem ime_of_poll {m : Core σ} {line : LineSet} (h : m.poll.1 = some line) :
    m.cpu.ime = true := by
  simp only [poll] at h
  split at h
  · cases h
  · by_contra hime
    rw [if_neg (by exact hime)] at h
    cases h

/-- What a step of a processor that is neither locked nor stopped has done, read off its report. -/
theorem latches_stepAwake {m m' : Core σ} {report : Report}
    (h : m.stepAwake = (.ok report, m')) :
    m'.cpu.latches = report.activity.latch m.cpu.latches ∧
      (∀ line, report.activity = .serviced line → m.cpu.ime = true) := by
  rw [stepAwake_eq] at h
  have hpoll := latches_poll m
  cases hline : m.poll.1 with
  | some line =>
      rw [hline] at h
      simp only [proceed, Prod.mk.injEq, Except.ok.injEq] at h
      obtain ⟨rfl, rfl⟩ := h
      exact ⟨rfl, fun _ _ => ime_of_poll hline⟩
  | none =>
      rw [hline] at h
      simp only [proceed] at h
      split at h
      · simp only [Prod.mk.injEq, Except.ok.injEq] at h
        obtain ⟨rfl, rfl⟩ := h
        exact ⟨hpoll, fun line hidle => by cases hidle⟩
      · obtain ⟨instr, hinstr, hlatches⟩ := latches_runInstruction h
        rw [hinstr, hlatches, hpoll]
        exact ⟨rfl, fun line hserviced => by cases hserviced⟩

/-- What a stopped processor has done, read off its report. -/
theorem latches_resume {wake : Bool} {m m' : Core σ} {report : Report}
    (h : resume wake m = (.ok report, m')) :
    m'.cpu.latches = report.activity.latch m.cpu.latches ∧
      (∀ line, report.activity = .serviced line → m.cpu.ime = true) := by
  cases wake with
  | false =>
      simp only [resume, Bool.false_eq_true, if_false, Prod.mk.injEq, Except.ok.injEq] at h
      obtain ⟨rfl, rfl⟩ := h
      exact ⟨rfl, fun line hidle => by cases hidle⟩
  | true =>
      simp only [resume, if_true] at h
      obtain ⟨hlatches, hserviced⟩ := latches_stepAwake h
      exact ⟨hlatches, hserviced⟩

/-- What a step has done, read off its report: the latches change as the activity says, and a line
    is only serviced in a step that begins with interrupts on. -/
theorem latches_step {m m' : Core σ} {report : Report} (h : m.step = (.ok report, m')) :
    m'.cpu.latches = report.activity.latch m.cpu.latches ∧
      (∀ line, report.activity = .serviced line → m.cpu.ime = true) := by
  rw [step_eq] at h
  cases hfault : m.cpu.fault with
  | some fault =>
      rw [hfault] at h
      simp at h
  | none =>
      rw [hfault] at h
      dsimp only at h
      by_cases hstopped : m.cpu.stopped = true
      · rw [if_pos hstopped] at h
        obtain ⟨hlatches, hserviced⟩ := latches_resume h
        exact ⟨hlatches, hserviced⟩
      · rw [if_neg hstopped] at h
        exact latches_stepAwake h

end Core

end Handheld
