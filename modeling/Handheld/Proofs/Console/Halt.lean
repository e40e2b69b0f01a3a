/-
Module: Handheld.Proofs.Console.Halt
Purpose: HALT. As long as no line is due a console in HALT does nothing but to let its clock run four
  cycles at a time, so that any number of steps is one long advance of the board. The first step that
  finds a line due ends HALT.
Main exports: Board.due, Core.halted_step_of_due, Console.Idles, Console.WakesUp,
  Console.idles_of_asleep, Console.halt_fastForward
-/
import Handheld.Proofs.Board.Clock
import Handheld.Proofs.Console.Dispatch
import Handheld.Proofs.Console.FramePace
import Handheld.Proofs.Processor.Control

namespace Handheld

/-! ### The lines that are due -/

namespace Board

variable (b : Board)

/-- The lines that are both enabled and requested, as the processor reads them. -/
def due : UInt8 :=
  b.read enableAddress &&& b.read requestAddress &&& 0x1F

theorem due_eq : b.due = b.interrupts.enable &&& b.interrupts.readRequests &&& 0x1F := by
  unfold due
  rw [read_enable, read_requests]

/-- An advance by nothing requests nothing, and all that it can change is the count of cycles with
    the display off. -/
theorem advance_zero : (b.advance 0).1 = { b with picture := (b.picture.advance 0).1 } := by
  have htimer : b.timer.advance 0 = (b.timer, false) := rfl
  have hpicture : (b.picture.advance 0).2 = [] := by
    unfold Picture.advance
    split <;> rfl
  rw [advance_eq, htimer, hpicture, Picture.linesOf, LineSet.onlyIf, if_neg Bool.false_ne_true,
    LineSet.union_empty, InterruptController.raise_empty]

theorem due_advance_zero : (b.advance 0).1.due = b.due := by
  rw [due_eq, due_eq, advance_zero]

/-- A count that stays below a frame is not changed either. -/
theorem advance_zero_of_lt (h : b.picture.offCycles < Picture.cyclesPerFrame) :
    (b.advance 0).1 = b := by
  have hpicture : (b.picture.advance 0).1 = b.picture := by
    unfold Picture.advance
    split
    · rfl
    · unfold Picture.idle
      simp only [Nat.add_zero, Nat.mod_eq_of_lt h, decide_eq_false (Nat.not_le.mpr h), Bool.or_false]
  rw [advance_zero, hpicture]

end Board

/-! ### Out of HALT -/

/-- Reading a board changes nothing. -/
theorem NotedBoard.quietReads : QuietReads NotedBoard := fun _ _ => rfl

namespace Core

variable {m : Core NotedBoard}

/-- With interrupts off and a line due no instruction halts, not even HALT. -/
theorem halted_execute (hime : m.cpu.ime = false) (hhalted : m.cpu.halted = false)
    (hdue : m.due ≠ 0) (instr : Instr) : (m.execute instr).2.cpu.halted = false := by
  have hcontrol := congrArg Processor.halted (m.control_execute instr)
  have hlines : (m.pendingLines.1.bits != 0) = true := bne_iff_ne.mpr hdue
  rw [hlines] at hcontrol
  refine hcontrol.trans ?_
  cases instr with
  | halt =>
      have hrepeats : (!m.cpu.control.ime && true) = true := by
        change (!m.cpu.ime && true) = true
        rw [hime]
        rfl
      unfold Instr.control
      dsimp only
      rw [if_pos hrepeats]
      exact hhalted
  | stop => rfl
  | _ => exact hhalted

theorem halted_runInstruction (hime : m.cpu.ime = false) (hhalted : m.cpu.halted = false)
    (hdue : m.due ≠ 0) : m.runInstruction.2.cpu.halted = false := by
  have hcontrol := m.control_fetch
  have hbus := bus_fetch NotedBoard.quietReads m
  rw [runInstruction_eq]
  generalize m.fetch.2 = fetched at hcontrol hbus
  have hhalted' : fetched.cpu.halted = false := (congrArg Processor.halted hcontrol).trans hhalted
  cases m.fetch.1 with
  | error fault => exact hhalted'
  | ok instr =>
      have hime' : fetched.cpu.ime = false := (congrArg Processor.ime hcontrol).trans hime
      have hdue' : fetched.due ≠ 0 := by
        unfold due
        rw [hbus]
        exact hdue
      have hsettled := congrArg (fun stall => stall.2.1)
        (stall_settleEnable (fetched.execute instr).2.cpu)
      exact hsettled.trans (halted_execute hime' hhalted' hdue' instr)

/-- A step that finds a line due ends HALT for good: a HALT that it executes does not halt. -/
theorem halted_step_of_due (hfault : m.cpu.fault = none) (hstopped : m.cpu.stopped = false)
    (hdue : m.due ≠ 0) : m.step.2.cpu.halted = false := by
  rw [step_awake hfault hstopped]
  cases hime : m.cpu.ime with
  | true =>
      obtain ⟨line, -, hstep⟩ := stepAwake_of_due hime hdue
      rw [hstep]
      rfl
  | false =>
      rw [stepAwake_of_off hime hdue]
      exact halted_runInstruction (m := { m with cpu.halted := false }) hime rfl hdue

end Core

namespace Console

variable {c : Console}

/-! ### Idle steps -/

/-- One step in HALT. -/
theorem step_asleep (h : Asleep c.cpu) (hdue : c.board.due = 0) :
    c.step = (.ok 4, c.mapNoted fun b => b.advance 4) := by
  have hcore : c.core.step = (.ok ⟨4, .idle⟩, c.core) := by
    rw [Core.step_awake h.fault h.stopped, Core.stepAwake_of_halted h.halted hdue]
  rw [Console.step_eq, hcore]
  rfl

/-- The console after `k` steps in HALT: it is as after one long advance of its board. An advance by
    nothing is none only if the count of cycles with the display off is below a frame. -/
structure Idles (c : Console) (k : Nat) : Prop where
  ok : ∀ j < k, (c.after j).step.1 = .ok 4
  cpu : (c.after k).cpu = c.cpu
  settings : (c.after k).settings = c.settings
  board : 0 < k ∨ c.picture.offCycles < Picture.cyclesPerFrame →
    (c.after k).board = (c.board.advance (4 * k)).1
  due : (c.after k).board.due = (c.board.advance (4 * k)).1.due

/-- Any number of steps in HALT. -/
theorem idles_of_asleep (h : Asleep c.cpu) {k : Nat}
    (hidle : ∀ j < k, (c.board.advance (4 * j)).1.due = 0) : c.Idles k := by
  induction k with
  | zero =>
      constructor
      · intro j hj
        cases hj
      · rfl
      · rfl
      · intro hcount
        exact (c.board.advance_zero_of_lt (hcount.resolve_left (Nat.lt_irrefl 0))).symm
      · exact c.board.due_advance_zero.symm
  | succ k ih =>
      have hsofar := ih fun j hj => hidle j (Nat.lt_succ_of_lt hj)
      have hasleep : Asleep (c.after k).cpu := by
        rw [hsofar.cpu]
        exact h
      have hstep := step_asleep hasleep (hsofar.due.trans (hidle k (Nat.lt_succ_self k)))
      have hafter : c.after (k + 1) = (c.after k).mapNoted fun b => b.advance 4 :=
        congrArg Prod.snd hstep
      -- the first step begins with the board itself, and not with an advance of it by nothing
      have hboard : (c.after (k + 1)).board = (c.board.advance (4 * (k + 1))).1 := by
        rw [hafter, board_mapNoted]
        cases k with
        | zero => rfl
        | succ k => rw [hsofar.board (.inl k.succ_pos), Board.advance_advance, Nat.mul_succ 4 (k + 1)]
      constructor
      · intro j hj
        rcases Nat.lt_succ_iff_lt_or_eq.mp hj with hlt | rfl
        · exact hsofar.ok j hlt
        · exact congrArg Prod.fst hstep
      · rw [hafter]
        exact hsofar.cpu
      · rw [hafter]
        exact hsofar.settings
      · exact fun _ => hboard
      · rw [hboard]

/-! ### The step that ends it -/

/-- The next step ends HALT. With interrupts on it dispatches the most urgent line that is due, and
    with interrupts off it executes the instruction at the program counter. -/
structure WakesUp (c : Console) : Prop where
  halted : c.step.2.cpu.halted = false
  dispatches : c.cpu.ime = true → ∃ line, LowestBit c.board.due line.number ∧
    c.core.step = (.ok ⟨20, .serviced (.only line)⟩,
      Core.service { c.core with cpu.halted := false } (.only line))
  executes : c.cpu.ime = false →
    c.core.step = Core.runInstruction { c.core with cpu.halted := false }

theorem wakesUp_of_due (h : Asleep c.cpu) (hdue : c.board.due ≠ 0) : c.WakesUp := by
  have hstep : c.core.step = c.core.stepAwake := Core.step_awake h.fault h.stopped
  constructor
  · rw [cpu_step]
    exact Core.halted_step_of_due h.fault h.stopped hdue
  · intro hime
    rw [hstep]
    exact Core.stepAwake_of_due hime hdue
  · intro hime
    rw [hstep]
    exact Core.stepAwake_of_off hime hdue

/-- HALT can be fast-forwarded, on every console and with any sources of interrupts. If nothing is
    due on the board after `4 * j` cycles for any `j` below `k`, then `k` steps take four cycles each,
    and they leave the processor as it is and the board as after `4 * k` cycles at once, on a console
    that can come about even for no steps at all. If something is due then, the next step ends
    HALT. -/
theorem halt_fastForward (h : Asleep c.cpu) {k : Nat}
    (hidle : ∀ j < k, (c.board.advance (4 * j)).1.due = 0) :
    c.Idles k ∧ (c.Reachable → (c.after k).board = (c.board.advance (4 * k)).1) ∧
      ((c.board.advance (4 * k)).1.due ≠ 0 → (c.after k).WakesUp) := by
  have hidles := idles_of_asleep h hidle
  refine ⟨hidles, fun hreachable => hidles.board (.inr ?_), fun hdue => wakesUp_of_due ?_ ?_⟩
  · exact (coherent_of_reachable hreachable).offCycles_lt
  · rw [hidles.cpu]
    exact h
  · rwa [hidles.due]

/-- A console in HALT that waits for its timer, which overflows after sixteen cycles. -/
def timerWaiter : Console where
  core.cpu := { Processor.boot with halted := true, ime := true }
  core.bus.board := {
    cartridge := ⟨default, Array.replicate 0x110 0x00, #[], .plain⟩
    wram := .replicate wramSize 0
    hram := .replicate hramSize 0
    picture := { lcdc := 0 }
    timer := { divider := 0, counter := 0xFF, control := 0x05 }
    interrupts := { enable := 0x04 } }
  settings := {}

/-- It sleeps for four steps, and the fifth dispatches the interrupt. -/
theorem halt_fastForward_timerWaiter :
    Asleep timerWaiter.cpu ∧ (∀ j < 4, (timerWaiter.board.advance (4 * j)).1.due = 0) ∧
      (timerWaiter.after 4).board = (timerWaiter.board.advance 16).1 ∧
      ∃ line, LowestBit (timerWaiter.after 4).board.due line.number ∧
        (timerWaiter.after 4).core.step = (.ok ⟨20, .serviced (.only line)⟩,
          Core.service { (timerWaiter.after 4).core with cpu.halted := false } (.only line)) := by
  have hasleep : Asleep timerWaiter.cpu := ⟨rfl, rfl, rfl⟩
  have hidle : ∀ j < 4, (timerWaiter.board.advance (4 * j)).1.due = 0 := by decide +kernel
  have hdue : (timerWaiter.board.advance (4 * 4)).1.due ≠ 0 := by decide +kernel
  obtain ⟨hidles, -, hwakes⟩ := halt_fastForward hasleep hidle
  have hime : (timerWaiter.after 4).cpu.ime = true := congrArg Processor.ime hidles.cpu
  exact ⟨hasleep, hidle, hidles.board (.inl (by decide)), (hwakes hdue).dispatches hime⟩

end Console

end Handheld
