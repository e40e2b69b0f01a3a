/-
Module: Handheld.Proofs.Console.InterruptChoice
Purpose: Which interrupt comes next is found out twice: by the processor, from the bytes of IE and
  IF as the bus shows them, and by the interrupt controller, from its sets of lines. Both find the
  same lines in every state, and the next step dispatches the one that the controller names.
Main exports: LineSet.ofByte_and_shown, Core.pendingLines_eq_pending, Core.line_poll,
  Console.Dispatches, Console.dispatches_iff, Console.interrupts_agree
-/
import Handheld.Proofs.Console.Dispatch
import Handheld.Proofs.Processor.RegisterFrame

namespace Handheld

/-! ### Bytes and sets -/

/-- The bits that IF shows besides its lines do not matter, nor do those of IE. -/
theorem LineSet.ofByte_and_shown (enable request : UInt8) :
    ofByte (enable &&& (request ||| 0xE0)) = inter ⟨request⟩ (ofByte enable) := by
  have hshown : (request ||| 0xE0) &&& 0x1F = request &&& 0x1F :=
    and_setBits_of_disjoint request 0x1F true rfl
  have hbits : enable &&& (request ||| 0xE0) &&& 0x1F = request &&& (enable &&& 0x1F) := by
    calc enable &&& (request ||| 0xE0) &&& 0x1F
      _ = enable &&& ((request ||| 0xE0) &&& 0x1F) := UInt8.and_assoc _ _ _
      _ = enable &&& (request &&& 0x1F) := by rw [hshown]
      _ = request &&& (enable &&& 0x1F) := by
          rw [← UInt8.and_assoc, UInt8.and_comm enable, UInt8.and_assoc]
  exact congrArg LineSet.mk hbits

namespace InterruptController

/-- The controller names a line exactly if there is one that is requested and enabled. -/
theorem highest?_eq_none_iff (c : InterruptController) :
    c.highest? = none ↔ c.pending.bits = 0 := by
  unfold highest? LineSet.highest?
  split
  · next hnone => exact iff_of_true rfl hnone
  · next hsome => exact iff_of_false (Option.some_ne_none _) hsome

/-- What it names is one line, the one with the lowest bit. -/
theorem exists_line_of_highest? {c : InterruptController} {lines : LineSet}
    (h : c.highest? = some lines) :
    ∃ line, lines = .only line ∧ LowestBit c.pending.bits line.number := by
  have hpending : c.pending = .ofByte (c.enable &&& (c.requested.bits ||| 0xE0)) :=
    (LineSet.ofByte_and_shown c.enable c.requested.bits).symm
  have hsome : c.pending.bits ≠ 0 := fun hnone => by
    rw [c.highest?_eq_none_iff.mpr hnone] at h
    cases h
  unfold highest? at h
  rw [hpending] at h hsome ⊢
  obtain ⟨line, hlowest, hhighest⟩ := LineSet.exists_lowestBit hsome
  exact ⟨line, Option.some.inj (h.symm.trans hhighest), hlowest⟩

end InterruptController

namespace Board

/-- Write IE and then IF. -/
def writeLines (b : Board) (enable request : UInt8) : Board :=
  ((b.write enableAddress enable).1.write requestAddress request).1

theorem interrupts_writeLines (b : Board) (enable request : UInt8) :
    (b.writeLines enable request).interrupts = ⟨enable, .ofByte request⟩ := by
  unfold writeLines
  rw [write_requests, b.write_enable]
  rfl

end Board

/-! ### The processor's choice -/

namespace Core

/-- The processor finds the lines of the controller. -/
theorem pendingLines_eq_pending (m : Core NotedBoard) :
    m.pendingLines = (m.bus.board.interrupts.pending, m) := by
  rw [pendingLines_eq, m.bus.board.read_enable, m.bus.board.read_requests]
  exact congrArg (·, m) (LineSet.ofByte_and_shown _ _)

/-- With interrupts on it chooses the line that the controller names. -/
theorem line_poll (m : Core NotedBoard) :
    m.poll.1 = if m.cpu.ime then m.bus.board.interrupts.highest? else none := by
  unfold poll
  rw [pendingLines_eq_pending]
  dsimp only
  split
  · next hnone =>
    rw [m.bus.board.interrupts.highest?_eq_none_iff.mpr hnone, ite_self]
  · rfl

end Core

namespace Console

/-- The next step dispatches these lines. -/
def Dispatches (c : Console) (lines : LineSet) : Prop :=
  ∃ report, c.core.step.1 = .ok report ∧ report.activity = .serviced lines

instance (c : Console) (lines : LineSet) : Decidable (c.Dispatches lines) :=
  decidableActivity c.core.step.1 (.serviced lines)

section

variable {c : Console} {lines : LineSet} (hfault : c.cpu.fault = none)
  (hstopped : c.cpu.stopped = false)
include hfault hstopped

theorem dispatches_iff_poll : c.Dispatches lines ↔ c.core.poll.1 = some lines := by
  constructor
  · rintro ⟨report, hreport, hlines⟩
    have houtcome := Core.outcome_step (m := c.core) (Prod.ext hreport rfl)
    obtain ⟨awake, hawake, hpoll, -⟩ := houtcome.serviced_inv hlines
    cases hawake with
    | already => exact hpoll
    | woken hasleep hwake =>
        have hawake' : c.core.cpu.stopped = false := hstopped
        rw [hawake'] at hasleep
        cases hasleep
  · intro hpoll
    rcases c.core.stepAwake_cases with ⟨line, hline, hserviced⟩ | ⟨hnone, -⟩
    · obtain rfl : line = lines := Option.some.inj (hline.symm.trans hpoll)
      refine ⟨⟨20, .serviced line⟩, ?_, rfl⟩
      rw [Core.step_awake hfault hstopped, hserviced]
    · rw [hnone] at hpoll
      cases hpoll

/-- The next step dispatches the line that the controller names, provided that interrupts are on. -/
theorem dispatches_iff :
    c.Dispatches lines ↔ c.cpu.ime = true ∧ c.board.interrupts.highest? = some lines := by
  have hpoll : c.core.poll.1 = if c.cpu.ime then c.board.interrupts.highest? else none :=
    c.core.line_poll
  rw [dispatches_iff_poll hfault hstopped, hpoll]
  cases c.cpu.ime with
  | true => simp
  | false => simp

theorem exists_dispatches_iff :
    (∃ lines, c.Dispatches lines) ↔ c.cpu.ime = true ∧ c.board.interrupts.highest? ≠ none := by
  simp only [dispatches_iff hfault hstopped, exists_and_left, Option.ne_none_iff_exists']

end

/-- A dispatch goes to the handler of its line. -/
theorem pc_of_dispatches {c : Console} {lines : LineSet} (h : c.Dispatches lines) :
    c.step.2.cpu.regs.pc = lines.vector := by
  obtain ⟨report, hreport, hlines⟩ := h
  have houtcome := Core.outcome_step (m := c.core) (Prod.ext hreport rfl)
  obtain ⟨awake, -, -, hserviced⟩ := houtcome.serviced_inv hlines
  have hpc : c.core.step.2.cpu.regs.pc = lines.vector := congrArg (·.cpu.regs.pc) hserviced
  exact (congrArg (·.regs.pc) c.cpu_step).trans hpc

/-- The processor and the interrupt controller agree on the next interrupt. While the processor has
    neither locked up nor stopped, it finds on the bus the lines that the controller holds pending.
    Its next step dispatches exactly if interrupts are on and the controller names a line; then it
    dispatches that line, the lowest bit of those pending, and goes to its handler. Which upper bits
    have been written to IE and IF does not matter: IE shows them, IF shows ones, and neither
    changes what is pending. -/
theorem interrupts_agree :
    (∀ c : Console, c.cpu.fault = none → c.cpu.stopped = false →
      c.core.pendingLines.1 = c.board.interrupts.pending ∧
      ((∃ lines, c.Dispatches lines) ↔
        c.cpu.ime = true ∧ c.board.interrupts.highest? ≠ none) ∧
      ∀ lines, c.Dispatches lines → ∃ line : Interrupt,
        c.board.interrupts.highest? = some (.only line) ∧ lines = .only line ∧
        LowestBit c.board.interrupts.pending.bits line.number ∧
        c.step.2.cpu.regs.pc = 0x40 + 8 * UInt16.ofNat line.number) ∧
    (∀ (b : Board) (enable request : UInt8),
      (b.writeLines enable request).read enableAddress = enable ∧
      (b.writeLines enable request).read requestAddress = request &&& 0x1F ||| 0xE0 ∧
      (b.writeLines enable request).interrupts.pending.bits =
        (request &&& 0x1F) &&& (enable &&& 0x1F)) := by
  constructor
  · intro c hfault hstopped
    refine ⟨congrArg Prod.fst c.core.pendingLines_eq_pending,
      exists_dispatches_iff hfault hstopped, ?_⟩
    intro lines hlines
    have hnamed := ((dispatches_iff hfault hstopped).mp hlines).2
    obtain ⟨line, rfl, hlowest⟩ := InterruptController.exists_line_of_highest? hnamed
    have hpc := (pc_of_dispatches hlines).trans (LineSet.vector_only line)
    exact ⟨line, hnamed, rfl, hlowest, hpc⟩
  · intro b enable request
    rw [Board.read_enable, Board.read_requests, Board.interrupts_writeLines]
    exact ⟨rfl, rfl, rfl⟩

/-- The listener again, with the timer, the serial port and the joypad requested, and in IE the two
    lines of the picture unit, the timer and all bits that are no line. -/
def strayBits : Console :=
  listener.mapBoard fun b => { b with interrupts := ⟨0xE6, ⟨0x1C⟩⟩ }

/-- The timer is dispatched there. -/
theorem interrupts_agree_strayBits :
    (strayBits.cpu.fault = none ∧ strayBits.cpu.stopped = false ∧
      strayBits.Dispatches (.only .timer)) ∧
    (strayBits.core.pendingLines.1 = strayBits.board.interrupts.pending ∧
      ((∃ lines, strayBits.Dispatches lines) ↔
        strayBits.cpu.ime = true ∧ strayBits.board.interrupts.highest? ≠ none) ∧
      ∃ line : Interrupt, strayBits.board.interrupts.highest? = some (.only line) ∧
        LineSet.only .timer = .only line ∧
        LowestBit strayBits.board.interrupts.pending.bits line.number ∧
        strayBits.step.2.cpu.regs.pc = 0x40 + 8 * UInt16.ofNat line.number) := by
  have hdispatch : strayBits.Dispatches (.only .timer) := by decide +kernel
  obtain ⟨hpending, hiff, hline⟩ := interrupts_agree.1 strayBits rfl rfl
  exact ⟨⟨rfl, rfl, hdispatch⟩, hpending, hiff, hline _ hdispatch⟩

end Console

end Handheld
