/-
Module: Handheld.Proofs.Console.Dispatch
Purpose: Servicing an interrupt. What the dispatch does to the processor and to memory, for every
  state in which a line is due; and that no request is serviced twice, however the lines interleave.
Main exports: Interrupt.number, Core.due, LowestBit, Core.Dispatched, Core.dispatched_step,
  Console.Services, Console.dispatch_once
-/
import Handheld.Proofs.Console.Chronicle
import Handheld.Proofs.Processor.Outcome

namespace Handheld

/-! ### The most urgent line -/

/-- The place of the line's bit in IE and IF. -/
def Interrupt.number : Interrupt → Nat
  | .vblank => 0
  | .lcdStat => 1
  | .timer => 2
  | .serial => 3
  | .joypad => 4

/-- The lowest bit that is set in a byte. -/
structure LowestBit (b : UInt8) (n : Nat) : Prop where
  set : b.toNat.testBit n = true
  below : ∀ i < n, b.toNat.testBit i = false

instance (b : UInt8) (n : Nat) : Decidable (LowestBit b n) :=
  decidable_of_iff (b.toNat.testBit n = true ∧ ∀ i < n, b.toNat.testBit i = false)
    ⟨fun h => ⟨h.1, h.2⟩, fun h => ⟨h.set, h.below⟩⟩

namespace LineSet

/-- A set of lines that is not empty has a most urgent one, and that is its lowest bit. -/
theorem exists_lowestBit {b : UInt8} (h : b &&& 0x1F ≠ 0) :
    ∃ line : Interrupt, LowestBit (b &&& 0x1F) line.number ∧
      (ofByte b).highest? = some (only line) := by
  have hbits : ∀ bits : BitVec 8, UInt8.ofBitVec bits &&& 0x1F ≠ 0 →
      ∃ line ∈ Interrupt.all, LowestBit (UInt8.ofBitVec bits &&& 0x1F) line.number ∧
        (ofByte (UInt8.ofBitVec bits)).highest? = some (only line) := by
    decide +kernel
  rcases hbits b.toBitVec h with ⟨line, -, hlowest, hhighest⟩
  exact ⟨line, hlowest, hhighest⟩

theorem vector_only (line : Interrupt) :
    (only line).vector = 0x40 + 8 * UInt16.ofNat line.number := by
  cases line <;> decide

theorem testBit_of_highest? {b : UInt8} {line : Interrupt}
    (h : (ofByte b).highest? = some (only line)) : b.toNat.testBit line.number = true := by
  have hbits : ∀ bits : BitVec 8, (ofByte (UInt8.ofBitVec bits)).highest? = some (only line) →
      (UInt8.ofBitVec bits).toNat.testBit line.number = true := by
    cases line <;> decide +kernel
  exact hbits b.toBitVec h

end LineSet

/-! ### Requests -/

namespace Board

/-- Whether the bit of a line is set in IF. -/
def requests (b : Board) (line : Interrupt) : Bool :=
  (b.read requestAddress).toNat.testBit line.number

theorem requests_write_ram (b : Board) {address : UInt16}
    (h : (Target.ofAddress address).isRam = true) (value : UInt8) (line : Interrupt) :
    (b.write address value).1.requests line = b.requests line := by
  have hregister : (Target.ofAddress requestAddress).isRam = false := by
    rw [Target.ofAddress_requestAddress]
    rfl
  unfold requests
  rw [read_write_ram_of_not_isRam b h hregister]

/-- The write by which the request of a line is withdrawn from those that have been read. -/
def Act.withdraw (line : Interrupt) (value : UInt8) : Act :=
  .write requestAddress (value &&& ~~~(LineSet.only line).bits)

/-- Withdrawing the request of a line leaves those of the others. -/
theorem requests_withdraw (b : Board) (value : UInt8) (line other : Interrupt) :
    (b.act (.withdraw line value)).requests other =
      (value.toNat.testBit other.number && decide (other ≠ line)) := by
  have hmask : (~~~(LineSet.only line).bits).toNat.testBit other.number =
      decide (other ≠ line) := by
    cases line <;> cases other <;> decide
  have hlow : (0x1F : UInt8).toNat.testBit other.number = true := by
    cases other <;> decide
  have hhigh : (0xE0 : UInt8).toNat.testBit other.number = false := by
    cases other <;> decide
  unfold requests act Act.withdraw
  rw [read_write_requests, if_pos Target.ofAddress_requestAddress, UInt8.toNat_or, UInt8.toNat_and,
    UInt8.toNat_and, Nat.testBit_or, Nat.testBit_and, Nat.testBit_and, hmask, hlow, hhigh,
    Bool.and_true, Bool.or_false]

/-- Of acts after which a line is requested that was not requested before, one has requested it. -/
theorem exists_raise {b : Board} {line : Interrupt} {acts : List Act}
    (hbefore : b.requests line = false) (hafter : (b.actAll acts).requests line = true) :
    ∃ past act rest, acts = past ++ act :: rest ∧ (b.actAll past).requests line = false ∧
      (b.actAll (past ++ [act])).requests line = true := by
  induction acts generalizing b with
  | nil =>
      have hsame : b.requests line = true := hafter
      rw [hbefore] at hsame
      cases hsame
  | cons first acts ih =>
      cases hfirst : (b.act first).requests line with
      | true => exact ⟨[], first, acts, rfl, hbefore, hfirst⟩
      | false =>
          rcases ih hfirst hafter with ⟨past, act, rest, hacts, hclear, hset⟩
          exact ⟨first :: past, act, rest, congrArg (first :: ·) hacts, hclear, hset⟩

end Board

/-! ### One dispatch -/

namespace Core

variable {m : Core NotedBoard} {line : Interrupt}

/-- The lines that are both enabled and requested. -/
def due (m : Core NotedBoard) : UInt8 :=
  m.bus.board.read enableAddress &&& m.bus.board.read requestAddress &&& 0x1F

/-- What the dispatch of a line makes of a machine. -/
structure Dispatched (m : Core NotedBoard) (line : Interrupt) (m' : Core NotedBoard) : Prop where
  cpu : m'.cpu = { m.cpu with
    regs := { m.cpu.regs with
      sp := m.cpu.regs.sp - 2
      pc := 0x40 + 8 * UInt16.ofNat line.number }
    ime := false, halted := false, haltBug := false, enablePending := false, enableDelay := false }
  returnTo : joinBytes (m'.bus.board.read (m'.cpu.regs.sp + 1)) (m'.bus.board.read m'.cpu.regs.sp) =
    if m.cpu.haltBug then m.cpu.regs.pc - 1 else m.cpu.regs.pc
  requests : ∀ other : Interrupt,
    m'.bus.board.requests other = (m.bus.board.requests other && decide (other ≠ line))
  enable : m'.bus.board.read enableAddress = m.bus.board.read enableAddress

theorem poll_of_due (hime : m.cpu.ime = true) (hdue : m.due ≠ 0) :
    ∃ line, LowestBit m.due line.number ∧
      m.poll = (some (.only line), { m with cpu.halted := false }) := by
  rcases LineSet.exists_lowestBit hdue with ⟨line, hlowest, hhighest⟩
  refine ⟨line, hlowest, ?_⟩
  have hsome : (LineSet.ofByte (m.bus.board.read enableAddress &&&
      m.bus.board.read requestAddress)).bits ≠ 0 := hdue
  unfold poll
  rw [pendingLines_eq]
  dsimp only
  rw [if_neg hsome, hhighest, if_pos hime]

theorem poll_of_not_due (hdue : m.due = 0) : m.poll = (none, m) := by
  have hnone : (LineSet.ofByte (m.bus.board.read enableAddress &&&
      m.bus.board.read requestAddress)).bits = 0 := hdue
  unfold poll
  rw [pendingLines_eq]
  exact if_pos hnone

theorem poll_of_off (hime : m.cpu.ime = false) (hdue : m.due ≠ 0) :
    m.poll = (none, { m with cpu.halted := false }) := by
  have hsome : (LineSet.ofByte (m.bus.board.read enableAddress &&&
      m.bus.board.read requestAddress)).bits ≠ 0 := hdue
  unfold poll
  rw [pendingLines_eq]
  dsimp only
  rw [if_neg hsome, hime, if_neg Bool.false_ne_true]

/-- With interrupts on and a line due, a processor that is awake dispatches the most urgent one. -/
theorem stepAwake_of_due (hime : m.cpu.ime = true) (hdue : m.due ≠ 0) :
    ∃ line, LowestBit m.due line.number ∧ m.stepAwake =
      (.ok ⟨20, .serviced (.only line)⟩, service { m with cpu.halted := false } (.only line)) := by
  rcases poll_of_due hime hdue with ⟨line, hlowest, hpoll⟩
  refine ⟨line, hlowest, ?_⟩
  rw [stepAwake_eq, hpoll]
  rfl

/-- With interrupts off, a line that is due only ends HALT. -/
theorem stepAwake_of_off (hime : m.cpu.ime = false) (hdue : m.due ≠ 0) :
    m.stepAwake = runInstruction { m with cpu.halted := false } := by
  rw [stepAwake_eq, poll_of_off hime hdue]
  rfl

theorem stepAwake_of_halted (hhalted : m.cpu.halted = true) (hdue : m.due = 0) :
    m.stepAwake = (.ok ⟨4, .idle⟩, m) := by
  rw [stepAwake_eq, poll_of_not_due hdue]
  exact if_pos hhalted

theorem stepAwake_of_running (hhalted : m.cpu.halted = false) (hnone : m.cpu.ime = false ∨ m.due = 0) :
    m.stepAwake = m.runInstruction := by
  have hsame : ({ m with cpu.halted := false } : Core NotedBoard) = m := by
    rw [← hhalted]
  by_cases hdue : m.due = 0
  · rw [stepAwake_eq, poll_of_not_due hdue]
    exact if_neg (ne_true_of_eq_false hhalted)
  · rw [stepAwake_of_off (hnone.resolve_right hdue) hdue, hsame]

theorem board_service (m : Core NotedBoard) (lines : LineSet) :
    (m.service lines).bus.board =
      (((m.bus.board.write requestAddress
        (m.bus.board.read requestAddress &&& ~~~lines.bits)).1.write
          (m.cpu.regs.sp - 1) (highByte (returnAddress m.cpu))).1.write
            (m.cpu.regs.sp - 1 - 1) (lowByte (returnAddress m.cpu))).1 := rfl

/-- The word that has been pushed lies at the stack pointer, low byte first. -/
theorem read_service (hhigh : (Target.ofAddress (m.cpu.regs.sp - 1)).isRam = true)
    (hlow : (Target.ofAddress (m.cpu.regs.sp - 1 - 1)).isRam = true) (lines : LineSet) :
    (m.service lines).bus.board.read (m.cpu.regs.sp - 1) = highByte (returnAddress m.cpu) ∧
      (m.service lines).bus.board.read (m.cpu.regs.sp - 1 - 1) = lowByte (returnAddress m.cpu) := by
  have hne := Target.ofAddress_sub_one_ne hhigh
  rw [board_service]
  constructor
  · rw [Board.read_write_ram _ hlow, if_neg hne.symm, Board.read_write_ram _ hhigh, if_pos rfl]
  · rw [Board.read_write_ram _ hlow, if_pos rfl]

theorem dispatched_service (hhigh : (Target.ofAddress (m.cpu.regs.sp - 1)).isRam = true)
    (hlow : (Target.ofAddress (m.cpu.regs.sp - 1 - 1)).isRam = true) (line : Interrupt) :
    Dispatched m line (service { m with cpu.halted := false } (.only line)) := by
  rcases read_service (m := { m with cpu.halted := false }) hhigh hlow (.only line) with
    ⟨hhigh', hlow'⟩
  constructor
  · have hvector := LineSet.vector_only line
    have htwo : m.cpu.regs.sp - 2 = m.cpu.regs.sp - 1 - 1 := by grind
    rw [htwo, ← hvector]
    rfl
  · have hnext : m.cpu.regs.sp - 1 - 1 + 1 = m.cpu.regs.sp - 1 := UInt16.sub_add_cancel _ _
    change joinBytes (Board.read _ (m.cpu.regs.sp - 1 - 1 + 1))
      (Board.read _ (m.cpu.regs.sp - 1 - 1)) = returnAddress m.cpu
    rw [hnext]
    exact (congrArg₂ joinBytes hhigh' hlow').trans (joinBytes_highByte_lowByte _)
  · intro other
    rw [board_service, Board.requests_write_ram _ hlow, Board.requests_write_ram _ hhigh]
    exact Board.requests_withdraw _ _ line other
  · have henable : (Target.ofAddress enableAddress).isRam = false := by
      rw [Target.ofAddress_enableAddress]
      rfl
    have hother : Target.ofAddress enableAddress ≠ .requests := by
      rw [Target.ofAddress_enableAddress]
      simp
    rw [board_service, Board.read_write_ram_of_not_isRam _ hlow henable,
      Board.read_write_ram_of_not_isRam _ hhigh henable, Board.read_write_requests, if_neg hother]

/-- A step with interrupts on and a line due dispatches the most urgent one. -/
theorem dispatched_step (hfault : m.cpu.fault = none) (hstopped : m.cpu.stopped = false)
    (hime : m.cpu.ime = true) (hdue : m.due ≠ 0)
    (hhigh : (Target.ofAddress (m.cpu.regs.sp - 1)).isRam = true)
    (hlow : (Target.ofAddress (m.cpu.regs.sp - 2)).isRam = true) :
    ∃ line m', LowestBit m.due line.number ∧ m.step = (.ok ⟨20, .serviced (.only line)⟩, m') ∧
      Dispatched m line m' := by
  rcases stepAwake_of_due hime hdue with ⟨line, hlowest, hstep⟩
  have htwo : m.cpu.regs.sp - 2 = m.cpu.regs.sp - 1 - 1 := by grind
  rw [htwo] at hlow
  exact ⟨line, _, hlowest, (step_awake hfault hstopped).trans hstep,
    dispatched_service hhigh hlow line⟩

end Core

/-! ### Dispatches in a run -/

namespace Core

variable {m : Core NotedBoard} {report : Report} {line : Interrupt}

/-- A dispatch writes the request byte and then the two bytes of the return address. -/
theorem acts_service (m : Core Chronicle) (lines : LineSet) :
    (m.service lines).bus.acts = m.bus.acts ++
      [.write requestAddress (m.bus.bus.board.read requestAddress &&& ~~~lines.bits),
        .write (m.cpu.regs.sp - 1) (highByte (returnAddress m.cpu)),
        .write (m.cpu.regs.sp - 1 - 1) (lowByte (returnAddress m.cpu))] := by
  have hlatest : (m.service lines).bus.latestFirst =
      [.write (m.cpu.regs.sp - 1 - 1) (lowByte (returnAddress m.cpu)),
        .write (m.cpu.regs.sp - 1) (highByte (returnAddress m.cpu)),
        .write requestAddress (m.bus.bus.board.read requestAddress &&& ~~~lines.bits)] ++
          m.bus.latestFirst := rfl
  unfold Chronicle.acts
  rw [hlatest, List.reverse_append]
  rfl

theorem acts_of_serviced (h : m.step.1 = .ok report)
    (hline : report.activity = .serviced (.only line)) :
    ∃ before value rest, m.acts = before ++ .withdraw line value :: rest := by
  have hrecorded : m.chronicle.step = (.ok report, m.chronicle.step.2) :=
    Prod.ext (m.step_chronicle.1.trans h) rfl
  rcases (outcome_step hrecorded).serviced_inv hline with ⟨awake, -, -, hlast⟩
  unfold acts
  rw [hlast]
  exact ⟨_, _, _, acts_service awake.poll.2 (.only line)⟩

theorem requests_of_poll {m' : Core NotedBoard} (h : m.poll = (some (.only line), m')) :
    m.bus.board.requests line = true := by
  unfold poll at h
  rw [pendingLines_eq] at h
  dsimp only at h
  split at h
  · cases h
  · have hline : (if m.cpu.ime = true then (LineSet.ofByte (m.bus.board.read enableAddress &&&
        m.bus.board.read requestAddress)).highest? else none) = some (.only line) :=
      congrArg Prod.fst h
    split at hline
    · have hbit := LineSet.testBit_of_highest? hline
      rw [UInt8.toNat_and, Nat.testBit_and, Bool.and_eq_true] at hbit
      exact hbit.2
    · cases hline

theorem requests_of_serviced (h : m.step.1 = .ok report)
    (hline : report.activity = .serviced (.only line)) : m.bus.board.requests line = true := by
  have hstep : m.step = (.ok report, m.step.2) := Prod.ext h rfl
  rcases (outcome_step hstep).serviced_inv hline with ⟨awake, hawake, hpoll, -⟩
  have hrequested := requests_of_poll (Prod.ext hpoll rfl)
  cases hawake with
  | already hstopped => exact hrequested
  | woken hstopped hwake =>
      unfold Board.requests at hrequested ⊢
      rw [Board.read_requests] at hrequested ⊢
      exact hrequested

end Core

namespace Console

/-- The next step dispatches a line. -/
def Services (c : Console) (line : Interrupt) : Prop :=
  ∃ report, c.core.step.1 = .ok report ∧ report.activity = .serviced (.only line)

/-- The next step executes an instruction of this kind. -/
def Executes (c : Console) (instr : Instr) : Prop :=
  ∃ report, c.core.step.1 = .ok report ∧ report.activity = .executed instr

/-- What a step has done can be read off its result. -/
def decidableActivity (result : Except Fault Report) (activity : Activity) :
    Decidable (∃ report, result = .ok report ∧ report.activity = activity) :=
  match result with
  | .error _ => .isFalse fun ⟨_, hreport, _⟩ => nomatch hreport
  | .ok report =>
      decidable_of_iff (report.activity = activity)
        ⟨fun h => ⟨report, rfl, h⟩, fun ⟨_, hreport, h⟩ => Except.ok.inj hreport ▸ h⟩

instance (c : Console) (line : Interrupt) : Decidable (c.Services line) :=
  decidableActivity c.core.step.1 (.serviced (.only line))

instance (c : Console) (instr : Instr) : Decidable (c.Executes instr) :=
  decidableActivity c.core.step.1 (.executed instr)

/-- Between two dispatches of a line it has been requested again. -/
theorem exists_raise_between {c : Console} {line : Interrupt} {events : List Event}
    (hfirst : c.Services line) (hsecond : (c.performAll (.step :: events)).Services line) :
    ∃ past act rest, c.actsAll (.step :: events) = past ++ act :: rest ∧
      (c.board.actAll past).requests line = false ∧
      (c.board.actAll (past ++ [act])).requests line = true := by
  rcases hfirst with ⟨report, hstep, hline⟩
  rcases hsecond with ⟨report', hstep', hline'⟩
  rcases Core.acts_of_serviced hstep hline with ⟨before, value, rest, hacts⟩
  have hset := Core.requests_of_serviced hstep' hline'
  -- the bit is clear right after the withdrawal, and the pushed word may already set it again
  have hcleared : (c.board.actAll (before ++ [.withdraw line value])).requests line = false := by
    have hnone := Board.requests_withdraw (c.board.actAll before) value line line
    rw [decide_eq_false (not_not.mpr rfl), Bool.and_false] at hnone
    rw [Board.actAll_append]
    exact hnone
  obtain ⟨later, hlater⟩ : ∃ later,
      c.actsAll (.step :: events) = before ++ [.withdraw line value] ++ later := by
    have hacted : c.acts .step =
        c.core.acts ++ [.timer report.cycles, .picture report.cycles] := by
      dsimp only [acts]
      rw [hstep]
    rw [actsAll, hacted, hacts]
    refine ⟨rest ++ [.timer report.cycles, .picture report.cycles] ++
      (c.perform .step).actsAll events, ?_⟩
    simp only [List.append_assoc, List.cons_append, List.nil_append]
  have hraised :
      ((c.board.actAll (before ++ [.withdraw line value])).actAll later).requests line = true := by
    rw [← Board.actAll_append, ← hlater, ← board_performAll]
    exact hset
  rcases Board.exists_raise hcleared hraised with ⟨past, act, rest', hsplit, hclear, hagain⟩
  refine ⟨before ++ [.withdraw line value] ++ past, act, rest', ?_, ?_, ?_⟩
  · rw [hlater, hsplit]
    exact (List.append_assoc _ _ _).symm
  · rw [Board.actAll_append]
    exact hclear
  · rw [List.append_assoc, Board.actAll_append]
    exact hagain

/-- The dispatch of interrupts. With interrupts on and a line due, a step of a processor that is
    neither locked nor stopped takes 20 cycles to dispatch the most urgent line, provided that the
    stack lies in RAM. And no request is serviced twice: in every run, between two dispatches of a
    line, something has set its bit in IF again. -/
theorem dispatch_once :
    (∀ m : Core NotedBoard, m.cpu.fault = none → m.cpu.stopped = false → m.cpu.ime = true →
      m.due ≠ 0 → (Target.ofAddress (m.cpu.regs.sp - 1)).isRam = true →
      (Target.ofAddress (m.cpu.regs.sp - 2)).isRam = true →
      ∃ line m', LowestBit m.due line.number ∧ m.step = (.ok ⟨20, .serviced (.only line)⟩, m') ∧
        Core.Dispatched m line m') ∧
    (∀ (c : Console) (line : Interrupt) (events : List Event), c.Services line →
      (c.performAll (.step :: events)).Services line →
      ∃ past act rest, c.actsAll (.step :: events) = past ++ act :: rest ∧
        (c.board.actAll past).requests line = false ∧
        (c.board.actAll (past ++ [act])).requests line = true) := by
  constructor
  · intro m hfault hstopped hime hdue hhigh hlow
    exact Core.dispatched_step hfault hstopped hime hdue hhigh hlow
  · intro c line events hfirst hsecond
    exact exists_raise_between hfirst hsecond

/-- A console with interrupts on, requests of V-blank and the joypad, of which only the joypad is
    enabled, and RETI at the joypad's handler. -/
def listener : Console where
  core.cpu := { Processor.boot with ime := true }
  core.bus.board := {
    cartridge := ⟨default, Array.replicate 0x61 0xD9, #[], .plain⟩
    wram := .replicate wramSize 0
    hram := .replicate hramSize 0
    picture := { lcdc := 0 }
    interrupts := { enable := 0x10, requested := (LineSet.only .vblank).union (.only .joypad) }
    joypad := { selected := 0 } }
  settings := {}

/-- The joypad is serviced there; and serviced again if a button is pressed during the handler. -/
theorem dispatch_once_listener :
    (listener.cpu.fault = none ∧ listener.cpu.stopped = false ∧ listener.cpu.ime = true ∧
      listener.core.due ≠ 0 ∧ (Target.ofAddress (listener.cpu.regs.sp - 1)).isRam = true ∧
      (Target.ofAddress (listener.cpu.regs.sp - 2)).isRam = true ∧
      ∃ line m', LowestBit listener.core.due line.number ∧
        listener.core.step = (.ok ⟨20, .serviced (.only line)⟩, m') ∧
        Core.Dispatched listener.core line m') ∧
    (listener.Services .joypad ∧
      (listener.performAll [.step, .press .a, .step]).Services .joypad ∧
      ∃ past act rest, listener.actsAll [.step, .press .a, .step] = past ++ act :: rest ∧
        (listener.board.actAll past).requests .joypad = false ∧
        (listener.board.actAll (past ++ [act])).requests .joypad = true) := by
  have hdue : listener.core.due ≠ 0 := by decide +kernel
  have hhigh : (Target.ofAddress (listener.cpu.regs.sp - 1)).isRam = true := by decide +kernel
  have hlow : (Target.ofAddress (listener.cpu.regs.sp - 2)).isRam = true := by decide +kernel
  have hfirst : listener.Services .joypad := by decide +kernel
  have hsecond : (listener.performAll [.step, .press .a, .step]).Services .joypad := by
    decide +kernel
  refine ⟨⟨rfl, rfl, rfl, hdue, hhigh, hlow, ?_⟩, hfirst, hsecond, ?_⟩
  · exact dispatch_once.1 listener.core rfl rfl rfl hdue hhigh hlow
  · exact dispatch_once.2 listener .joypad [.press .a, .step] hfirst hsecond

end Console

end Handheld
