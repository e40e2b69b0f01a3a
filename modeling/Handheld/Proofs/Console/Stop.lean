/-
Module: Handheld.Proofs.Console.Stop
Purpose: STOP. A console that waits in STOP answers every step after four cycles and changes nothing
  but its clock and its buttons, whatever interrupts are due and whatever was pressed before. The
  press of a button that is not held ends it, and no such press is lost.
Main exports: Core.leaveStop, Console.InStop, Console.Call.isSingle, Console.presses, Console.quiet,
  Console.Resumes, Console.callAll_inStop, Console.stop_until_press
-/
import Handheld.Proofs.Board.Clock
import Handheld.Proofs.Console.Calls
import Handheld.Proofs.Console.Dispatch
import Handheld.Proofs.Console.Presses
import Handheld.Proofs.Processor.Control

namespace Handheld

/-! ### The request to leave STOP -/

namespace Board

variable (b : Board) (button : Button)

/-- Every press of a button that is not held makes a request to leave STOP. -/
theorem wake_press (h : b.isHeld button = false) : (b.press button).1.joypad.wake = true := by
  rw [press_eq h]
  rfl

/-- No press takes the request back. -/
theorem wake_press_of_wake (h : b.joypad.wake = true) : (b.press button).1.joypad.wake = true := by
  cases hheld : b.isHeld button with
  | true => rwa [press_of_held hheld]
  | false => exact wake_press b button hheld

theorem wake_release : (b.release button).joypad.wake = b.joypad.wake := by
  unfold release Joypad.release Joypad.setGroup
  dsimp only
  split <;> rfl

/-- The request to leave STOP cannot be read. -/
theorem read_takeWake (address : UInt16) : b.takeWake.2.read address = b.read address := by
  unfold read
  cases Target.ofAddress address <;> rfl

end Board

/-! ### Into STOP and out of it -/

namespace Core

variable {m m' : Core NotedBoard} {report : Report}

/-- The processor that has taken the request to leave STOP. -/
def leaveStop (m : Core NotedBoard) : Core NotedBoard :=
  { m.takeWake.2.tell .leftStop with cpu.stopped := false }

/-- A step that executes STOP leaves a processor that waits in STOP and nowhere else, and drops the
    request that earlier presses have made. -/
theorem stall_of_stop (h : m.step = (.ok report, m')) (hstop : report.activity = .executed .stop) :
    m'.cpu.stall = (none, false, true) ∧ m'.bus.board.joypad.wake = false := by
  obtain ⟨awake, fetched, hawake, -, hfetch, rfl⟩ := (outcome_step h).executed_inv hstop
  have hpolled := congrArg Processor.fault awake.control_poll
  have hfetched := congrArg Processor.fault awake.poll.2.control_fetch
  rw [hfetch] at hfetched
  have hfault : fetched.cpu.fault = none :=
    calc fetched.cpu.fault
      _ = awake.poll.2.cpu.fault := hfetched
      _ = awake.cpu.fault := hpolled
      _ = m.cpu.fault := fault_of_awake hawake
      _ = none := fault_of_ok h
  have hstall : (fetched.execute .stop).2.cpu.stall = (fetched.cpu.fault, false, true) := rfl
  exact ⟨(stall_settleEnable _).trans (hstall.trans (by rw [hfault])), rfl⟩

theorem due_leaveStop (m : Core NotedBoard) : m.leaveStop.due = m.due := by
  have hread (address : UInt16) :
      m.leaveStop.bus.board.read address = m.bus.board.read address :=
    Board.read_takeWake _ address
  unfold due
  rw [hread, hread]

variable (hstall : m.cpu.stall = (none, false, true))
include hstall

/-- In STOP nothing happens without a request to leave it. -/
theorem step_of_stopped (hwake : m.bus.board.joypad.wake = false) :
    m.step = (.ok ⟨4, .idle⟩, m) := by
  obtain ⟨hfault, -, hstopped⟩ := by simpa only [Processor.stall, Prod.mk.injEq] using hstall
  have htaken : m.takeWake = (false, m) := by
    rcases m with ⟨cpu, ⟨board, notes⟩⟩
    have hjoypad : board.joypad.takeWake = (false, board.joypad) := by
      unfold Joypad.takeWake
      rw [hwake, ← hwake]
    unfold Core.takeWake
    simp only [Bus.takeWake, Board.takeWake, hjoypad]
  rw [step_eq, hfault]
  dsimp only
  rw [if_pos hstopped, htaken]
  rfl

theorem step_of_woken (hwake : m.bus.board.joypad.wake = true) :
    m.step = m.leaveStop.stepAwake := by
  obtain ⟨hfault, -, hstopped⟩ := by simpa only [Processor.stall, Prod.mk.injEq] using hstall
  have htaken : m.takeWake.1 = true := hwake
  rw [step_eq, hfault]
  dsimp only
  rw [if_pos hstopped, htaken]
  rfl

end Core

namespace Console

/-! ### What is done with a console in STOP -/

/-- A console that waits in STOP, with no request to leave it. -/
structure InStop (c : Console) : Prop where
  stall : c.cpu.stall = (none, false, true)
  wake : c.board.joypad.wake = false

/-- The button that a call presses. -/
def Call.pressed? (keyMap : KeyMap) : Call → Option Button
  | .press button => some button
  | .keyDown code => keyMap.button? code
  | _ => none

/-- The calls for buttons. -/
def Call.isButton : Call → Bool
  | .press _ | .release _ | .keyDown _ | .keyUp _ => true
  | _ => false

/-- The calls for buttons, and single steps. -/
def Call.isSingle (call : Call) : Bool :=
  call.isButton || call == .step

/-- The call presses a button that is not held. -/
def presses (c : Console) (call : Call) : Bool :=
  (call.pressed? c.settings.keyMap).any fun button => !c.board.isHeld button

/-- Single steps and the use of buttons, without the press of a button that is not held at that
    moment. -/
def quiet (c : Console) : List Call → Bool
  | [] => true
  | call :: rest => call.isSingle && !c.presses call && (c.call call).2.quiet rest

/-- The answer to a single step or the use of a button in STOP. -/
def Call.answerInStop : Call → Answer
  | .step => .stepped (.ok 4)
  | _ => .nothing

variable {c : Console}

theorem step_inStop (h : c.InStop) : c.step = (.ok 4, c.mapNoted fun b => b.advance 4) := by
  rw [Console.step_eq, Core.step_of_stopped h.stall h.wake]
  rfl

/-- What a call leaves as it was, if it does not end STOP. -/
structure Keeps (c after : Console) : Prop where
  cpu : after.cpu = c.cpu
  wake : after.board.joypad.wake = c.board.joypad.wake
  memory : after.board.memory = c.board.memory

theorem Keeps.refl (c : Console) : Keeps c c :=
  ⟨rfl, rfl, rfl⟩

theorem Keeps.trans {next after : Console} (h : Keeps c next) (h' : Keeps next after) :
    Keeps c after :=
  ⟨h'.cpu.trans h.cpu, h'.wake.trans h.wake, h'.memory.trans h.memory⟩

theorem Keeps.inStop {after : Console} (h : Keeps c after) (hc : c.InStop) : after.InStop :=
  ⟨(congrArg Processor.stall h.cpu).trans hc.stall, h.wake.trans hc.wake⟩

theorem keeps_advance (c : Console) (cycles : Nat) :
    Keeps c (c.mapNoted fun b => b.advance cycles) := by
  have hboard : (c.mapNoted fun b => b.advance cycles).board = (c.board.advance cycles).1 :=
    c.board_mapNoted _
  exact ⟨rfl, by rw [hboard, Board.joypad_advance], by rw [hboard, Board.memory_advance]⟩

theorem keeps_press {button : Button} (h : c.board.isHeld button = true) :
    Keeps c (c.press button) := by
  have hboard : (c.press button).board = c.board :=
    congrArg Prod.fst (Board.press_of_held h)
  exact ⟨rfl, by rw [hboard], by rw [hboard]⟩

theorem keeps_release (c : Console) (button : Button) : Keeps c (c.release button) :=
  ⟨rfl, c.board.wake_release button, rfl⟩

/-- One call. -/
theorem call_inStop (hc : c.InStop) {call : Call} (hsingle : call.isSingle = true)
    (hquiet : c.presses call = false) :
    (c.call call).1 = call.answerInStop ∧ Keeps c (c.call call).2 := by
  cases call with
  | step =>
      unfold Console.call
      dsimp only
      rw [step_inStop hc]
      exact ⟨rfl, c.keeps_advance 4⟩
  | press button =>
      have hheld : c.board.isHeld button = true := by
        simpa [presses, Call.pressed?] using hquiet
      exact ⟨rfl, keeps_press hheld⟩
  | release button => exact ⟨rfl, c.keeps_release button⟩
  | keyDown code =>
      refine ⟨rfl, ?_⟩
      unfold Console.call keyDown
      unfold presses Call.pressed? at hquiet
      dsimp only at hquiet ⊢
      cases hbutton : c.settings.keyMap.button? code with
      | none => exact .refl c
      | some button =>
          rw [hbutton] at hquiet
          exact keeps_press (by simpa using hquiet)
  | keyUp code =>
      refine ⟨rfl, ?_⟩
      unfold Console.call keyUp
      dsimp only
      cases c.settings.keyMap.button? code with
      | none => exact .refl c
      | some button => exact c.keeps_release button
  | runFrame limit | runFrames limit frames | write address value | reset => cases hsingle

/-- Any number of calls. -/
theorem callAll_inStop (hc : c.InStop) {calls : List Call} (hcalls : c.quiet calls = true) :
    (c.callAll calls).1 = calls.map Call.answerInStop ∧ Keeps c (c.callAll calls).2 := by
  induction calls generalizing c with
  | nil => exact ⟨rfl, .refl c⟩
  | cons call rest ih =>
      simp only [quiet, Bool.and_eq_true, Bool.not_eq_true'] at hcalls
      obtain ⟨⟨hsingle, hquiet⟩, hrest⟩ := hcalls
      obtain ⟨hanswer, hfirst⟩ := call_inStop hc hsingle hquiet
      obtain ⟨hanswers, hlater⟩ := ih (hfirst.inStop hc) hrest
      refine ⟨?_, hfirst.trans hlater⟩
      rw [callAll, List.map_cons, hanswer, hanswers]

/-! ### The press that ends it -/

/-- The next step takes the console out of STOP. With interrupts on and a line due it dispatches the
    most urgent one, and else it executes the instruction at the program counter. -/
structure Resumes (c : Console) : Prop where
  dispatches : c.cpu.ime = true → c.core.due ≠ 0 → ∃ line, LowestBit c.core.due line.number ∧
    c.core.step = (.ok ⟨20, .serviced (.only line)⟩, c.core.leaveStop.service (.only line))
  executes : c.cpu.ime = false ∨ c.core.due = 0 → c.core.step = c.core.leaveStop.runInstruction

theorem resumes (hstall : c.cpu.stall = (none, false, true)) (hwake : c.board.joypad.wake = true) :
    c.Resumes := by
  have hstep : c.core.step = c.core.leaveStop.stepAwake := Core.step_of_woken hstall hwake
  have hhalted : c.core.leaveStop.cpu.halted = false := congrArg (fun stall => stall.2.1) hstall
  constructor
  · intro hime hdue
    obtain ⟨line, hlowest, hserviced⟩ := Core.stepAwake_of_due (m := c.core.leaveStop) hime
      (by rwa [Core.due_leaveStop])
    rw [Core.due_leaveStop] at hlowest
    have hsame : ({ c.core.leaveStop with cpu.halted := false } : Core NotedBoard) =
        c.core.leaveStop := by
      rw [← hhalted]
    rw [hsame] at hserviced
    exact ⟨line, hlowest, hstep.trans hserviced⟩
  · intro hnone
    rw [← Core.due_leaveStop] at hnone
    exact hstep.trans (Core.stepAwake_of_running hhalted hnone)

/-- The use of buttons leaves the processor alone and takes no request back. -/
theorem call_button {call : Call} (h : call.isButton = true) : (c.call call).2.cpu = c.cpu ∧
    (c.board.joypad.wake = true → (c.call call).2.board.joypad.wake = true) := by
  have hpress (button : Button) (hwake : c.board.joypad.wake = true) :
      (c.press button).board.joypad.wake = true :=
    c.board.wake_press_of_wake button hwake
  have hrelease (button : Button) (hwake : c.board.joypad.wake = true) :
      (c.release button).board.joypad.wake = true :=
    (c.board.wake_release button).trans hwake
  cases call with
  | press button => exact ⟨rfl, hpress button⟩
  | release button => exact ⟨rfl, hrelease button⟩
  | keyDown code =>
      unfold Console.call keyDown
      dsimp only
      cases c.settings.keyMap.button? code with
      | none => exact ⟨rfl, id⟩
      | some button => exact ⟨rfl, hpress button⟩
  | keyUp code =>
      unfold Console.call keyUp
      dsimp only
      cases c.settings.keyMap.button? code with
      | none => exact ⟨rfl, id⟩
      | some button => exact ⟨rfl, hrelease button⟩
  | step | runFrame limit | runFrames limit frames | write address value | reset => cases h

theorem callAll_buttons {calls : List Call} (h : ∀ call ∈ calls, call.isButton = true) :
    (c.callAll calls).2.cpu = c.cpu ∧
      (c.board.joypad.wake = true → (c.callAll calls).2.board.joypad.wake = true) := by
  induction calls generalizing c with
  | nil => exact ⟨rfl, id⟩
  | cons call rest ih =>
      obtain ⟨hfirst, hrest⟩ := List.forall_mem_cons.mp h
      obtain ⟨hcpu, hwake⟩ := call_button (c := c) hfirst
      obtain ⟨hcpus, hwakes⟩ := ih (c := (c.call call).2) hrest
      exact ⟨hcpus.trans hcpu, fun hbefore => hwakes (hwake hbefore)⟩

/-- The call that presses a button anew is one for buttons, and makes the request. -/
theorem call_presses {call : Call} (h : c.presses call = true) :
    call.isButton = true ∧ (c.call call).2.board.joypad.wake = true := by
  cases call with
  | press button =>
      have hfree : c.board.isHeld button = false := by
        simpa [presses, Call.pressed?] using h
      exact ⟨rfl, c.board.wake_press button hfree⟩
  | keyDown code =>
      unfold Console.call keyDown
      unfold presses Call.pressed? at h
      dsimp only at h ⊢
      cases hbutton : c.settings.keyMap.button? code with
      | none =>
          rw [hbutton] at h
          cases h
      | some button =>
          rw [hbutton] at h
          exact ⟨rfl, c.board.wake_press button (by simpa using h)⟩
  | _ => cases h

theorem inStop_of_stop (h : c.Executes .stop) : c.step.2.InStop := by
  obtain ⟨report, hreport, hstop⟩ := h
  have hcore : c.core.step = (.ok report, c.core.step.2) := Prod.ext hreport rfl
  obtain ⟨hstall, hwake⟩ := Core.stall_of_stop hcore hstop
  have hstep : c.step.2 =
      { c with core := ⟨c.core.step.2.cpu, c.core.step.2.bus.advance report.cycles⟩ } := by
    rw [Console.step_eq, hreport]
  rw [hstep]
  refine ⟨hstall, ?_⟩
  have hkept := Board.joypad_advance c.core.step.2.bus.board report.cycles
  exact (congrArg Joypad.wake hkept).trans hwake

/-- STOP ends on the press of a button that is not held, and on nothing else. From any console that
    executes STOP on, single steps and the use of buttons without such a press leave the processor
    and all memory as they are, and every step takes four cycles. After such a press, whatever is
    then done with buttons and whichever group of them the joypad shows, the next step goes on. -/
theorem stop_until_press (h : c.Executes .stop) {calls : List Call}
    (hcalls : c.step.2.quiet calls = true) :
    (c.step.2.callAll calls).1 = calls.map Call.answerInStop ∧
      (c.step.2.callAll calls).2.cpu = c.step.2.cpu ∧
      (c.step.2.callAll calls).2.board.memory = c.step.2.board.memory ∧
      ∀ (press : Call) (buttons : List Call), (c.step.2.callAll calls).2.presses press = true →
        (∀ call ∈ buttons, call.isButton = true) →
        ((c.step.2.callAll calls).2.callAll (press :: buttons)).2.cpu = c.step.2.cpu ∧
          ((c.step.2.callAll calls).2.callAll (press :: buttons)).2.Resumes := by
  have hentered := inStop_of_stop h
  obtain ⟨hanswers, hkeeps⟩ := callAll_inStop hentered hcalls
  refine ⟨hanswers, hkeeps.cpu, hkeeps.memory, ?_⟩
  intro press buttons hpress hbuttons
  generalize (c.step.2.callAll calls).2 = waiting at hkeeps hpress
  obtain ⟨hbutton, hwake⟩ := call_presses hpress
  obtain ⟨hpressed, -⟩ := call_button (c := waiting) hbutton
  obtain ⟨hcpu, hstays⟩ := callAll_buttons (c := (waiting.call press).2) hbuttons
  have hsame : (waiting.callAll (press :: buttons)).2.cpu = c.step.2.cpu :=
    hcpu.trans (hpressed.trans hkeeps.cpu)
  exact ⟨hsame, resumes ((congrArg Processor.stall hsame).trans hentered.stall) (hstays hwake)⟩

/-- A program of nothing but STOP, on a console with A held, whose press has been noticed by nobody
    yet, and with requests due. -/
def stopper : Console where
  core.cpu := .boot
  core.bus.board := {
    cartridge := ⟨default, Array.replicate 0x110 0x10, #[], .plain⟩
    wram := .replicate wramSize 0
    hram := .replicate hramSize 0
    picture := { lcdc := 0 }
    interrupts := { enable := 0x1F, requested := (LineSet.only .vblank).union (.only .joypad) }
    joypad := { actions := Button.a.bit, wake := true } }
  settings := {}

/-- Neither the press from before nor the due requests take it out of STOP, nor A pressed once more
    or let go, nor the key bound to A let go or a key without a button. A pressed after that does,
    although it is let go before the next step. -/
theorem stop_until_press_stopper :
    stopper.Executes .stop ∧
      stopper.step.2.quiet [.step, .press .a, .step, .release .a, .keyUp 90, .keyDown 7] = true ∧
      (stopper.step.2.callAll [.step, .press .a, .step, .release .a, .keyUp 90, .keyDown 7]).1 =
        [.stepped (.ok 4), .nothing, .stepped (.ok 4), .nothing, .nothing, .nothing] ∧
      ((stopper.step.2.callAll
        [.step, .press .a, .step, .release .a, .keyUp 90, .keyDown 7]).2.callAll
          [.keyDown 90, .release .a]).2.Resumes := by
  have hstop : stopper.Executes .stop := by decide +kernel
  have hquiet : stopper.step.2.quiet
      [.step, .press .a, .step, .release .a, .keyUp 90, .keyDown 7] = true := by decide +kernel
  have hpress : (stopper.step.2.callAll
      [.step, .press .a, .step, .release .a, .keyUp 90, .keyDown 7]).2.presses (.keyDown 90) =
        true := by decide +kernel
  obtain ⟨hanswers, -, -, hresumes⟩ := stop_until_press hstop hquiet
  refine ⟨hstop, hquiet, hanswers, ?_⟩
  exact (hresumes (.keyDown 90) [.release .a] hpress (by decide)).2

end Console

end Handheld
