/-
Module: Handheld.Proofs.Console.Lockup
Purpose: What becomes of a console whose processor has met a byte that is no instruction. The step
  that fails does nothing to the board, and from then on every step fails with the same fault; only
  the buttons still work.
Main exports: Core.acts_of_failure, Console.Call.outlasted, Console.call_of_locked,
  Console.callAll_of_locked, Console.locked_for_good
-/
import Handheld.Proofs.Console.Calls
import Handheld.Proofs.Processor.Outcome

namespace Handheld

/-! ### The step that fails -/

/-- A read leaves no record. -/
theorem Chronicle.quietReads : QuietReads Chronicle := fun _ _ => rfl

namespace Core

/-- A step that fails writes nothing. It has asked for the request to leave STOP if it was
    stopped. -/
theorem acts_of_failure {m : Core NotedBoard} {fault : Fault} (h : m.step.1 = .error fault) :
    m.acts = [] ∨ m.acts = [.takeWake] := by
  -- the same step on a bus that keeps a record of what is asked of it
  have hrecorded : m.chronicle.step = (.error fault, m.chronicle.step.2) :=
    Prod.ext (m.step_chronicle.1.trans h) rfl
  unfold acts
  generalize m.chronicle.step.2 = after at hrecorded ⊢
  cases failure_step hrecorded with
  | again => exact .inl rfl
  | @fetched awake fetched fault hawake hline hfetch =>
      have hbus : fetched.bus = awake.bus := by
        have hfetched := bus_fetch Chronicle.quietReads awake.poll.2
        rw [hfetch] at hfetched
        exact hfetched.trans (bus_poll Chronicle.quietReads awake)
      have hacts : (fetched.lock fault).bus.acts = awake.bus.acts := by
        rw [← hbus]
        rfl
      rw [hacts]
      cases hawake with
      | already hstopped => exact .inl rfl
      | woken hstopped hwake => exact .inr rfl

end Core

namespace Console

/-! ### A console that has locked up -/

/-- The calls after which a console that has locked up still has: all but a reset and a write past
    the processor. A run has to make at least one step. -/
def Call.outlasted : Call → Bool
  | .step | .press _ | .release _ | .keyDown _ | .keyUp _ => true
  | .runFrame limit => 0 < limit
  | .runFrames limit frames => 0 < limit && 0 < frames
  | .write _ _ | .reset => false

/-- The answer of a console that has locked up. -/
def Call.answerTo (fault : Fault) : Call → Answer
  | .step => .stepped (.error fault)
  | .runFrame _ | .runFrames _ _ => .ran (.fault fault)
  | _ => .nothing

/-- All that a call does to the board of a console that has locked up. -/
def Call.actsLocked (keyMap : KeyMap) : Call → List Board.Act
  | .runFrame _ | .runFrames _ _ => [.forgetFrame]
  | .press button => [.press button]
  | .release button => [.release button]
  | .keyDown code => ((keyMap.button? code).map .press).toList
  | .keyUp code => ((keyMap.button? code).map .release).toList
  | .step | .write _ _ | .reset => []

variable {c : Console} {fault : Fault}

theorem step_of_locked (h : c.cpu.fault = some fault) : c.step = (.error fault, c) := by
  have hfault : c.core.cpu.fault = some fault := h
  have hcore : c.core.step = (.error fault, c.core) := by
    rw [Core.step_eq, hfault]
  rw [Console.step_eq, hcore]

theorem runFrame_of_locked (h : c.cpu.fault = some fault) (limit : Nat) :
    c.runFrame (limit + 1) = (.fault fault, c.forgetFrame) := by
  have hstep : c.forgetFrame.step = (.error fault, c.forgetFrame) := step_of_locked h
  have hrun : c.runFrame (limit + 1) = stepToFrame (limit + 1) c.forgetFrame := rfl
  rw [hrun, stepToFrame, hstep]

theorem runFrames_of_locked (h : c.cpu.fault = some fault) (limit frames : Nat) :
    runFrames (limit + 1) (frames + 1) c = (.fault fault, c.forgetFrame) := by
  rw [runFrames, runFrame_of_locked h]

/-- One call: the answer, and all that it changes. -/
theorem call_of_locked (h : c.cpu.fault = some fault) {call : Call}
    (hcall : call.outlasted = true) :
    (c.call call).1 = call.answerTo fault ∧ (c.call call).2.cpu = c.cpu ∧
      (c.call call).2.settings = c.settings ∧
      (c.call call).2.board = c.board.actAll (call.actsLocked c.settings.keyMap) := by
  cases call with
  | step =>
      unfold Console.call
      dsimp only
      rw [step_of_locked h]
      exact ⟨rfl, rfl, rfl, rfl⟩
  | runFrame limit =>
      obtain ⟨limit, rfl⟩ := Nat.exists_eq_add_one.mpr (of_decide_eq_true hcall)
      unfold Console.call
      dsimp only
      rw [runFrame_of_locked h]
      exact ⟨rfl, rfl, rfl, rfl⟩
  | runFrames limit frames =>
      simp only [Call.outlasted, Bool.and_eq_true, decide_eq_true_eq] at hcall
      obtain ⟨limit, rfl⟩ := Nat.exists_eq_add_one.mpr hcall.1
      obtain ⟨frames, rfl⟩ := Nat.exists_eq_add_one.mpr hcall.2
      unfold Console.call
      dsimp only
      rw [runFrames_of_locked h]
      exact ⟨rfl, rfl, rfl, rfl⟩
  | press button | release button => exact ⟨rfl, rfl, rfl, rfl⟩
  | keyDown code =>
      unfold Console.call keyDown Call.actsLocked
      dsimp only
      cases c.settings.keyMap.button? code <;> exact ⟨rfl, rfl, rfl, rfl⟩
  | keyUp code =>
      unfold Console.call keyUp Call.actsLocked
      dsimp only
      cases c.settings.keyMap.button? code <;> exact ⟨rfl, rfl, rfl, rfl⟩
  | write address value | reset => cases hcall

/-- Any number of calls. -/
theorem callAll_of_locked (h : c.cpu.fault = some fault) {calls : List Call}
    (hcalls : ∀ call ∈ calls, call.outlasted = true) :
    (c.callAll calls).1 = calls.map (Call.answerTo fault) ∧ (c.callAll calls).2.cpu = c.cpu ∧
      (c.callAll calls).2.board =
        c.board.actAll (calls.flatMap (Call.actsLocked c.settings.keyMap)) := by
  induction calls generalizing c with
  | nil => exact ⟨rfl, rfl, rfl⟩
  | cons call rest ih =>
      obtain ⟨hfirst, hrest⟩ := List.forall_mem_cons.mp hcalls
      obtain ⟨hanswer, hcpu, hsettings, hboard⟩ := call_of_locked h hfirst
      obtain ⟨hanswers, hcpus, hboards⟩ := ih ((congrArg Processor.fault hcpu).trans h) hrest
      refine ⟨?_, hcpus.trans hcpu, ?_⟩
      · rw [callAll, List.map_cons, hanswer, hanswers]
      · rw [List.flatMap_cons, Board.actAll_append, ← hboard, ← hsettings]
        exact hboards

/-! ### From the failing step on -/

theorem locked_of_step {c' : Console} (h : c.step = (.error fault, c')) :
    c.core.step.1 = .error fault ∧ c'.cpu.fault = some fault := by
  rw [Console.step_eq] at h
  cases hcore : c.core.step with
  | mk result core =>
      rw [hcore] at h
      cases result with
      | ok report => cases h
      | error earlier =>
          cases h
          exact ⟨rfl, (Core.failure_step hcore).locked⟩

/-- A fault is for good, on every console. The step that fails writes nothing and lets no time pass;
    all it may have done to the board is to take the request to leave STOP. After it every call that
    makes a step answers with the same fault, the processor stays as it is, and only the buttons and
    the mark of a completed frame change on the board. -/
theorem locked_for_good {c' : Console} (h : c.step = (.error fault, c')) :
    (c.core.acts = [] ∧ c'.board = c.board ∨
        c.core.acts = [.takeWake] ∧ c'.board = c.board.takeWake.2) ∧
      ∀ calls : List Call, (∀ call ∈ calls, call.outlasted = true) →
        (c'.callAll calls).1 = calls.map (Call.answerTo fault) ∧
          (c'.callAll calls).2.cpu = c'.cpu ∧
          (c'.callAll calls).2.board =
            c'.board.actAll (calls.flatMap (Call.actsLocked c'.settings.keyMap)) := by
  obtain ⟨hcore, hlocked⟩ := locked_of_step h
  constructor
  · have hboard : c'.board = c.board.actAll c.core.acts := by
      have hacted := c.board_step
      unfold Console.acts at hacted
      rw [h, hcore] at hacted
      exact hacted
    rcases Core.acts_of_failure hcore with hacts | hacts
    · exact .inl ⟨hacts, hboard.trans (by rw [hacts]; rfl)⟩
    · exact .inr ⟨hacts, hboard.trans (by rw [hacts]; rfl)⟩
  · intro calls hcalls
    exact callAll_of_locked hlocked hcalls

/-- A console that meets a hole of the instruction set at the entry point. -/
theorem locked_for_good_entry : ∃ c c' notes, powerOn (entryRom 0xD3) {} = (.ok c, notes) ∧
    c.step = (.error ⟨0xD3, 0x100⟩, c') ∧ c'.board = c.board ∧
      (c'.callAll [.press .a, .step, .runFrames 1 3]).1 =
        [.nothing, .stepped (.error ⟨0xD3, 0x100⟩), .ran (.fault ⟨0xD3, 0x100⟩)] ∧
      (c'.callAll [.press .a, .step, .runFrames 1 3]).2.board =
        c'.board.actAll [.press .a, .forgetFrame] := by
  obtain ⟨c, notes, h, hcpu, -, henable, hopcode⟩ := powerOn_entryRom 0xD3
  rcases c with ⟨⟨cpu, bus⟩, settings⟩
  obtain rfl : cpu = .boot := hcpu
  have hcore := Core.step_illegal (m := ⟨.boot, bus⟩) rfl rfl rfl rfl henable hopcode rfl
  have hstep : step ⟨⟨.boot, bus⟩, settings⟩ =
      (.error ⟨0xD3, 0x100⟩, ⟨(Core.step ⟨.boot, bus⟩).2, settings⟩) := by
    rw [Console.step_eq, hcore]
    rfl
  obtain ⟨-, hlater⟩ := locked_for_good hstep
  obtain ⟨hanswers, -, hboard⟩ := hlater [.press .a, .step, .runFrames 1 3] (by decide)
  refine ⟨_, _, notes, h, hstep, ?_, hanswers, hboard⟩
  change (Core.step ⟨.boot, bus⟩).2.bus.board = bus.board
  rw [hcore]
  rfl

end Console

end Handheld
