/-
Module: Handheld.Proofs.Console.Calls
Purpose: What a console can be asked to do, and what it answers. Calls are what its callers see of a
  console: whatever they do to the board they do by acts, and none of them changes the settings.
Main exports: Console.Call, Console.Answer, Console.call, Console.callAll,
  Console.exists_acts_callAll
-/
import Handheld.Proofs.Console.Chronicle

namespace Handheld

namespace Console

/-- What a console can be asked to do. -/
inductive Call where
  | step
  | runFrame (limit : Nat)
  | runFrames (limit frames : Nat)
  | press (button : Button)
  | release (button : Button)
  | keyDown (code : UInt32)
  | keyUp (code : UInt32)
  /-- Write a byte of the board past the processor. -/
  | write (address : UInt16) (value : UInt8)
  | reset
deriving DecidableEq, Repr

/-- What a console answers. -/
inductive Answer where
  | nothing
  | stepped (result : Except Fault Nat)
  | ran (result : RunEnd)

/-- Write a byte of the board past the processor. -/
def write (c : Console) (address : UInt16) (value : UInt8) : Console :=
  c.mapNoted fun b => b.write address value

/-- The answer to a call, and the console after it. -/
def call (c : Console) : Call → Answer × Console
  | .step => (.stepped c.step.1, c.step.2)
  | .runFrame limit => (.ran (c.runFrame limit).1, (c.runFrame limit).2)
  | .runFrames limit frames => (.ran (runFrames limit frames c).1, (runFrames limit frames c).2)
  | .press button => (.nothing, c.press button)
  | .release button => (.nothing, c.release button)
  | .keyDown code => (.nothing, c.keyDown code)
  | .keyUp code => (.nothing, c.keyUp code)
  | .write address value => (.nothing, c.write address value)
  | .reset => (.nothing, c.reset)

/-- The answers to calls in order, and the console after them. -/
def callAll (c : Console) : List Call → List Answer × Console
  | [] => ([], c)
  | call :: rest =>
    ((c.call call).1 :: ((c.call call).2.callAll rest).1, ((c.call call).2.callAll rest).2)

/-! ### What calls do to the board -/

theorem exists_events_runFrames (limit frames : Nat) (c : Console) :
    ∃ events, (runFrames limit frames c).2 = c.performAll events := by
  induction frames generalizing c with
  | zero => exact ⟨[], rfl⟩
  | succ frames ih =>
      rcases exists_events_stepToFrame limit c.forgetFrame with ⟨events, hrun⟩
      have hframe : (c.runFrame limit).2 = c.performAll (.forgetFrame :: events) := hrun
      rcases ih (c.runFrame limit).2 with ⟨later, hrest⟩
      unfold runFrames
      cases hfirst : c.runFrame limit with
      | mk result next =>
          rw [hfirst] at hframe hrest
          dsimp only at hframe hrest
          cases result with
          | done =>
              refine ⟨.forgetFrame :: events ++ later, ?_⟩
              rw [performAll_append, ← hframe]
              exact hrest
          | fault fault => exact ⟨_, hframe⟩
          | unfinished => exact ⟨_, hframe⟩

theorem settings_perform (c : Console) (event : Event) :
    (c.perform event).settings = c.settings := by
  cases event with
  | step =>
      have hstep := c.step_eq
      unfold perform
      dsimp only
      rw [hstep]
      cases c.core.step.1 <;> rfl
  | keyDown code =>
      unfold perform keyDown
      dsimp only
      cases c.settings.keyMap.button? code <;> rfl
  | keyUp code =>
      unfold perform keyUp
      dsimp only
      cases c.settings.keyMap.button? code <;> rfl
  | _ => rfl

theorem settings_performAll (c : Console) (events : List Event) :
    (c.performAll events).settings = c.settings := by
  induction events generalizing c with
  | nil => rfl
  | cons event rest ih => exact (ih (c.perform event)).trans (c.settings_perform event)

/-- Every call is events in order, or a write past the processor. -/
theorem exists_events_call (c : Console) (call : Call) :
    (∃ events, (c.call call).2 = c.performAll events) ∨
      ∃ address value, (c.call call).2 = c.write address value := by
  cases call with
  | step => exact .inl ⟨[.step], rfl⟩
  | runFrame limit =>
      rcases exists_events_stepToFrame limit c.forgetFrame with ⟨events, hrun⟩
      exact .inl ⟨.forgetFrame :: events, hrun⟩
  | runFrames limit frames => exact .inl (exists_events_runFrames limit frames c)
  | press button => exact .inl ⟨[.press button], rfl⟩
  | release button => exact .inl ⟨[.release button], rfl⟩
  | keyDown code => exact .inl ⟨[.keyDown code], rfl⟩
  | keyUp code => exact .inl ⟨[.keyUp code], rfl⟩
  | write address value => exact .inr ⟨address, value, rfl⟩
  | reset => exact .inl ⟨[.reset], rfl⟩

theorem exists_acts_call (c : Console) (call : Call) :
    ∃ acts, (c.call call).2.board = c.board.actAll acts ∧
      (c.call call).2.settings = c.settings := by
  rcases c.exists_events_call call with ⟨events, hevents⟩ | ⟨address, value, hwrite⟩
  · rw [hevents]
    exact ⟨c.actsAll events, c.board_performAll events, c.settings_performAll events⟩
  · rw [hwrite]
    exact ⟨[.write address value], rfl, rfl⟩

/-- Whatever calls do to the board they do by acts, and they leave the settings alone. -/
theorem exists_acts_callAll (c : Console) (calls : List Call) :
    ∃ acts, (c.callAll calls).2.board = c.board.actAll acts ∧
      (c.callAll calls).2.settings = c.settings := by
  induction calls generalizing c with
  | nil => exact ⟨[], rfl, rfl⟩
  | cons call rest ih =>
      obtain ⟨acts, hboard, hsettings⟩ := c.exists_acts_call call
      obtain ⟨later, hlater, hkept⟩ := ih (c.call call).2
      refine ⟨acts ++ later, ?_, hkept.trans hsettings⟩
      rw [Board.actAll_append, ← hboard]
      exact hlater

end Console

end Handheld
