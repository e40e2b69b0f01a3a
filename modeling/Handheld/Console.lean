/-
Module: Handheld.Console
Purpose: The console: processor and board on one clock. It is built from a cartridge image, stepped
  by instructions or by frames, and given button presses.
Main exports: Console, Console.powerOn, Console.step, Console.runCycles, Console.runFrame,
  Console.runFrames, Console.press, Console.keyDown, Console.reset
-/
import Handheld.Board.Noted
import Handheld.KeyMap
import Handheld.Processor.Step

namespace Handheld

/-- What is chosen when a console is built. -/
structure Settings where
  keyMap : KeyMap := .standard
  ramFill : RamFill := .standard
deriving DecidableEq, Repr

/-- The console. -/
structure Console where
  core : Core NotedBoard
  settings : Settings

namespace Console

/-- The processor. -/
def cpu (c : Console) : Processor :=
  c.core.cpu

/-- The board. -/
def board (c : Console) : Board :=
  c.core.bus.board

/-- Change the board. -/
@[inline]
def mapBoard (c : Console) (f : Board → Board) : Console :=
  { c with core.bus.board := f c.core.bus.board }

/-- Change the board, and keep the notes that the change makes. -/
@[inline]
def mapNoted (c : Console) (f : Board → Board × List Note) : Console :=
  { c with core.bus := c.core.bus.noting f }

/-- The notes made since the last time, in the order in which they were made, and the console
    without them. -/
def takeNotes (c : Console) : List Note × Console :=
  (c.core.bus.latestFirst.reverse, { c with core.bus.latestFirst := [] })

/-- Build a console around a cartridge image, as the boot program leaves it. The notes made on the
    way are returned also when the image is refused. -/
def powerOn (rom : Array UInt8) (settings : Settings) :
    Except Cartridge.LoadError Console × List Note :=
  match Cartridge.load rom with
  | (.error e, notes) => (.error e, notes)
  | (.ok cartridge, notes) =>
    let board := Board.powerOn cartridge settings.ramFill
    (.ok { core := ⟨.boot, ⟨board, []⟩⟩, settings }, notes)

/-- Switch off and on again. The cartridge stays in, and so do its RAM and the settings. -/
def reset (c : Console) : Console :=
  let c := c.mapBoard fun b => b.reset c.settings.ramFill
  { c with core.cpu := .boot }

/-! ### Stepping -/

/-- One step of the processor, followed by the rest of the machine for as many clock cycles as it
    took. The answer is that number. After a fault nothing follows. -/
def step (c : Console) : Except Fault Nat × Console :=
  match c.core.step with
  | (.error fault, core) => (.error fault, { c with core })
  | (.ok report, core) =>
    (.ok report.cycles, { c with core := { core with bus := core.bus.advance report.cycles } })

/-- Step until `target` cycles have passed since `elapsed` was zero, with no more than `limit`
    steps. -/
def stepToCycle : (limit elapsed target : Nat) → Console → Except Fault Nat × Console
  | 0, elapsed, _, c => (.ok elapsed, c)
  | limit + 1, elapsed, target, c =>
    if target ≤ elapsed then (.ok elapsed, c)
    else
      match c.step with
      | (.error fault, c) => (.error fault, c)
      | (.ok cycles, c) => stepToCycle limit (elapsed + cycles) target c

/-- Step until at least `cycles` cycles have passed. The answer is how many have. No step takes no
    time, so there are no more steps than cycles. -/
def runCycles (cycles : Nat) (c : Console) : Except Fault Nat × Console :=
  stepToCycle cycles 0 cycles c

/-- How a run ended. -/
inductive RunEnd where
  /-- What was to be reached has been reached. -/
  | done
  | fault (fault : Fault)
  /-- The given number of steps did not suffice. -/
  | unfinished
deriving DecidableEq, Repr

/-- Step until a frame is complete, with no more than `limit` steps. A program that keeps switching
    the display off and on never completes one. -/
def stepToFrame : (limit : Nat) → Console → RunEnd × Console
  | 0, c => (.unfinished, c)
  | limit + 1, c =>
    match c.step with
    | (.error fault, c) => (.fault fault, c)
    | (.ok _, c) =>
      if c.core.bus.board.picture.frameReady then
        (.done, c.mapBoard fun b => { b with picture := b.picture.clearFrameReady })
      else stepToFrame limit c

/-- Run until the next frame is complete: until the raster has left the screen or, with the display
    off, a frame's worth of cycles has passed. A frame that was complete before does not count. -/
def runFrame (limit : Nat) (c : Console) : RunEnd × Console :=
  stepToFrame limit (c.mapBoard fun b => { b with picture := b.picture.clearFrameReady })

/-- Run for `frames` frames, each with no more than `limit` steps. -/
def runFrames (limit : Nat) : (frames : Nat) → Console → RunEnd × Console
  | 0, c => (.done, c)
  | frames + 1, c =>
    match c.runFrame limit with
    | (.done, c) => runFrames limit frames c
    | stopped => stopped

/-- The most steps of a frame that callers without a limit of their own allow. A frame of a program
    that leaves the display alone takes at most as many steps as it has cycles. -/
def frameLimit : Nat := 1 <<< 40

/-! ### Buttons -/

/-- Press a button. -/
def press (c : Console) (button : Button) : Console :=
  c.mapNoted fun b => b.press button

/-- Let a button go. -/
def release (c : Console) (button : Button) : Console :=
  c.mapBoard fun b => b.release button

/-- Press the button bound to a key, if there is one. -/
def keyDown (c : Console) (code : UInt32) : Console :=
  match c.settings.keyMap.button? code with
  | some button => c.press button
  | none => c

/-- Let the button bound to a key go, if there is one. -/
def keyUp (c : Console) (code : UInt32) : Console :=
  match c.settings.keyMap.button? code with
  | some button => c.release button
  | none => c

/-! ### Observation -/

/-- The picture on the screen. -/
def frame (c : Console) : Picture.Frame :=
  c.board.picture.frame

/-- The cartridge's header. -/
def header (c : Console) : Cartridge.Header :=
  c.board.cartridge.header

/-- The current line of the raster. -/
def line (c : Console) : UInt8 :=
  c.board.picture.ly

/-- Text in quotes, with quotes and backslashes escaped. -/
def quoted (s : String) : String :=
  let escape (c : Char) : List Char := if c == '"' || c == '\\' then ['\\', c] else [c]
  String.ofList ('"' :: s.toList.flatMap escape ++ ['"'])

/-- The console in a few words. -/
def describe (c : Console) : String :=
  "GameBoy \x7b title: " ++ quoted c.header.title ++ ", pc: " ++ toString c.cpu.regs.pc
    ++ ", ly: " ++ toString c.line ++ ", .. \x7d"

end Console

end Handheld
