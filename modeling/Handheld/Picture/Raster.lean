/-
Module: Handheld.Picture.Raster
Purpose: The course of the raster: dot by dot through the modes of a line, line by line through the
  frame, with the interrupts that it requests on its way.
Main exports: Picture.tick, Picture.advance, Picture.statActive, Picture.updateStat, Picture.setLcd
-/
import Handheld.Picture.Line

namespace Handheld.Picture

/-! ### The status interrupt -/

/-- Whether one of the selected sources is active: the line is the one compared with, or the raster
    is in a selected mode. -/
def statActive (u : Picture) : Bool :=
  (u.statSelect &&& 0x40 != 0 && u.ly == u.lyc)
    || (u.statSelect &&& 0x20 != 0 && u.mode == .oamScan)
    || (u.statSelect &&& 0x10 != 0 && u.mode == .vblank)
    || (u.statSelect &&& 0x08 != 0 && u.mode == .hblank)

/-- Bring the status line up to date. An interrupt is requested when it rises, so that a source
    which becomes active while another still is requests none. -/
def updateStat (u : Picture) : Picture × List Signal :=
  let active := u.lcdOn && u.statActive
  let signals : List Signal :=
    if active && !u.statLine then [.request .lcdStat, .statRose u.ly u.mode] else []
  ({ u with statLine := active }, signals)

/-! ### The raster -/

/-- The end of the look-up: the sprites of the line are now known, and with them how long its pixels
    take. -/
def beginTransfer (u : Picture) : Picture :=
  let lineSprites := u.spritesOnLine
  let transferDots := baseTransferDots + u.scx.toNat % 8 + spriteDots * lineSprites.length
  { u with lineSprites, transferDots, mode := .transfer }

/-- Go from the last line of the screen to the first below. The frame is complete. A selected
    look-up source fires here too, unless the status line is up already. -/
def enterVBlank (u : Picture) : Picture × List Signal :=
  let edge : List Signal :=
    if u.statSelect &&& 0x20 != 0 && !u.statLine then [.request .lcdStat] else []
  let signals := .request .vblank :: edge ++ [.enteredVBlank u.ly (u.ly + 1)]
  ({ u with ly := u.ly + 1, mode := .vblank, frameReady := true }, signals)

/-- Go to the next line. -/
def nextLine (u : Picture) : Picture × List Signal :=
  let ly := u.ly + 1
  if ly.toNat = screenHeight then u.enterVBlank
  else if ly.toNat = linesPerFrame then ({ u with ly := 0, windowLine := 0, mode := .oamScan }, [])
  else if ly.toNat < screenHeight then ({ u with ly, mode := .oamScan }, [])
  else ({ u with ly }, [])

/-- Go to the next dot of the current mode, or on to the next mode. -/
def nextDot (u : Picture) : Picture × List Signal :=
  let dot := u.dot + 1
  match u.mode with
  | .oamScan =>
    if dot = scanDots then ({ u with dot }.beginTransfer, []) else ({ u with dot }, [])
  | .transfer =>
    if dot = scanDots + u.transferDots then
      ({ { u with dot }.renderLine with mode := .hblank }, [])
    else ({ u with dot }, [])
  | .hblank | .vblank =>
    if dot = dotsPerLine then { u with dot := 0 }.nextLine else ({ u with dot }, [])

/-- Let one dot pass while the display is on. -/
def tick (u : Picture) : Picture × List Signal :=
  let (u, moved) := u.nextDot
  let (u, rose) := u.updateStat
  (u, moved ++ rose)

/-- Let dots pass after some whose signals are given with the latest first. -/
def ticksFrom : (dots : Nat) → Picture → (latestFirst : List Signal) → Picture × List Signal
  | 0, u, latestFirst => (u, latestFirst)
  | dots + 1, u, latestFirst =>
    let (u, signals) := u.tick
    ticksFrom dots u (signals.reverseAux latestFirst)

/-- Let clock cycles pass while the display is off: nothing is drawn, but each frame's worth of
    cycles still counts as a frame. -/
def idle (u : Picture) (cycles : Nat) : Picture :=
  let total := u.offCycles + cycles
  let frameReady := u.frameReady || cyclesPerFrame ≤ total
  { u with offCycles := total % cyclesPerFrame, frameReady }

/-- Let clock cycles pass. The signals come in the order in which they are given. -/
def advance (u : Picture) (cycles : Nat) : Picture × List Signal :=
  if u.lcdOn then
    let (u, latestFirst) := ticksFrom cycles u []
    (u, latestFirst.reverse)
  else (u.idle cycles, [])

/-! ### Switching the display -/

/-- Follow a change of the display switch: the raster goes to the top of the frame, and there it
    starts or rests. -/
def setLcd (u : Picture) (on : Bool) : Picture × List Signal :=
  if on then
    let (u, rose) :=
      { u with ly := 0, dot := 0, mode := .oamScan, windowLine := 0, offCycles := 0 }.updateStat
    (u, .lcdOn :: rose)
  else
    let signals : List Signal := [.lcdOff u.ly]
    ({ u with ly := 0, dot := 0, mode := .hblank, statLine := false, offCycles := 0 }, signals)

end Handheld.Picture
