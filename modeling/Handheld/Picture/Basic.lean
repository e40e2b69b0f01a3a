/-
Module: Handheld.Picture.Basic
Purpose: The state of the picture unit: its memories, registers and raster position, what a
  cartridge finds at power-on, and the processor's access to the two memories.
Main exports: Picture, Picture.lcdOn, Picture.Palettes, Picture.Signal, Picture.readVram,
  Picture.writeOam
-/
import Handheld.Interrupt
import Handheld.Picture.Frame
import Handheld.Picture.Mode

namespace Handheld

namespace Picture

/-- The size of video memory. -/
def vramSize : Nat := 0x2000

/-- The size of the sprite table: forty sprites of four bytes. -/
def oamSize : Nat := 160

/-- The number of sprites in the table. -/
def spriteCount : Nat := 40

/-- Dots of a line. -/
def dotsPerLine : Nat := 456

/-- Dots at the start of a line during which its sprites are looked up. -/
def scanDots : Nat := 80

/-- Dots that a line's pixels take at least. -/
def baseTransferDots : Nat := 172

/-- Further dots for each sprite on the line. -/
def spriteDots : Nat := 6

/-- Lines of a frame, those below the screen included. -/
def linesPerFrame : Nat := 154

/-- Clock cycles of a frame. -/
def cyclesPerFrame : Nat := dotsPerLine * linesPerFrame

/-- Sprites that a line can show. -/
def spritesPerLine : Nat := 10

/-- What the picture unit tells the rest of the machine. -/
inductive Signal where
  /-- Request an interrupt. -/
  | request (line : Interrupt)
  /-- The raster has gone from the last line of the screen to the first one below. -/
  | enteredVBlank (last first : UInt8)
  /-- The status line has risen. -/
  | statRose (line : UInt8) (mode : Mode)
  | lcdOn
  | lcdOff (line : UInt8)
deriving DecidableEq, Repr

/-- The three palette registers. -/
structure Palettes where
  background : UInt8
  sprite0 : UInt8
  sprite1 : UInt8
deriving DecidableEq, Repr

/-- The palettes for display. -/
def Palettes.describe (p : Palettes) : String :=
  "Palettes \x7b bgp: " ++ toString p.background ++ ", obp0: " ++ toString p.sprite0
    ++ ", obp1: " ++ toString p.sprite1 ++ " \x7d"

end Picture

open Picture in
/-- The picture unit. Its fields have the values that a cartridge finds at power-on: the display and
    the background are on, and the raster is at the top of a frame. -/
structure Picture where
  vram : Vector UInt8 vramSize := Vector.replicate vramSize 0
  /-- The sprite table. -/
  oam : Vector UInt8 oamSize := Vector.replicate oamSize 0
  /-- The control register LCDC. -/
  lcdc : UInt8 := 0x91
  /-- The selected sources of the status interrupt, bits 3 to 6 of STAT. -/
  statSelect : UInt8 := 0
  scy : UInt8 := 0
  scx : UInt8 := 0
  /-- The current line. -/
  ly : UInt8 := 0
  lyc : UInt8 := 0
  bgp : UInt8 := 0xFC
  obp0 : UInt8 := 0xFF
  obp1 : UInt8 := 0xFF
  wy : UInt8 := 0
  wx : UInt8 := 0
  mode : Mode := .oamScan
  /-- The dot within the line. -/
  dot : Nat := 0
  /-- The dots that the pixels of the line take, fixed when its sprites have been looked up. -/
  transferDots : Nat := baseTransferDots
  /-- The sprites of the line, in the order of the table. -/
  lineSprites : List (Fin spriteCount) := []
  /-- The window line to be drawn next. -/
  windowLine : UInt8 := 0
  /-- Whether a selected status source is active. -/
  statLine : Bool := false
  /-- Cycles since the display was switched off, less whole frames. -/
  offCycles : Nat := 0
  /-- A frame has been completed since the mark was last taken. -/
  frameReady : Bool := false
  frame : Frame := .blank
deriving DecidableEq, Repr

namespace Picture

/-- Whether a bit of LCDC is set. -/
def control (u : Picture) (mask : UInt8) : Bool :=
  u.lcdc &&& mask != 0

/-- Whether the display is on. -/
def lcdOn (u : Picture) : Bool := u.control 0x80

/-- Whether the window uses the upper tile map. -/
def windowMapHigh (u : Picture) : Bool := u.control 0x40

/-- Whether the window is on. -/
def windowOn (u : Picture) : Bool := u.control 0x20

/-- Whether background tiles are numbered from the start of video memory. -/
def tilesFromStart (u : Picture) : Bool := u.control 0x10

/-- Whether the background uses the upper tile map. -/
def backgroundMapHigh (u : Picture) : Bool := u.control 0x08

/-- Whether sprites are two tiles high. -/
def tallSprites (u : Picture) : Bool := u.control 0x04

/-- Whether sprites are on. -/
def spritesOn (u : Picture) : Bool := u.control 0x02

/-- Whether background and window are on. -/
def backgroundOn (u : Picture) : Bool := u.control 0x01

/-- The height of a sprite. -/
def spriteHeight (u : Picture) : Nat :=
  if u.tallSprites then 16 else 8

/-- The palette registers. -/
def palettes (u : Picture) : Palettes :=
  ⟨u.bgp, u.obp0, u.obp1⟩

/-- Forget that a frame has been completed. -/
def clearFrameReady (u : Picture) : Picture :=
  { u with frameReady := false }

/-- Whether a frame has been completed, which is then forgotten. -/
def takeFrameReady (u : Picture) : Bool × Picture :=
  (u.frameReady, u.clearFrameReady)

/-- The mode that STAT shows: with the display off it is that of the rest of a line. -/
def visibleMode (u : Picture) : Mode :=
  if u.lcdOn then u.mode else .hblank

/-! ### Access by the processor -/

/-- Video memory is closed while pixels are being sent. -/
def vramOpen (u : Picture) : Bool :=
  u.visibleMode != .transfer

/-- The sprite table is closed also while sprites are being looked up. -/
def oamOpen (u : Picture) : Bool :=
  u.visibleMode == .hblank || u.visibleMode == .vblank

/-- Read video memory; closed memory reads 0xFF. -/
def readVram (u : Picture) (i : Fin vramSize) : UInt8 :=
  if u.vramOpen then u.vram[i] else 0xFF

/-- Write video memory, if it is open. -/
def writeVram (u : Picture) (i : Fin vramSize) (value : UInt8) : Picture :=
  if u.vramOpen then { u with vram := u.vram.set i value } else u

/-- Read the sprite table; a closed table reads 0xFF. -/
def readOam (u : Picture) (i : Fin oamSize) : UInt8 :=
  if u.oamOpen then u.oam[i] else 0xFF

/-- Write the sprite table, if it is open. -/
def writeOam (u : Picture) (i : Fin oamSize) (value : UInt8) : Picture :=
  if u.oamOpen then { u with oam := u.oam.set i value } else u

/-- Write the sprite table whatever the raster does, as a block transfer can. -/
def transferOam (u : Picture) (i : Fin oamSize) (value : UInt8) : Picture :=
  { u with oam := u.oam.set i value }

end Picture

end Handheld
