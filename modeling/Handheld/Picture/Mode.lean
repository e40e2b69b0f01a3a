/-
Module: Handheld.Picture.Mode
Purpose: The four modes of the picture unit.
Main exports: Mode, Mode.code, Mode.label
-/

namespace Handheld.Picture

/-- What the picture unit is doing on the current line. -/
inductive Mode where
  /-- The rest of a visible line, after its pixels have been sent. -/
  | hblank
  /-- One of the ten lines below the screen. -/
  | vblank
  /-- The first eighty dots of a visible line: the sprites of the line are looked up. -/
  | oamScan
  /-- The pixels of the line are being sent. -/
  | transfer
deriving DecidableEq, Repr, Inhabited

/-- The two mode bits of STAT. -/
def Mode.code : Mode → UInt8
  | .hblank => 0
  | .vblank => 1
  | .oamScan => 2
  | .transfer => 3

/-- The name that notes give the mode. -/
def Mode.label : Mode → String
  | .hblank => "HBlank"
  | .vblank => "VBlank"
  | .oamScan => "OamScan"
  | .transfer => "Transfer"

end Handheld.Picture
