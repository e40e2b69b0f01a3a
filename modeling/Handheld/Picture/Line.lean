/-
Module: Handheld.Picture.Line
Purpose: The pixels of a line: the background, the window over it, and the sprites over or behind
  both.
Main exports: Picture.backgroundColor, Picture.windowVisible, Picture.lineShades, Picture.renderLine
-/
import Handheld.Picture.Sprite

namespace Handheld.Picture

/-! ### Tile maps -/

/-- The place of a tile map in video memory. -/
def mapStart (upper : Bool) : Nat :=
  if upper then 0x1C00 else 0x1800

/-- The place of the map byte for a pixel of the 256 by 256 pixels that a map describes. -/
def mapPlace (upper : Bool) (x y : UInt8) : Nat :=
  mapStart upper + y.toNat / 8 * 32 + x.toNat / 8

/-- A map lies in video memory. -/
theorem mapPlace_lt (upper : Bool) (x y : UInt8) : mapPlace upper x y < vramSize := by
  have := x.toNat_lt
  have := y.toNat_lt
  cases upper <;> simp [mapPlace, mapStart, vramSize] <;> omega

/-- The place of the tile with a number. Tiles are numbered from the start of video memory, or else
    those below 128 from 0x1000 on. -/
def tilePlace (u : Picture) (tile : UInt8) : Nat :=
  if u.tilesFromStart || 128 ≤ tile.toNat then tile.toNat * 16 else 0x1000 + tile.toNat * 16

/-- A tile lies in video memory. -/
theorem tilePlace_lt (u : Picture) (tile : UInt8) (row : Nat) (h : row < 8) :
    u.tilePlace tile + row * 2 + 1 < vramSize := by
  have := tile.toNat_lt
  unfold tilePlace vramSize
  split
  · omega
  · next hlow =>
    simp only [Bool.or_eq_true, decide_eq_true_eq] at hlow
    omega

/-- The colour of a pixel of a tile map. -/
def mapColor (u : Picture) (upper : Bool) (x y : UInt8) : Color :=
  have := mapPlace_lt upper x y
  let tile := u.vram[mapPlace upper x y]
  u.rowColor (u.tilePlace tile + y.toNat % 8 * 2)
    (u.tilePlace_lt tile _ (Nat.mod_lt _ (by decide))) (x.toNat % 8)

/-! ### Background and window -/

/-- Whether the window shows on the current line. It is given with its left edge seven pixels to the
    right, and from 167 on it is off the screen. -/
def windowVisible (u : Picture) : Bool :=
  u.backgroundOn && u.windowOn && u.wy ≤ u.ly && u.wx ≤ 166

/-- The colour of background or window in a column of the current line; 0 while both are off. -/
def backgroundColor (u : Picture) (x : Fin screenWidth) : Color :=
  if !u.backgroundOn then 0
  else if u.windowVisible && u.wx.toNat ≤ x.val + 7 then
    u.mapColor u.windowMapHigh (UInt8.ofNat (x.val + 7 - u.wx.toNat)) u.windowLine
  else
    u.mapColor u.backgroundMapHigh (UInt8.ofNat x.val + u.scx) (u.ly + u.scy)

/-- The shade of a background colour; the lightest one while the background is off. -/
def backgroundShade (u : Picture) (color : Color) : Shade :=
  if u.backgroundOn then applyPalette u.bgp color else 0

/-! ### The line -/

/-- The shade of a pixel, given the background colour and the sprite pixel there. -/
def mixPixel (u : Picture) (color : Color) : Option SpritePixel → Shade
  | none => u.backgroundShade color
  | some pixel => if pixel.behind && color ≠ 0 then u.backgroundShade color else pixel.shade

/-- The shades of the current line. -/
def lineShades (u : Picture) : Row :=
  let sprites := if u.spritesOn then u.spriteLine else Vector.replicate screenWidth none
  Vector.ofFn fun x => u.mixPixel (u.backgroundColor x) sprites[x]

/-- Draw the current line into the frame, and go on to the next window line if this one shows the
    window. -/
def renderLine (u : Picture) : Picture :=
  let row := u.lineShades
  let windowLine := if u.windowVisible then u.windowLine + 1 else u.windowLine
  { u with frame := u.frame.setRow u.ly.toNat row, windowLine }

end Handheld.Picture
