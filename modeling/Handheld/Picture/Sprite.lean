/-
Module: Handheld.Picture.Sprite
Purpose: Sprites: the entries of the table, which of them a line shows, and the line of sprite
  pixels that they make.
Main exports: Sprite, Picture.sprite, Picture.spritesOnLine, Picture.SpriteLine, Picture.spriteLine
-/
import Handheld.Picture.Basic

namespace Handheld

/-- An entry of the sprite table. Its corner stands eight pixels left of `x` and sixteen lines above
    `y`. -/
structure Sprite where
  y : UInt8
  x : UInt8
  tile : UInt8
  attributes : UInt8
deriving DecidableEq, Repr

namespace Sprite

/-- Whether the sprite is hidden behind a background that is not of colour 0. -/
def behind (s : Sprite) : Bool := s.attributes &&& 0x80 != 0

/-- Whether the sprite is drawn upside down. -/
def flipY (s : Sprite) : Bool := s.attributes &&& 0x40 != 0

/-- Whether the sprite is drawn right side left. -/
def flipX (s : Sprite) : Bool := s.attributes &&& 0x20 != 0

/-- Whether the sprite takes the second sprite palette. -/
def secondPalette (s : Sprite) : Bool := s.attributes &&& 0x10 != 0

end Sprite

namespace Picture

/-- The number of a colour within a tile; a palette makes it a shade. -/
abbrev Color := Fin 4

/-- The colour made of one bit from each byte of a tile row. -/
def colorOf : (high low : Bool) → Color
  | false, false => 0
  | false, true => 1
  | true, false => 2
  | true, true => 3

/-- The colour in a column of a tile row, column 0 on the left. -/
def tileColor (low high : UInt8) (column : Nat) : Color :=
  colorOf (high.toNat.testBit (7 - column)) (low.toNat.testBit (7 - column))

/-- The shade that a palette register gives a colour. -/
def applyPalette (palette : UInt8) (color : Color) : Shade :=
  Fin.ofNat 4 (palette.toNat >>> (2 * color.val))

/-- The colour in a column of the tile row that starts at place `i` of video memory. -/
def rowColor (u : Picture) (i : Nat) (h : i + 1 < vramSize) (column : Nat) : Color :=
  tileColor u.vram[i] u.vram[i + 1] column

/-! ### The sprites of a line -/

/-- An entry of the sprite table. -/
def sprite (u : Picture) (i : Fin spriteCount) : Sprite :=
  have h : i.val < 40 := i.isLt
  have h0 : 4 * i.val < oamSize := by simp only [oamSize]; omega
  have h1 : 4 * i.val + 1 < oamSize := by simp only [oamSize]; omega
  have h2 : 4 * i.val + 2 < oamSize := by simp only [oamSize]; omega
  have h3 : 4 * i.val + 3 < oamSize := by simp only [oamSize]; omega
  { y := u.oam[4 * i.val], x := u.oam[4 * i.val + 1], tile := u.oam[4 * i.val + 2]
    attributes := u.oam[4 * i.val + 3] }

/-- Whether a sprite of the current height stands on the current line. -/
def onLine (u : Picture) (s : Sprite) : Bool :=
  s.y.toNat ≤ u.ly.toNat + 16 && u.ly.toNat + 16 < s.y.toNat + u.spriteHeight

/-- The sprites of the current line: the first ten of the table that stand on it. -/
def spritesOnLine (u : Picture) : List (Fin spriteCount) :=
  ((List.finRange spriteCount).filter fun i => u.onLine (u.sprite i)).take spritesPerLine

/-- Whether one sprite is drawn before another: the one further left, and of two in one column the
    one earlier in the table. -/
def drawnBefore (u : Picture) (i j : Fin spriteCount) : Bool :=
  (u.sprite i).x < (u.sprite j).x || (u.sprite i).x == (u.sprite j).x && i ≤ j

/-- The sprites of the line in the order in which they take their pixels. -/
def drawOrder (u : Picture) : List (Fin spriteCount) :=
  u.lineSprites.mergeSort u.drawnBefore

/-! ### The pixels of sprites -/

/-- A pixel that a sprite has taken. -/
structure SpritePixel where
  shade : Shade
  behind : Bool
deriving DecidableEq, Repr

/-- The sprite pixels of a line; a pixel that no sprite has taken is empty. -/
abbrev SpriteLine := Vector (Option SpritePixel) screenWidth

/-- The row of a sprite that falls on the current line. -/
def spriteRow (u : Picture) (s : Sprite) : UInt8 :=
  let row := u.ly + 16 - s.y
  if s.flipY then UInt8.ofNat u.spriteHeight - 1 - row else row

/-- The tile at the top of a sprite: of a tall one it has an even number. -/
def topTile (u : Picture) (s : Sprite) : UInt8 :=
  if u.tallSprites then s.tile &&& 0xFE else s.tile

/-- The place in video memory of the tile row that a sprite shows on the current line. -/
def spriteRowPlace (u : Picture) (s : Sprite) : Nat :=
  (u.topTile s).toNat * 16 + (u.spriteRow s).toNat * 2

/-- A sprite's tile row lies in video memory, whatever its number. -/
theorem spriteRowPlace_lt (u : Picture) (s : Sprite) : u.spriteRowPlace s + 1 < vramSize := by
  have := (u.topTile s).toNat_lt
  have := (u.spriteRow s).toNat_lt
  simp only [spriteRowPlace, vramSize]
  omega

/-- The colour in a column of a sprite on the current line, column 0 on the left of the screen. -/
def spriteColor (u : Picture) (s : Sprite) (column : Nat) : Color :=
  u.rowColor (u.spriteRowPlace s) (u.spriteRowPlace_lt s) (if s.flipX then 7 - column else column)

/-- The palette of a sprite. -/
def spritePalette (u : Picture) (s : Sprite) : UInt8 :=
  if s.secondPalette then u.obp1 else u.obp0

/-- Let a column of a sprite take its pixel. It does so if it is on the screen and not of colour 0,
    and no other sprite has taken the pixel before. -/
def takePixel (u : Picture) (s : Sprite) (taken : SpriteLine) (column : Nat) : SpriteLine :=
  let right := s.x.toNat + column
  if h : 8 ≤ right ∧ right - 8 < screenWidth then
    have h := h.2
    let color := u.spriteColor s column
    if taken[right - 8].isNone && color ≠ 0 then
      taken.set (right - 8) (some ⟨applyPalette (u.spritePalette s) color, s.behind⟩)
    else taken
  else taken

/-- Let a sprite take its pixels. -/
def takePixels (u : Picture) (taken : SpriteLine) (s : Sprite) : SpriteLine :=
  (List.range 8).foldl (u.takePixel s) taken

/-- The sprite pixels of the current line. -/
def spriteLine (u : Picture) : SpriteLine :=
  (u.drawOrder.map u.sprite).foldl u.takePixels (Vector.replicate screenWidth none)

end Picture

end Handheld
