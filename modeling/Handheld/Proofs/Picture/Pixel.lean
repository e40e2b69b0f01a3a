/-
Module: Handheld.Proofs.Picture.Pixel
Purpose: The shade of a single pixel as a rule of its own: which tile of the background or the window
  lies there, which of the line's sprites is in front, and which of the two is seen. The rule looks
  at the registers, the sprite table and video memory as plain numbers. Here also the part of it that
  is about the background; the sprites follow in their own module.
Main exports: mapPixel, groundPixel, Selected, figurePixel, Foremost, foremost?, pixelShade,
  backgroundColor_eq, backgroundShade_eq
-/
import Handheld.Proofs.Checked.Line

namespace Handheld.Picture

variable {u : Picture}

/-! ### The rule for background and window -/

/-- A bit of LCDC. -/
def lcdcBit (u : Picture) (i : Nat) : Bool :=
  u.lcdc.toNat.testBit i

/-- The byte at a place of video memory. -/
def vramAt (u : Picture) (place : Nat) : UInt8 :=
  u.vram[place]?.getD 0

/-- The colour in a column of the tile row at a place, the leftmost column first. Each of its two
    bytes gives one bit, and that of the second counts double. -/
def tilePixel (u : Picture) (place column : Nat) : Nat :=
  2 * ((u.vramAt (place + 1)).toNat / 2 ^ (7 - column) % 2) +
    (u.vramAt place).toNat / 2 ^ (7 - column) % 2

/-- Where a background tile starts. LCDC.4 tells whether its number counts from the start of video
    memory or is one with a sign, counted from 0x1000. -/
def tileAddress (u : Picture) (tile : UInt8) : Nat :=
  if u.lcdcBit 4 then 16 * tile.toNat else (0x1000 + 16 * signedByte tile).toNat

/-- The colour of pixel `x`, `y` of a tile map, which a bit of LCDC chooses. -/
def mapPixel (u : Picture) (mapBit x y : Nat) : Nat :=
  let map := if u.lcdcBit mapBit then 0x1C00 else 0x1800
  let tile := u.vramAt (map + 32 * (y / 8) + x / 8)
  u.tilePixel (u.tileAddress tile + 2 * (y % 8)) (x % 8)

/-- The colour of background or window in a column of the current line. -/
def groundPixel (u : Picture) (x : Nat) : Nat :=
  if u.lcdcBit 0 = false then 0
  else if u.lcdcBit 5 = true ∧ u.wy.toNat ≤ u.ly.toNat ∧ u.wx.toNat ≤ 166 ∧ u.wx.toNat ≤ x + 7 then
    u.mapPixel 6 (x + 7 - u.wx.toNat) u.windowLine.toNat
  else u.mapPixel 3 ((x + u.scx.toNat) % 256) ((u.ly.toNat + u.scy.toNat) % 256)

/-- What a palette register makes of a colour. -/
def paletteShade (palette : UInt8) (color : Nat) : Nat :=
  palette.toNat / 4 ^ color % 4

/-- The shade of background or window; 0 while both are off. -/
def groundShade (u : Picture) (x : Nat) : Nat :=
  if u.lcdcBit 0 then paletteShade u.bgp (u.groundPixel x) else 0

/-! ### The rule for sprites -/

/-- The height of a sprite. -/
def figureHeight (u : Picture) : Nat :=
  if u.lcdcBit 2 then 16 else 8

/-- The sprite stands on the current line. -/
def Stands (u : Picture) (i : Fin spriteCount) : Prop :=
  (u.sprite i).y.toNat ≤ u.ly.toNat + 16 ∧
    u.ly.toNat + 16 < (u.sprite i).y.toNat + u.figureHeight

instance (u : Picture) (i : Fin spriteCount) : Decidable (u.Stands i) :=
  inferInstanceAs (Decidable (_ ∧ _))

/-- The sprite is one of the first ten in the table that stand on the line. -/
def Selected (u : Picture) (i : Fin spriteCount) : Prop :=
  u.Stands i ∧ (List.finRange spriteCount).countP (fun j => j < i ∧ u.Stands j) < 10

instance (u : Picture) (i : Fin spriteCount) : Decidable (u.Selected i) :=
  inferInstanceAs (Decidable (_ ∧ _))

/-- The colour that a sprite has in a column of the current line, both flips applied. The tile number
    of a tall sprite is taken as even. -/
def figurePixel (u : Picture) (i : Fin spriteCount) (x : Nat) : Nat :=
  let s := u.sprite i
  let row := u.ly.toNat + 16 - s.y.toNat
  let row := if s.attributes.toNat.testBit 6 then u.figureHeight - 1 - row else row
  let column := x + 8 - s.x.toNat
  let column := if s.attributes.toNat.testBit 5 then 7 - column else column
  let tile := if u.lcdcBit 2 then s.tile &&& 0xFE else s.tile
  u.tilePixel (16 * tile.toNat + 2 * row) column

/-- The sprite has a pixel in the column: it is one of the line's, it reaches there, and its colour
    there is not 0. -/
def Inks (u : Picture) (x : Nat) (i : Fin spriteCount) : Prop :=
  u.Selected i ∧ (u.sprite i).x.toNat ≤ x + 8 ∧ x + 8 < (u.sprite i).x.toNat + 8 ∧
    u.figurePixel i x ≠ 0

instance (u : Picture) (x : Nat) (i : Fin spriteCount) : Decidable (u.Inks x i) :=
  inferInstanceAs (Decidable (_ ∧ _))

/-- Of the sprites with a pixel in the column it is the one furthest left, and of several at the same
    place the first of the table. -/
def Foremost (u : Picture) (x : Nat) (i : Fin spriteCount) : Prop :=
  u.Inks x i ∧ ∀ j, u.Inks x j →
    (u.sprite i).x < (u.sprite j).x ∨ (u.sprite i).x = (u.sprite j).x ∧ i ≤ j

instance (u : Picture) (x : Nat) (i : Fin spriteCount) : Decidable (u.Foremost x i) :=
  inferInstanceAs (Decidable (_ ∧ _))

/-- The foremost sprite of a column, if any has a pixel there. -/
def foremost? (u : Picture) (x : Nat) : Option (Fin spriteCount) :=
  (List.finRange spriteCount).find? fun i => u.Foremost x i

/-- The shade of a sprite in a column. -/
def figureShade (u : Picture) (i : Fin spriteCount) (x : Nat) : Nat :=
  let palette := if (u.sprite i).attributes.toNat.testBit 4 then u.obp1 else u.obp0
  paletteShade palette (u.figurePixel i x)

/-- The shade of a column of the current line: the foremost sprite is seen, if sprites are on, unless
    it is behind a background that is not of colour 0. -/
def pixelShade (u : Picture) (x : Nat) : Nat :=
  match if u.lcdcBit 1 then u.foremost? x else none with
  | some i =>
    if (u.sprite i).attributes.toNat.testBit 7 = true ∧ u.groundPixel x ≠ 0 then u.groundShade x
    else u.figureShade i x
  | none => u.groundShade x

/-! ### Tiles -/

theorem control_eq (u : Picture) {mask : UInt8} {i : Nat} (h : mask.toNat = 2 ^ i) :
    u.control mask = u.lcdcBit i :=
  and_mask_ne_zero u.lcdc h

theorem vramAt_eq (u : Picture) {place : Nat} (h : place < vramSize) :
    u.vramAt place = u.vram[place] := by
  unfold vramAt
  rw [Vector.getElem?_eq_getElem h]
  rfl

theorem rowColor_eq (u : Picture) {place : Nat} (h : place + 1 < vramSize) (column : Nat) :
    (u.rowColor place h column).val = u.tilePixel place column := by
  have hcolor (high low : Bool) : (colorOf high low).val = 2 * high.toNat + low.toNat := by
    cases high <;> cases low <;> rfl
  unfold rowColor tileColor tilePixel
  rw [hcolor, Nat.toNat_testBit, Nat.toNat_testBit, u.vramAt_eq h,
    u.vramAt_eq (Nat.lt_of_succ_lt h)]

theorem tilePlace_eq (u : Picture) (tile : UInt8) : u.tilePlace tile = u.tileAddress tile := by
  have htile := tile.toNat_lt
  have hstart : u.tilesFromStart = u.lcdcBit 4 := u.control_eq rfl
  unfold tilePlace tileAddress signedByte
  rw [hstart]
  cases u.lcdcBit 4 with
  | true => simp [Nat.mul_comm]
  | false =>
      by_cases hlow : 128 ≤ tile.toNat
      · simp [hlow]
        omega
      · simp [hlow]
        omega

theorem mapColor_eq (u : Picture) {upper : Bool} {mapBit : Nat} (h : upper = u.lcdcBit mapBit)
    (x y : UInt8) : (u.mapColor upper x y).val = u.mapPixel mapBit x.toNat y.toNat := by
  have hplace : mapPlace upper x y =
      (if u.lcdcBit mapBit then 0x1C00 else 0x1800) + 32 * (y.toNat / 8) + x.toNat / 8 := by
    rw [mapPlace, mapStart, h, Nat.mul_comm 32]
  unfold mapColor mapPixel
  dsimp only
  rw [rowColor_eq, tilePlace_eq, ← hplace, u.vramAt_eq (mapPlace_lt upper x y), Nat.mul_comm 2]

/-! ### Background and window -/

theorem windowVisible_iff (u : Picture) (hon : u.lcdcBit 0 = true) :
    u.windowVisible = true ↔
      u.lcdcBit 5 = true ∧ u.wy.toNat ≤ u.ly.toNat ∧ u.wx.toNat ≤ 166 := by
  have hground : u.backgroundOn = u.lcdcBit 0 := u.control_eq rfl
  have hwindow : u.windowOn = u.lcdcBit 5 := u.control_eq rfl
  unfold windowVisible
  rw [hground, hwindow, hon, Bool.true_and, Bool.and_eq_true, Bool.and_eq_true, decide_eq_true_iff,
    decide_eq_true_iff, and_assoc]
  rfl

/-- The background has the colour of the rule. -/
theorem backgroundColor_eq (u : Picture) (x : Fin screenWidth) :
    (u.backgroundColor x).val = u.groundPixel x := by
  have hx : x.val < 160 := x.isLt
  have hground : u.backgroundOn = u.lcdcBit 0 := u.control_eq rfl
  have hwindowMap : u.windowMapHigh = u.lcdcBit 6 := u.control_eq rfl
  have hgroundMap : u.backgroundMapHigh = u.lcdcBit 3 := u.control_eq rfl
  unfold backgroundColor groundPixel
  rw [hground]
  cases hon : u.lcdcBit 0 with
  | false => rfl
  | true =>
      simp only [Bool.not_true, Bool.false_eq_true, if_false, Bool.true_eq_false]
      have hwindow : (u.windowVisible && decide (u.wx.toNat ≤ x.val + 7)) = true ↔
          u.lcdcBit 5 = true ∧ u.wy.toNat ≤ u.ly.toNat ∧ u.wx.toNat ≤ 166 ∧
            u.wx.toNat ≤ x.val + 7 := by
        rw [Bool.and_eq_true, u.windowVisible_iff hon, decide_eq_true_iff, and_assoc, and_assoc]
      by_cases hinside : u.lcdcBit 5 = true ∧ u.wy.toNat ≤ u.ly.toNat ∧ u.wx.toNat ≤ 166 ∧
          u.wx.toNat ≤ x.val + 7
      · rw [if_pos (hwindow.mpr hinside), if_pos hinside, u.mapColor_eq hwindowMap]
        have hcolumn : (UInt8.ofNat (x.val + 7 - u.wx.toNat)).toNat = x.val + 7 - u.wx.toNat := by
          rw [UInt8.toNat_ofNat']
          omega
        rw [hcolumn]
      · rw [if_neg (mt hwindow.mp hinside), if_neg hinside, u.mapColor_eq hgroundMap]
        have hcolumn : (UInt8.ofNat x.val + u.scx).toNat = (x.val + u.scx.toNat) % 256 := by
          rw [UInt8.toNat_add, UInt8.toNat_ofNat', Nat.mod_add_mod]
        have hline : (u.ly + u.scy).toNat = (u.ly.toNat + u.scy.toNat) % 256 := UInt8.toNat_add _ _
        rw [hcolumn, hline]

theorem applyPalette_eq (palette : UInt8) (color : Color) :
    (applyPalette palette color).val = paletteShade palette color := by
  unfold applyPalette paletteShade
  rw [Fin.val_ofNat, Nat.shiftRight_eq_div_pow, Nat.pow_mul]

theorem backgroundShade_eq (u : Picture) (x : Fin screenWidth) :
    (u.backgroundShade (u.backgroundColor x)).val = u.groundShade x := by
  have hground : u.backgroundOn = u.lcdcBit 0 := u.control_eq rfl
  unfold backgroundShade groundShade
  rw [hground, apply_ite Fin.val, applyPalette_eq, backgroundColor_eq]
  rfl

end Handheld.Picture
