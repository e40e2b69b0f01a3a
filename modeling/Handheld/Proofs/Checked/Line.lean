/-
Module: Handheld.Proofs.Checked.Line
Purpose: The drawing of a line with every place in video memory, in the sprite table and in the frame
  checked, and every sum, difference and shift with it. There is one way to exceed a bound: a sprite
  that is drawn upside down has been found on the line and stands on it no longer.
Main exports: Picture.spritesOnLine?_eq, Picture.backgroundColor?_eq, Picture.astray,
  Picture.lineShades?_eq, Picture.renderLine?_eq
-/
import Handheld.Picture.Line
import Handheld.Proofs.Checked.Arithmetic

namespace Handheld.Picture

/-! ### The look-up -/

/-- Whether a sprite of the current height stands on the current line, by its number in the table. -/
def onLine? (u : Picture) (i : Fin spriteCount) : Option Bool := do
  let base ← Checked.mul Checked.indexBits i.val 4
  let place ← Checked.place oamSize base
  let y := (u.oam.get place).toNat
  let line ← Checked.add 16 u.ly.toNat 16
  let below ← Checked.add 16 y u.spriteHeight
  some (decide (y ≤ line) && decide (line < below))

/-- Go through the table, after some sprites that have been found. -/
def scan? (u : Picture) : (found : List (Fin spriteCount)) → List (Fin spriteCount) →
    Option (List (Fin spriteCount))
  | found, [] => some found
  | found, i :: rest => do
    if ← u.onLine? i then
      if found.length + 1 = spritesPerLine then some (found ++ [i])
      else scan? u (found ++ [i]) rest
    else scan? u found rest

/-- The sprites of the current line. -/
def spritesOnLine? (u : Picture) : Option (List (Fin spriteCount)) :=
  u.scan? [] (List.finRange spriteCount)

variable {u : Picture}

theorem spriteHeight_le (u : Picture) : u.spriteHeight ≤ 16 := by
  unfold spriteHeight
  split <;> decide

theorem onLine?_eq (u : Picture) (i : Fin spriteCount) :
    u.onLine? i = some (u.onLine (u.sprite i)) := by
  have hi : i.val < 40 := i.isLt
  have hline := u.ly.toNat_lt
  have hheight := u.spriteHeight_le
  have hbase : Checked.mul Checked.indexBits i.val 4 = some (4 * i.val) := by
    rw [Checked.mul_eq (by rw [Checked.indexBits]; omega), Nat.mul_comm]
  have hplace : 4 * i.val < oamSize := by
    unfold oamSize
    omega
  have hy := u.oam[4 * i.val].toNat_lt
  have hlower : Checked.add 16 u.ly.toNat 16 = some (u.ly.toNat + 16) :=
    Checked.add_eq (by omega)
  have hbelow : Checked.add 16 u.oam[4 * i.val].toNat u.spriteHeight =
      some (u.oam[4 * i.val].toNat + u.spriteHeight) :=
    Checked.add_eq (by omega)
  simp only [onLine?, hbase, Checked.place_eq hplace, Checked.get_place, hlower, hbelow,
    Option.bind_eq_bind, Option.bind_some]
  rfl

/-- The scan adds what it still finds, up to the tenth. -/
theorem scan?_eq (u : Picture) (places found : List (Fin spriteCount))
    (hfound : found.length < spritesPerLine) :
    u.scan? found places = some (found ++
      (places.filter fun i => u.onLine (u.sprite i)).take (spritesPerLine - found.length)) := by
  induction places generalizing found with
  | nil => simp [scan?]
  | cons i rest ih =>
      unfold scan?
      rw [onLine?_eq, Option.bind_eq_bind, Option.bind_some, List.filter_cons]
      cases u.onLine (u.sprite i) with
      | false => exact ih found hfound
      | true =>
          obtain ⟨room, hroom⟩ : ∃ room, spritesPerLine - found.length = room + 1 :=
            ⟨spritesPerLine - found.length - 1, by omega⟩
          rw [if_pos rfl, if_pos rfl, hroom, List.take_succ_cons]
          split
          · next hfull =>
            obtain rfl : room = 0 := by omega
            rw [List.take_zero]
          · next hmore =>
            have hlength : (found ++ [i]).length = found.length + 1 := by simp
            have hrest : spritesPerLine - (found ++ [i]).length = room := by omega
            rw [ih _ (by omega), hrest, List.append_assoc, List.singleton_append]

theorem spritesOnLine?_eq (u : Picture) : u.spritesOnLine? = some u.spritesOnLine :=
  u.scan?_eq (List.finRange spriteCount) [] (by decide)

/-! ### Tiles -/

/-- A byte as a number with a sign. -/
def signedByte (b : UInt8) : Int :=
  if b.toNat < 128 then b.toNat else b.toNat - 256

/-- The place of the tile with a number, which is one with a sign unless tiles are numbered from the
    start of video memory. There are no places below zero. -/
def tilePlace? (u : Picture) (tile : UInt8) : Option Nat :=
  if u.tilesFromStart then Checked.mul Checked.indexBits tile.toNat 16
  else do
    let offset ← Checked.signed 32 (signedByte tile * 16)
    let place ← Checked.signed 32 (0x1000 + offset)
    if 0 ≤ place then some place.toNat else none

/-- The two bytes of a tile row. -/
def rowBytes? (u : Picture) (row : Nat) : Option (UInt8 × UInt8) := do
  let low ← Checked.place vramSize row
  let next ← Checked.add Checked.indexBits row 1
  let high ← Checked.place vramSize next
  some (u.vram.get low, u.vram.get high)

/-- The colour in a column of a tile row. -/
def tileColor? (low high : UInt8) (column : Nat) : Option Color := do
  let bit ← Checked.sub 7 column
  let bit ← Checked.distance 8 bit
  some (colorOf (high.toNat.testBit bit) (low.toNat.testBit bit))

/-- The shade that a palette register gives a colour. -/
def applyPalette? (palette : UInt8) (color : Color) : Option Shade := do
  let bit ← Checked.mul 8 color.val 2
  let bit ← Checked.distance 8 bit
  some (Fin.ofNat 4 (palette.toNat >>> bit))

/-- The colour of a pixel of a tile map. -/
def mapColor? (u : Picture) (upper : Bool) (x y : UInt8) : Option Color := do
  let above ← Checked.mul Checked.indexBits (y.toNat / 8) 32
  let line ← Checked.add Checked.indexBits (mapStart upper) above
  let place ← Checked.add Checked.indexBits line (x.toNat / 8)
  let place ← Checked.place vramSize place
  let start ← u.tilePlace? (u.vram.get place)
  let within ← Checked.mul Checked.indexBits (y.toNat % 8) 2
  let row ← Checked.add Checked.indexBits start within
  let (low, high) ← u.rowBytes? row
  tileColor? low high (x.toNat % 8)

theorem tilePlace?_eq (u : Picture) (tile : UInt8) : u.tilePlace? tile = some (u.tilePlace tile) := by
  have htile := tile.toNat_lt
  unfold tilePlace? tilePlace
  by_cases hstart : u.tilesFromStart = true
  · rw [if_pos hstart, if_pos (by simp [hstart])]
    exact Checked.mul_eq (by rw [Checked.indexBits]; omega)
  · rw [if_neg hstart]
    have hrange : -128 ≤ signedByte tile ∧ signedByte tile ≤ 127 := by
      unfold signedByte
      split <;> omega
    have hoffset : Checked.signed 32 (signedByte tile * 16) = some (signedByte tile * 16) :=
      Checked.signed_eq (by omega) (by omega)
    have hplace : Checked.signed 32 (0x1000 + signedByte tile * 16) =
        some (0x1000 + signedByte tile * 16) :=
      Checked.signed_eq (by omega) (by omega)
    have hpositive : 0 ≤ 0x1000 + signedByte tile * 16 := by omega
    simp only [hoffset, hplace, Option.bind_eq_bind, Option.bind_some, if_pos hpositive]
    unfold signedByte
    by_cases hlow : tile.toNat < 128
    · rw [if_pos hlow, if_neg (by simp [hstart]; omega)]
      exact congrArg some (by omega)
    · rw [if_neg hlow, if_pos (by simp; omega)]
      exact congrArg some (by omega)

theorem rowBytes?_eq (u : Picture) {row : Nat} (hlow : row < vramSize) (hhigh : row + 1 < vramSize) :
    u.rowBytes? row = some (u.vram[row], u.vram[row + 1]) := by
  have hsize : vramSize < 2 ^ Checked.indexBits := by decide
  have hnext : Checked.add Checked.indexBits row 1 = some (row + 1) :=
    Checked.add_eq (Nat.lt_trans hhigh hsize)
  simp only [rowBytes?, Checked.place_eq hlow, hnext, Checked.place_eq hhigh,
    Option.bind_eq_bind, Option.bind_some, Checked.get_place]

theorem tileColor?_eq (low high : UInt8) {column : Nat} (h : column < 8) :
    tileColor? low high column = some (tileColor low high column) := by
  have hbit : 7 - column < 8 := by omega
  simp only [tileColor?, Checked.sub_eq (Nat.le_of_lt_succ h), Checked.distance_eq hbit,
    Option.bind_eq_bind, Option.bind_some]
  rfl

theorem applyPalette?_eq (palette : UInt8) (color : Color) :
    applyPalette? palette color = some (applyPalette palette color) := by
  have hcolor := color.isLt
  have hbit : Checked.mul 8 color.val 2 = some (color.val * 2) := Checked.mul_eq (by omega)
  have hdistance : color.val * 2 < 8 := by omega
  simp only [applyPalette?, hbit, Checked.distance_eq hdistance, Option.bind_eq_bind,
    Option.bind_some, applyPalette, Nat.mul_comm 2]

theorem mapColor?_eq (u : Picture) (upper : Bool) (x y : UInt8) :
    u.mapColor? upper x y = some (u.mapColor upper x y) := by
  have hx := x.toNat_lt
  have hy := y.toNat_lt
  have hmap := mapPlace_lt upper x y
  have hstart : mapStart upper ≤ 0x1C00 := by
    unfold mapStart
    split <;> decide
  have habove : Checked.mul Checked.indexBits (y.toNat / 8) 32 = some (y.toNat / 8 * 32) :=
    Checked.mul_eq (by rw [Checked.indexBits]; omega)
  have hline : Checked.add Checked.indexBits (mapStart upper) (y.toNat / 8 * 32) =
      some (mapStart upper + y.toNat / 8 * 32) :=
    Checked.add_eq (by rw [Checked.indexBits]; omega)
  have hplace : Checked.add Checked.indexBits (mapStart upper + y.toNat / 8 * 32) (x.toNat / 8) =
      some (mapPlace upper x y) :=
    Checked.add_eq (by rw [Checked.indexBits]; omega)
  have hwithin : Checked.mul Checked.indexBits (y.toNat % 8) 2 = some (y.toNat % 8 * 2) :=
    Checked.mul_eq (by rw [Checked.indexBits]; omega)
  have hbytes := u.tilePlace_lt u.vram[mapPlace upper x y] (y.toNat % 8) (Nat.mod_lt _ (by decide))
  have hsize : vramSize < 2 ^ Checked.indexBits := by decide
  have hrow : Checked.add Checked.indexBits (u.tilePlace u.vram[mapPlace upper x y])
      (y.toNat % 8 * 2) = some (u.tilePlace u.vram[mapPlace upper x y] + y.toNat % 8 * 2) :=
    Checked.add_eq (by omega)
  simp only [mapColor?, habove, hline, hplace, Checked.place_eq hmap, Checked.get_place,
    tilePlace?_eq, hwithin, hrow, u.rowBytes?_eq (Nat.lt_of_succ_lt hbytes) hbytes,
    tileColor?_eq _ _ (Nat.mod_lt x.toNat (by decide)), Option.bind_eq_bind, Option.bind_some]
  rfl

/-! ### Background and window -/

/-- The colour of background or window in a column of the current line. The background is looked up
    also where the window covers it. -/
def backgroundColor? (u : Picture) (x : Fin screenWidth) : Option Color :=
  if !u.backgroundOn then some 0
  else do
    let color ← u.mapColor? u.backgroundMapHigh (UInt8.ofNat x.val + u.scx) (u.ly + u.scy)
    if u.windowVisible then
      let right ← Checked.add Checked.indexBits x.val 7
      if u.wx.toNat ≤ right then
        let column ← Checked.sub right u.wx.toNat
        u.mapColor? u.windowMapHigh (UInt8.ofNat column) u.windowLine
      else some color
    else some color

/-- The shade of a background colour. -/
def backgroundShade? (u : Picture) (color : Color) : Option Shade :=
  if u.backgroundOn then applyPalette? u.bgp color else some 0

theorem backgroundColor?_eq (u : Picture) (x : Fin screenWidth) :
    u.backgroundColor? x = some (u.backgroundColor x) := by
  have hx : x.val < 160 := x.isLt
  have hright : Checked.add Checked.indexBits x.val 7 = some (x.val + 7) :=
    Checked.add_eq (by rw [Checked.indexBits]; omega)
  unfold backgroundColor? backgroundColor
  split
  · rfl
  simp only [mapColor?_eq, hright, Option.bind_eq_bind, Option.bind_some]
  by_cases hwindow : u.windowVisible = true
  · rw [if_pos hwindow]
    by_cases hedge : u.wx.toNat ≤ x.val + 7
    · rw [if_pos hedge, if_pos (by simp [hwindow, hedge]), Checked.sub_eq hedge, Option.bind_some]
    · rw [if_neg hedge, if_neg (by simp [hwindow]; omega)]
  · rw [if_neg hwindow, if_neg (by simp [hwindow])]

theorem backgroundShade?_eq (u : Picture) (color : Color) :
    u.backgroundShade? color = some (u.backgroundShade color) := by
  unfold backgroundShade? backgroundShade
  rw [applyPalette?_eq, apply_ite some]

/-! ### Sprites -/

/-- An entry of the sprite table. -/
def sprite? (u : Picture) (i : Fin spriteCount) : Option Sprite := do
  let base ← Checked.mul Checked.indexBits i.val 4
  let byte (offset : Nat) : Option UInt8 := do
    let next ← Checked.add Checked.indexBits base offset
    let place ← Checked.place oamSize next
    some (u.oam.get place)
  some { y := ← byte 0, x := ← byte 1, tile := ← byte 2, attributes := ← byte 3 }

/-- The row of a sprite that falls on the current line. Counting from its foot, the row must not lie
    above its head. -/
def spriteRow? (u : Picture) (s : Sprite) : Option UInt8 :=
  let row := u.ly + 16 - s.y
  if s.flipY then do
    let last ← Checked.sub u.spriteHeight 1
    let flipped ← Checked.sub last row.toNat
    some (UInt8.ofNat flipped)
  else some row

/-- The column of the tile that a column of a sprite shows. -/
def tileColumn? (s : Sprite) (column : Nat) : Option Nat :=
  if s.flipX then Checked.sub 7 column else some column

/-- Let a column of a sprite take its pixel, given the two bytes of the tile row. -/
def takePixel? (u : Picture) (s : Sprite) (low high : UInt8) (taken : SpriteLine) (column : Nat) :
    Option SpriteLine := do
  let left ← Checked.signed 16 (s.x.toNat - 8)
  let x ← Checked.signed 16 (left + column)
  if 0 ≤ x ∧ x < screenWidth then
    let i ← Checked.place screenWidth x.toNat
    if (taken.get i).isSome then some taken
    else
      let column ← tileColumn? s column
      let color ← tileColor? low high column
      if color = 0 then some taken
      else
        let shade ← applyPalette? (u.spritePalette s) color
        some (taken.set i.val (some ⟨shade, s.behind⟩) i.isLt)
  else some taken

/-- Let a sprite take its pixels. -/
def takePixels? (u : Picture) (taken : SpriteLine) (s : Sprite) : Option SpriteLine := do
  let row ← u.spriteRow? s
  let start ← Checked.mul Checked.indexBits (u.topTile s).toNat 16
  let within ← Checked.mul Checked.indexBits row.toNat 2
  let place ← Checked.add Checked.indexBits start within
  let (low, high) ← u.rowBytes? place
  (List.range 8).foldlM (u.takePixel? s low high) taken

/-- The sprite pixels of the current line. There is room for ten sprites to be put in order, and the
    order looks at the same entries of the table. -/
def spriteLine? (u : Picture) : Option SpriteLine := do
  let _ ← Checked.slice spritesPerLine 0 u.lineSprites.length
  let sprites ← u.drawOrder.mapM u.sprite?
  sprites.foldlM u.takePixels? (Vector.replicate screenWidth none)

/-- A sprite that is drawn upside down although it does not stand on the current line. -/
def astray (u : Picture) (s : Sprite) : Bool :=
  s.flipY && !u.onLine s

/-- Whether the current line shows such a sprite. -/
def showsAstray (u : Picture) : Bool :=
  u.spritesOn && u.lineSprites.any fun i => u.astray (u.sprite i)

theorem sprite?_eq (u : Picture) (i : Fin spriteCount) : u.sprite? i = some (u.sprite i) := by
  have hi : i.val < 40 := i.isLt
  have hbase : Checked.mul Checked.indexBits i.val 4 = some (4 * i.val) := by
    rw [Checked.mul_eq (by rw [Checked.indexBits]; omega), Nat.mul_comm]
  have hbyte (offset : Nat) (hoffset : offset < 4) :
      Checked.add Checked.indexBits (4 * i.val) offset = some (4 * i.val + offset) ∧
        4 * i.val + offset < oamSize := by
    unfold oamSize
    exact ⟨Checked.add_eq (by rw [Checked.indexBits]; omega), by omega⟩
  obtain ⟨hy, hy'⟩ := hbyte 0 (by decide)
  obtain ⟨hx, hx'⟩ := hbyte 1 (by decide)
  obtain ⟨htile, htile'⟩ := hbyte 2 (by decide)
  obtain ⟨hattributes, hattributes'⟩ := hbyte 3 (by decide)
  simp only [sprite?, hbase, hy, hx, htile, hattributes, Checked.place_eq hy', Checked.place_eq hx',
    Checked.place_eq htile', Checked.place_eq hattributes', Option.bind_eq_bind, Option.bind_some]
  rfl

/-- The row of a sprite, taken without a sign, is one of its rows exactly on the lines on which it
    stands. -/
theorem row_lt_iff (hly : u.ly.toNat < screenHeight) (s : Sprite) :
    (u.ly + 16 - s.y).toNat < u.spriteHeight ↔ u.onLine s = true := by
  have hline : u.ly.toNat < 144 := hly
  have hy := s.y.toNat_lt
  have hsixteen : (16 : UInt8).toNat = 16 := rfl
  have hheight : u.spriteHeight = 16 ∨ u.spriteHeight = 8 := by
    unfold spriteHeight
    split
    · exact .inl rfl
    · exact .inr rfl
  unfold onLine
  rw [UInt8.toNat_sub, UInt8.toNat_add, hsixteen, Bool.and_eq_true, decide_eq_true_iff,
    decide_eq_true_iff]
  rcases hheight with hheight | hheight <;> rw [hheight] <;> omega

theorem spriteRow?_eq (hly : u.ly.toNat < screenHeight) (s : Sprite) :
    u.spriteRow? s = if u.astray s then none else some (u.spriteRow s) := by
  have hrow := row_lt_iff hly s
  have hpositive : 1 ≤ u.spriteHeight := by
    unfold spriteHeight
    split <;> decide
  unfold spriteRow? spriteRow astray
  cases s.flipY with
  | false => rfl
  | true =>
      simp only [if_true, Checked.sub_eq hpositive, Option.bind_eq_bind, Option.bind_some,
        Bool.true_and]
      cases hstands : u.onLine s with
      | false =>
          rw [hstands] at hrow
          have hbeyond : u.spriteHeight - 1 < (u.ly + 16 - s.y).toNat := by
            have hnot := mt hrow.mp Bool.false_ne_true
            omega
          rw [Checked.sub_eq_none hbeyond]
          rfl
      | true =>
          have hlt := hrow.mpr hstands
          have hle : (u.ly + 16 - s.y).toNat ≤ u.spriteHeight - 1 := by omega
          rw [Checked.sub_eq hle]
          refine congrArg some ?_
          rw [UInt8.ofNat_sub hle, UInt8.ofNat_sub hpositive, UInt8.ofNat_toNat]
          rfl

/-- Given the bytes of its tile row, a sprite exceeds no bound in any of its columns. -/
theorem takePixel?_eq {s : Sprite} {low high : UInt8}
    (hbytes : ∀ column, tileColor low high column =
      u.rowColor (u.spriteRowPlace s) (u.spriteRowPlace_lt s) column)
    (taken : SpriteLine) {column : Nat} (h : column < 8) :
    u.takePixel? s low high taken column = some (u.takePixel s taken column) := by
  have hx := s.x.toNat_lt
  have hwide : screenWidth = 160 := rfl
  have hleft : Checked.signed 16 (s.x.toNat - 8) = some (s.x.toNat - 8 : Int) :=
    Checked.signed_eq (by omega) (by omega)
  have hplace : Checked.signed 16 (s.x.toNat - 8 + column) = some (s.x.toNat - 8 + column : Int) :=
    Checked.signed_eq (by omega) (by omega)
  have hflipped : tileColumn? s column = some (if s.flipX then 7 - column else column) := by
    unfold tileColumn?
    rw [Checked.sub_eq (Nat.le_of_lt_succ h), apply_ite some]
  have hcolumn : (if s.flipX then 7 - column else column) < 8 := by
    split <;> omega
  have hcolor : tileColor low high (if s.flipX then 7 - column else column) =
      u.spriteColor s column :=
    hbytes _
  unfold takePixel? takePixel
  simp only [hleft, hplace, hflipped, tileColor?_eq low high hcolumn, hcolor, applyPalette?_eq,
    Option.bind_eq_bind, Option.bind_some]
  by_cases hscreen : 8 ≤ s.x.toNat + column ∧ s.x.toNat + column - 8 < screenWidth
  · have hnumber : (s.x.toNat - 8 + column : Int).toNat = s.x.toNat + column - 8 := by omega
    have hinside : (0 : Int) ≤ s.x.toNat - 8 + column ∧
        (s.x.toNat - 8 + column : Int) < screenWidth := by omega
    rw [dif_pos hscreen, if_pos hinside, hnumber, Checked.place_eq hscreen.2, Option.bind_some]
    simp only [Checked.get_place]
    cases taken[s.x.toNat + column - 8] with
    | none =>
        by_cases hclear : u.spriteColor s column = 0
        · simp [hclear]
        · simp [hclear]
    | some pixel => simp
  · have houtside : ¬ ((0 : Int) ≤ s.x.toNat - 8 + column ∧
        (s.x.toNat - 8 + column : Int) < screenWidth) := by omega
    rw [dif_neg hscreen, if_neg houtside]

/-- A fold none of whose steps gives up. -/
theorem foldlM_of_total {α β : Type} {f : β → α → Option β} {g : β → α → β} {l : List α}
    (h : ∀ b, ∀ a ∈ l, f b a = some (g b a)) (init : β) :
    l.foldlM f init = some (l.foldl g init) := by
  induction l generalizing init with
  | nil => rfl
  | cons a rest ih =>
      rw [List.foldlM_cons, h init a List.mem_cons_self, List.foldl_cons]
      exact ih (fun b x hx => h b x (List.mem_cons_of_mem a hx)) (g init a)

/-- A fold whose steps give up at certain elements of the list. -/
theorem foldlM_of_guard {α β : Type} {f : β → α → Option β} {g : β → α → β} {bad : α → Bool}
    (h : ∀ b a, f b a = if bad a then none else some (g b a)) (l : List α) (init : β) :
    l.foldlM f init = if l.any bad then none else some (l.foldl g init) := by
  induction l generalizing init with
  | nil => rfl
  | cons a rest ih =>
      rw [List.foldlM_cons, h, List.any_cons, List.foldl_cons]
      cases bad a with
      | true => rfl
      | false => exact ih (g init a)

theorem takePixels?_eq (hly : u.ly.toNat < screenHeight) (taken : SpriteLine) (s : Sprite) :
    u.takePixels? taken s = if u.astray s then none else some (u.takePixels taken s) := by
  unfold takePixels?
  rw [spriteRow?_eq hly]
  cases u.astray s with
  | true => rfl
  | false =>
      have htile := (u.topTile s).toNat_lt
      have hrow := (u.spriteRow s).toNat_lt
      have hstart : Checked.mul Checked.indexBits (u.topTile s).toNat 16 =
          some ((u.topTile s).toNat * 16) :=
        Checked.mul_eq (by rw [Checked.indexBits]; omega)
      have hwithin : Checked.mul Checked.indexBits (u.spriteRow s).toNat 2 =
          some ((u.spriteRow s).toNat * 2) :=
        Checked.mul_eq (by rw [Checked.indexBits]; omega)
      have hplace : Checked.add Checked.indexBits ((u.topTile s).toNat * 16)
          ((u.spriteRow s).toNat * 2) = some (u.spriteRowPlace s) :=
        Checked.add_eq (by rw [Checked.indexBits]; omega)
      have hbytes := u.spriteRowPlace_lt s
      simp only [Bool.false_eq_true, if_false, hstart, hwithin, hplace,
        u.rowBytes?_eq (Nat.lt_of_succ_lt hbytes) hbytes, Option.bind_eq_bind, Option.bind_some]
      exact foldlM_of_total (fun taken column hcolumn =>
        takePixel?_eq (fun _ => rfl) taken (List.mem_range.mp hcolumn)) taken

theorem drawOrder_any (u : Picture) (bad : Fin spriteCount → Bool) :
    u.drawOrder.any bad = u.lineSprites.any bad :=
  (List.mergeSort_perm u.lineSprites u.drawnBefore).any_eq

theorem spriteLine?_eq (hly : u.ly.toNat < screenHeight)
    (hfew : u.lineSprites.length ≤ spritesPerLine) :
    u.spriteLine? = if u.lineSprites.any fun i => u.astray (u.sprite i) then none
      else some u.spriteLine := by
  have hentries : u.drawOrder.mapM u.sprite? = some (u.drawOrder.map u.sprite) := by
    rw [funext u.sprite?_eq]
    exact List.mapM_pure
  unfold spriteLine?
  rw [Checked.slice_eq (Nat.zero_le _) hfew, hentries, Option.bind_eq_bind, Option.bind_some,
    Option.bind_eq_bind, Option.bind_some, foldlM_of_guard (takePixels?_eq hly), List.any_map,
    ← drawOrder_any]
  rfl

/-! ### The line -/

/-- The shade of a pixel, given the background colour and the sprite pixel there. -/
def mixPixel? (u : Picture) (color : Color) : Option SpritePixel → Option Shade
  | none => u.backgroundShade? color
  | some pixel => if pixel.behind && color ≠ 0 then u.backgroundShade? color else some pixel.shade

/-- The shades of the current line. -/
def lineShades? (u : Picture) : Option Row := do
  let sprites ← if u.spritesOn then u.spriteLine? else some (Vector.replicate screenWidth none)
  Vector.ofFnM fun x => do
    let color ← u.backgroundColor? x
    u.mixPixel? color (sprites.get x)

/-- Draw the current line into its part of the frame, which it must fill. -/
def renderLine? (u : Picture) : Option Picture := do
  let row ← u.lineShades?
  let start ← Checked.mul Checked.indexBits u.ly.toNat screenWidth
  let next ← Checked.add Checked.indexBits u.ly.toNat 1
  let stop ← Checked.mul Checked.indexBits next screenWidth
  let width ← Checked.slice Frame.size start stop
  let windowLine := if u.windowVisible then u.windowLine + 1 else u.windowLine
  if width = screenWidth then some { u with frame := u.frame.setRow u.ly.toNat row, windowLine }
  else none

theorem mixPixel?_eq (u : Picture) (color : Color) (pixel : Option SpritePixel) :
    u.mixPixel? color pixel = some (u.mixPixel color pixel) := by
  cases pixel with
  | none => exact u.backgroundShade?_eq color
  | some pixel =>
      unfold mixPixel? mixPixel
      rw [backgroundShade?_eq, apply_ite some]

theorem lineShades?_eq (hly : u.ly.toNat < screenHeight)
    (hfew : u.lineSprites.length ≤ spritesPerLine) :
    u.lineShades? = if u.showsAstray then none else some u.lineShades := by
  have hrow (sprites : SpriteLine) : (Vector.ofFnM fun x : Fin screenWidth => do
        let color ← u.backgroundColor? x
        u.mixPixel? color (sprites.get x)) =
      some (Vector.ofFn fun x => u.mixPixel (u.backgroundColor x) sprites[x]) := by
    simp only [backgroundColor?_eq, mixPixel?_eq, Option.bind_eq_bind, Option.bind_some]
    exact Vector.ofFnM_pure
  unfold lineShades? showsAstray lineShades
  cases u.spritesOn with
  | false =>
      simp only [Bool.false_eq_true, if_false, Bool.false_and, Option.bind_eq_bind, Option.bind_some]
      exact hrow _
  | true =>
      simp only [if_true, Bool.true_and]
      rw [spriteLine?_eq hly hfew]
      split
      · rfl
      · exact hrow _

/-- The current line can be drawn without exceeding a bound, unless it shows a sprite upside down
    that does not stand on it. -/
theorem renderLine?_eq (hly : u.ly.toNat < screenHeight)
    (hfew : u.lineSprites.length ≤ spritesPerLine) :
    u.renderLine? = if u.showsAstray then none else some u.renderLine := by
  have hline : u.ly.toNat < 144 := hly
  have hwide : screenWidth = 160 := rfl
  have hsize : Frame.size = 23040 := rfl
  have hstart : Checked.mul Checked.indexBits u.ly.toNat screenWidth =
      some (u.ly.toNat * screenWidth) :=
    Checked.mul_eq (by rw [Checked.indexBits, hwide]; omega)
  have hnext : Checked.add Checked.indexBits u.ly.toNat 1 = some (u.ly.toNat + 1) :=
    Checked.add_eq (by rw [Checked.indexBits]; omega)
  have hstop : Checked.mul Checked.indexBits (u.ly.toNat + 1) screenWidth =
      some ((u.ly.toNat + 1) * screenWidth) :=
    Checked.mul_eq (by rw [Checked.indexBits, hwide]; omega)
  have hslice : Checked.slice Frame.size (u.ly.toNat * screenWidth)
      ((u.ly.toNat + 1) * screenWidth) =
        some ((u.ly.toNat + 1) * screenWidth - u.ly.toNat * screenWidth) :=
    Checked.slice_eq (by rw [hwide]; omega) (by rw [hsize, hwide]; omega)
  have hwidth : (u.ly.toNat + 1) * screenWidth - u.ly.toNat * screenWidth = screenWidth := by
    rw [hwide]
    omega
  unfold renderLine?
  rw [lineShades?_eq hly hfew]
  cases u.showsAstray with
  | true => rfl
  | false =>
      simp only [Bool.false_eq_true, if_false, hstart, hnext, hstop, hslice, hwidth, if_true,
        Option.bind_eq_bind, Option.bind_some]
      rfl

end Handheld.Picture
