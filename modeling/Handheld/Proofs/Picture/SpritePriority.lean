/-
Module: Handheld.Proofs.Picture.SpritePriority
Purpose: Which sprite takes a pixel. Sprites take their pixels one after the other, the ones further
  left first, and what is taken stays taken, also by a sprite that is then hidden behind the
  background. So each pixel goes to the foremost of the sprites that have something there, and with
  that every pixel of a drawn line follows the rule for a single pixel.
Main exports: inkAt, getElem_spriteLine, mem_spritesOnLine, spriteColor_eq, getElem_spriteLine_eq,
  lineShades_eq, renderLine_pixels
-/
import Handheld.Proofs.Picture.Drawing
import Handheld.Proofs.Picture.Pixel

namespace Handheld.Picture

variable {u : Picture}

/-! ### One sprite -/

/-- What a column of a sprite has to show on the current line; colour 0 shows nothing. -/
def columnInk (u : Picture) (s : Sprite) (column : Nat) : Option SpritePixel :=
  if u.spriteColor s column ≠ 0 then
    some ⟨applyPalette (u.spritePalette s) (u.spriteColor s column), s.behind⟩
  else none

/-- What a sprite has to show in a column of the screen. -/
def inkAt (u : Picture) (x : Nat) (s : Sprite) : Option SpritePixel :=
  if s.x.toNat ≤ x + 8 ∧ x + 8 < s.x.toNat + 8 then u.columnInk s (x + 8 - s.x.toNat) else none

/-- A column of a sprite takes its own pixel, if that is still free, and no other. -/
theorem getElem_takePixel (s : Sprite) (taken : SpriteLine) (column : Nat) {x : Nat}
    (hx : x < screenWidth) :
    (u.takePixel s taken column)[x] =
      taken[x].or (if s.x.toNat + column = x + 8 then u.columnInk s column else none) := by
  unfold takePixel columnInk
  dsimp only
  by_cases hhere : s.x.toNat + column = x + 8
  · simp only [hhere, Nat.add_sub_cancel, Nat.le_add_left, hx, true_and, dif_pos, if_true]
    rw [apply_ite fun pixels : SpriteLine => pixels[x], Vector.getElem_set_self]
    cases taken[x] with
    | none => by_cases hclear : u.spriteColor s column = 0 <;> simp [hclear]
    | some pixel => simp
  · rw [if_neg hhere, Option.or_none]
    split
    · next hscreen =>
      have hne : s.x.toNat + column - 8 ≠ x := by omega
      split
      · exact Vector.getElem_set_ne _ _ hne
      · rfl
    · rfl

/-- The columns of a sprite, from its left edge on. -/
theorem getElem_foldl_takePixel (s : Sprite) (taken : SpriteLine) (columns : Nat) {x : Nat}
    (hx : x < screenWidth) :
    ((List.range columns).foldl (u.takePixel s) taken)[x] =
      taken[x].or (if s.x.toNat ≤ x + 8 ∧ x + 8 < s.x.toNat + columns then
        u.columnInk s (x + 8 - s.x.toNat) else none) := by
  induction columns with
  | zero =>
      rw [if_neg (by omega), Option.or_none]
      rfl
  | succ columns ih =>
      rw [List.range_succ, List.foldl_append, List.foldl_cons, List.foldl_nil,
        getElem_takePixel _ _ _ hx, ih, Option.or_assoc]
      refine congrArg taken[x].or ?_
      -- the new column is the one at `x`, or it changes nothing there
      by_cases hhere : s.x.toNat + columns = x + 8
      · have hcolumn : x + 8 - s.x.toNat = columns := by omega
        rw [if_neg (by omega), if_pos hhere, if_pos (by omega), Option.none_or, hcolumn]
      · rw [if_neg hhere, Option.or_none]
        exact if_congr (by omega) rfl rfl

theorem getElem_takePixels (taken : SpriteLine) (s : Sprite) {x : Nat} (hx : x < screenWidth) :
    (u.takePixels taken s)[x] = taken[x].or (u.inkAt x s) :=
  getElem_foldl_takePixel s taken 8 hx

/-! ### All sprites of the line -/

/-- The first sprite in the order that has something to put in a column does so. -/
theorem getElem_foldl_takePixels (sprites : List Sprite) (taken : SpriteLine) {x : Nat}
    (hx : x < screenWidth) :
    (sprites.foldl u.takePixels taken)[x] = taken[x].or (sprites.findSome? (u.inkAt x)) := by
  induction sprites generalizing taken with
  | nil => simp
  | cons s rest ih =>
      rw [List.foldl_cons, ih, getElem_takePixels _ _ hx, Option.or_assoc, List.findSome?_cons]
      cases u.inkAt x s <;> simp

theorem getElem_spriteLine (u : Picture) {x : Nat} (hx : x < screenWidth) :
    u.spriteLine[x] = u.drawOrder.findSome? fun i => u.inkAt x (u.sprite i) := by
  unfold spriteLine
  rw [getElem_foldl_takePixels _ _ hx, Vector.getElem_replicate, Option.none_or, List.findSome?_map]
  rfl

/-! ### The selection -/

/-- Of a rising list, the elements among the first `k` that pass a test are those that pass it after
    fewer than `k` smaller ones. -/
theorem mem_take_filter_iff {n : Nat} {l : List (Fin n)} (hl : l.Pairwise (· < ·))
    (p : Fin n → Bool) (k : Nat) (i : Fin n) :
    i ∈ (l.filter p).take k ↔ i ∈ l ∧ p i = true ∧ l.countP (fun j => j < i ∧ p j = true) < k := by
  induction l generalizing k with
  | nil => simp
  | cons a rest ih =>
      obtain ⟨hfirst, hrest⟩ := List.pairwise_cons.mp hl
      by_cases ha : p a = true
      · rw [List.filter_cons_of_pos ha]
        cases k with
        | zero => simp
        | succ k =>
            rw [List.take_succ_cons, List.mem_cons, ih hrest k, List.mem_cons, List.countP_cons]
            by_cases hi : i = a
            · subst hi
              have hnone : rest.countP (fun j => j < i ∧ p j = true) = 0 := by
                rw [List.countP_eq_zero]
                intro j hj hbefore
                exact Fin.lt_asymm (of_decide_eq_true hbefore).1 (hfirst j hj)
              have hself : ¬ (decide (i < i ∧ p i = true) = true) := by simp
              rw [hnone, if_neg hself]
              exact iff_of_true (.inl rfl) ⟨.inl rfl, ha, Nat.zero_lt_succ k⟩
            · have hbefore (hmem : i ∈ rest) : a < i := hfirst i hmem
              constructor
              · rintro (heq | ⟨hmem, hpass, hfew⟩)
                · exact absurd heq hi
                · refine ⟨.inr hmem, hpass, ?_⟩
                  simp only [hbefore hmem, ha, and_self, decide_true, if_true]
                  omega
              · rintro ⟨hmem, hpass, hfew⟩
                have hmem := hmem.resolve_left hi
                simp only [hbefore hmem, ha, and_self, decide_true, if_true] at hfew
                exact .inr ⟨hmem, hpass, by omega⟩
      · rw [List.filter_cons_of_neg ha, ih hrest k, List.mem_cons, List.countP_cons]
        simp only [ha, and_false, decide_false, Bool.false_eq_true, if_false, Nat.add_zero]
        constructor
        · rintro ⟨hmem, hpass⟩
          exact ⟨.inr hmem, hpass⟩
        · rintro ⟨hmem, hpass⟩
          exact ⟨hmem.resolve_left fun heq => ha (heq ▸ hpass.1), hpass⟩

theorem spriteHeight_eq (u : Picture) : u.spriteHeight = u.figureHeight := by
  have htall : u.tallSprites = u.lcdcBit 2 := u.control_eq rfl
  unfold spriteHeight figureHeight
  rw [htall]

theorem onLine_iff (u : Picture) (i : Fin spriteCount) :
    u.onLine (u.sprite i) = true ↔ u.Stands i := by
  unfold onLine Stands
  rw [Bool.and_eq_true, decide_eq_true_iff, decide_eq_true_iff, spriteHeight_eq]

/-- The scan of the table finds the selected sprites. -/
theorem mem_spritesOnLine (u : Picture) (i : Fin spriteCount) :
    i ∈ u.spritesOnLine ↔ u.Selected i := by
  unfold spritesOnLine Selected
  rw [mem_take_filter_iff (List.pairwise_lt_finRange _)]
  simp only [onLine_iff, List.mem_finRange, true_and]
  rfl

/-! ### Selected sprites -/

/-- On a line on which a sprite stands, its row is the one that the rule takes. -/
theorem toNat_spriteRow (hly : u.ly.toNat < screenHeight) {i : Fin spriteCount} (h : u.Stands i) :
    (u.spriteRow (u.sprite i)).toNat =
      let row := u.ly.toNat + 16 - (u.sprite i).y.toNat
      if (u.sprite i).attributes.toNat.testBit 6 then u.figureHeight - 1 - row else row := by
  have hline : u.ly.toNat < 144 := hly
  have hy := (u.sprite i).y.toNat_lt
  obtain ⟨habove, hbelow⟩ := h
  have hflip : (u.sprite i).flipY = (u.sprite i).attributes.toNat.testBit 6 :=
    and_mask_ne_zero _ rfl
  have hrow : (u.ly + 16 - (u.sprite i).y).toNat = u.ly.toNat + 16 - (u.sprite i).y.toNat := by
    have hsixteen : (16 : UInt8).toNat = 16 := rfl
    rw [UInt8.toNat_sub, UInt8.toNat_add, hsixteen]
    omega
  have hlast :
      (UInt8.ofNat u.figureHeight - 1).toNat = u.figureHeight - 1 ∧ u.figureHeight ≤ 16 := by
    unfold figureHeight
    split <;> decide
  unfold spriteRow
  dsimp only
  rw [hflip, spriteHeight_eq]
  cases (u.sprite i).attributes.toNat.testBit 6 with
  | false => exact hrow
  | true =>
      simp only [if_true]
      rw [UInt8.toNat_sub, hrow, hlast.1]
      omega

/-- On a line on which it stands, a sprite has the colours of the rule. -/
theorem spriteColor_eq (hly : u.ly.toNat < screenHeight) {i : Fin spriteCount} (h : u.Stands i)
    (x : Nat) : (u.spriteColor (u.sprite i) (x + 8 - (u.sprite i).x.toNat)).val =
      u.figurePixel i x := by
  have hflip : (u.sprite i).flipX = (u.sprite i).attributes.toNat.testBit 5 :=
    and_mask_ne_zero _ rfl
  have htile : u.topTile (u.sprite i) =
      if u.lcdcBit 2 then (u.sprite i).tile &&& 0xFE else (u.sprite i).tile := by
    have htall : u.tallSprites = u.lcdcBit 2 := u.control_eq rfl
    rw [topTile, htall]
  unfold spriteColor
  rw [rowColor_eq, spriteRowPlace, toNat_spriteRow hly h, htile, hflip, Nat.mul_comm _ 16,
    Nat.mul_comm _ 2]
  rfl

/-- A selected sprite has something to show in a column exactly if it has a pixel there, and its
    shade is then that of the rule. -/
theorem inkAt_eq (hly : u.ly.toNat < screenHeight) {i : Fin spriteCount} (h : u.Selected i)
    (x : Nat) : u.inkAt x (u.sprite i) =
      if u.Inks x i then
        some ⟨applyPalette (u.spritePalette (u.sprite i))
          (u.spriteColor (u.sprite i) (x + 8 - (u.sprite i).x.toNat)), (u.sprite i).behind⟩
      else none := by
  have hcolor := spriteColor_eq hly h.1 x
  have hclear : u.spriteColor (u.sprite i) (x + 8 - (u.sprite i).x.toNat) ≠ 0 ↔
      u.figurePixel i x ≠ 0 := by
    rw [← hcolor, Ne, Ne, Fin.ext_iff]
    rfl
  have hinks : u.Inks x i ↔ ((u.sprite i).x.toNat ≤ x + 8 ∧ x + 8 < (u.sprite i).x.toNat + 8) ∧
      u.spriteColor (u.sprite i) (x + 8 - (u.sprite i).x.toNat) ≠ 0 := by
    rw [hclear, and_assoc]
    exact and_iff_right h
  unfold inkAt columnInk
  rw [← ite_and]
  exact if_congr hinks.symm rfl rfl

theorem inkAt_ne_none_iff (hly : u.ly.toNat < screenHeight) {i : Fin spriteCount}
    (h : u.Selected i) (x : Nat) : u.inkAt x (u.sprite i) ≠ none ↔ u.Inks x i := by
  rw [inkAt_eq hly h]
  split
  · next hyes => exact iff_of_true (Option.some_ne_none _) hyes
  · next hno => exact iff_of_false (fun hne => hne rfl) hno

/-! ### The foremost sprite -/

theorem drawnBefore_iff (u : Picture) (i j : Fin spriteCount) : u.drawnBefore i j = true ↔
    (u.sprite i).x < (u.sprite j).x ∨ (u.sprite i).x = (u.sprite j).x ∧ i ≤ j := by
  unfold drawnBefore
  rw [Bool.or_eq_true, Bool.and_eq_true, decide_eq_true_iff, decide_eq_true_iff, beq_iff_eq]

theorem mem_drawOrder (u : Picture) (i : Fin spriteCount) :
    i ∈ u.drawOrder ↔ i ∈ u.lineSprites :=
  (List.mergeSort_perm u.lineSprites u.drawnBefore).mem_iff

/-- The sprites of the line stand in the order in which they are drawn. -/
theorem pairwise_drawOrder (u : Picture) :
    u.drawOrder.Pairwise fun i j => u.drawnBefore i j = true := by
  apply List.pairwise_mergeSort
  · intro i j k hij hjk
    rw [drawnBefore_iff, UInt8.lt_iff_toNat_lt, ← UInt8.toNat_inj, Fin.le_def] at *
    omega
  · intro i j
    rw [Bool.or_eq_true, drawnBefore_iff, drawnBefore_iff, UInt8.lt_iff_toNat_lt,
      UInt8.lt_iff_toNat_lt, ← UInt8.toNat_inj, ← UInt8.toNat_inj, Fin.le_def, Fin.le_def]
    omega

/-- Two sprites are not both foremost. -/
theorem Foremost.unique {x : Nat} {i j : Fin spriteCount} (hi : u.Foremost x i)
    (hj : u.Foremost x j) : i = j := by
  have hij := hi.2 j hj.1
  have hji := hj.2 i hi.1
  rw [UInt8.lt_iff_toNat_lt, ← UInt8.toNat_inj, Fin.le_def] at hij hji
  rw [Fin.ext_iff]
  omega

theorem foremost?_eq_some_iff (u : Picture) (x : Nat) (i : Fin spriteCount) :
    u.foremost? x = some i ↔ u.Foremost x i := by
  have hfound {j : Fin spriteCount} (h : u.foremost? x = some j) : u.Foremost x j := by
    have hpasses := List.find?_some h
    exact of_decide_eq_true hpasses
  constructor
  · exact hfound
  · intro h
    cases hsome : u.foremost? x with
    | none => exact absurd (decide_eq_true h) (List.find?_eq_none.mp hsome i (List.mem_finRange i))
    | some j => rw [(hfound hsome).unique h]

/-- The first sprite in the drawing order with something to show is the foremost one. -/
theorem foremost_of_first (hly : u.ly.toNat < screenHeight)
    (hscan : ∀ i, i ∈ u.lineSprites ↔ u.Selected i) {x : Nat}
    {before after : List (Fin spriteCount)} {i : Fin spriteCount}
    (horder : u.drawOrder = before ++ i :: after)
    (hi : u.inkAt x (u.sprite i) ≠ none)
    (hbefore : ∀ j ∈ before, u.inkAt x (u.sprite j) = none) : u.Foremost x i := by
  have hmem (j : Fin spriteCount) : j ∈ before ++ i :: after ↔ u.Selected j := by
    rw [← horder, mem_drawOrder, hscan]
  have hselected : u.Selected i := (hmem i).mp (List.mem_append_right _ List.mem_cons_self)
  refine ⟨(inkAt_ne_none_iff hly hselected x).mp hi, ?_⟩
  intro j hj
  rcases List.mem_append.mp ((hmem j).mpr hj.1) with hearlier | hlater
  · exact absurd (hbefore j hearlier) ((inkAt_ne_none_iff hly hj.1 x).mpr hj)
  · rcases List.mem_cons.mp hlater with rfl | hlater
    · exact .inr ⟨rfl, Fin.le_refl _⟩
    · have hsorted := u.pairwise_drawOrder
      rw [horder, List.pairwise_append, List.pairwise_cons] at hsorted
      exact (u.drawnBefore_iff i j).mp (hsorted.2.1.1 j hlater)

/-- Each pixel of the sprite line is that of the foremost sprite. -/
theorem getElem_spriteLine_eq (hly : u.ly.toNat < screenHeight)
    (hscan : ∀ i, i ∈ u.lineSprites ↔ u.Selected i) {x : Nat} (hx : x < screenWidth) :
    u.spriteLine[x] = (u.foremost? x).bind fun i => u.inkAt x (u.sprite i) := by
  rw [getElem_spriteLine u hx]
  cases hfirst : u.drawOrder.findSome? fun i => u.inkAt x (u.sprite i) with
  | some pixel =>
      obtain ⟨before, i, after, horder, hi, hbefore⟩ := List.findSome?_eq_some_iff.mp hfirst
      have hforemost := foremost_of_first hly hscan horder (by simp [hi]) hbefore
      rw [(u.foremost?_eq_some_iff x i).mpr hforemost]
      exact hi.symm
  | none =>
      cases hforemost : u.foremost? x with
      | none => rfl
      | some i =>
          have hselected := ((u.foremost?_eq_some_iff x i).mp hforemost).1.1
          have hmem := (u.mem_drawOrder i).mpr ((hscan i).mpr hselected)
          exact (List.findSome?_eq_none_iff.mp hfirst i hmem).symm

/-! ### The line -/

/-- The pixel of a sprite is mixed with the background as in the rule. -/
theorem mixPixel_inkAt (hly : u.ly.toNat < screenHeight) {i : Fin spriteCount} {x : Fin screenWidth}
    (h : u.Inks x i) :
    (u.mixPixel (u.backgroundColor x) (u.inkAt x (u.sprite i))).val =
      if (u.sprite i).attributes.toNat.testBit 7 = true ∧ u.groundPixel x ≠ 0 then u.groundShade x
      else u.figureShade i x := by
  have hcolor : u.backgroundColor x ≠ 0 ↔ u.groundPixel x ≠ 0 := by
    rw [← u.backgroundColor_eq x, Ne, Ne, Fin.ext_iff]
    rfl
  have hbehind : (u.sprite i).behind = (u.sprite i).attributes.toNat.testBit 7 :=
    and_mask_ne_zero _ rfl
  have hpalette : (u.sprite i).secondPalette = (u.sprite i).attributes.toNat.testBit 4 :=
    and_mask_ne_zero _ rfl
  rw [inkAt_eq hly h.1, if_pos h]
  unfold mixPixel figureShade
  simp only [hbehind, Bool.and_eq_true, decide_eq_true_eq, hcolor, apply_ite Fin.val,
    backgroundShade_eq, applyPalette_eq, spritePalette, hpalette, spriteColor_eq hly h.1.1]

/-- Every pixel of the line is the one of the rule. -/
theorem lineShades_eq (hly : u.ly.toNat < screenHeight)
    (hscan : ∀ i, i ∈ u.lineSprites ↔ u.Selected i) (x : Fin screenWidth) :
    u.lineShades[x].val = u.pixelShade x := by
  have hsprites : u.spritesOn = u.lcdcBit 1 := u.control_eq rfl
  have hpixel : (if u.spritesOn then u.spriteLine else Vector.replicate screenWidth none)[x.val] =
      (if u.lcdcBit 1 then u.foremost? x else none).bind fun i => u.inkAt x (u.sprite i) := by
    rw [hsprites]
    cases u.lcdcBit 1 with
    | false => simp
    | true => exact getElem_spriteLine_eq hly hscan x.isLt
  unfold lineShades pixelShade
  simp only [Fin.getElem_fin, Vector.getElem_ofFn]
  rw [hpixel]
  cases hseen : if u.lcdcBit 1 then u.foremost? x else none with
  | none => exact u.backgroundShade_eq x
  | some i =>
      have hforemost : u.Foremost x i := by
        rw [← foremost?_eq_some_iff]
        split at hseen
        · exact hseen
        · cases hseen
      exact mixPixel_inkAt hly hforemost.1

/-- A line of the screen whose sprites are those that the scan of the table finds is drawn without
    exceeding a bound, each of its pixels becomes the one of the rule, and no other line changes. -/
theorem renderLine_pixels (hly : u.ly.toNat < screenHeight)
    (hscan : u.lineSprites = u.spritesOnLine) :
    u.renderLine? = some u.renderLine ∧
      ∀ x y, x < screenWidth → y < screenHeight →
        (u.renderLine.frame.pixel? x y).map Fin.val =
          if y = u.ly.toNat then some (u.pixelShade x) else (u.frame.pixel? x y).map Fin.val := by
  have hselected (i : Fin spriteCount) : i ∈ u.lineSprites ↔ u.Selected i := by
    rw [hscan, mem_spritesOnLine]
  constructor
  · have hfew : u.lineSprites.length ≤ spritesPerLine := by
      rw [hscan]
      exact length_spritesOnLine u
    have hstand : (u.lineSprites.any fun i => u.astray (u.sprite i)) = false := by
      rw [List.any_eq_false]
      intro i hi
      have honLine := (u.onLine_iff i).mpr ((hselected i).mp hi).1
      simp [astray, honLine]
    have hastray : u.showsAstray = false := by
      rw [showsAstray, hstand, Bool.and_false]
    rw [renderLine?_eq hly hfew, hastray, if_neg Bool.false_ne_true]
  · intro x y hx hy
    have hframe : u.renderLine.frame = u.frame.setRow u.ly.toNat u.lineShades := rfl
    rw [pixel?_eq _ hx hy, pixel?_eq _ hx hy, hframe, Option.map_some, Option.map_some]
    by_cases hline : y = u.ly.toNat
    · subst hline
      rw [if_pos rfl, getElem_setRow_self _ hy]
      exact congrArg some (lineShades_eq hly hselected ⟨x, hx⟩)
    · rw [if_neg hline, getElem_setRow_ne _ hy _ (Ne.symm hline)]

/-- The top line over a dark background, with two sprites. The one further left is behind the
    background, and where they overlap it keeps the other one from being seen. -/
def overlapping : Picture :=
  { vram := Vector.replicate vramSize 0xFF
    oam := (Vector.replicate oamSize 0).set 0 16 |>.set 1 8 |>.set 3 0x80 |>.set 4 16 |>.set 5 9
    lcdc := 0x93
    obp0 := 0x40
    lineSprites := [⟨0, by decide⟩, ⟨1, by decide⟩] }

theorem renderLine_pixels_overlapping :
    overlapping.ly.toNat < screenHeight ∧ overlapping.lineSprites = overlapping.spritesOnLine ∧
      (overlapping.renderLine.frame.pixel? 7 0).map Fin.val = some 3 ∧
      (overlapping.renderLine.frame.pixel? 8 0).map Fin.val = some 1 := by
  have hline : 0 = overlapping.ly.toNat := rfl
  have hly : overlapping.ly.toNat < screenHeight := by decide
  have hscan : overlapping.lineSprites = overlapping.spritesOnLine := by decide +kernel
  obtain ⟨-, hpixels⟩ := renderLine_pixels hly hscan
  have hhidden : overlapping.pixelShade 7 = 3 := by decide +kernel
  have hseen : overlapping.pixelShade 8 = 1 := by decide +kernel
  refine ⟨hly, hscan, ?_, ?_⟩
  · rw [hpixels 7 0 (by decide) (by decide), if_pos hline, hhidden]
  · rw [hpixels 8 0 (by decide) (by decide), if_pos hline, hseen]

end Handheld.Picture
