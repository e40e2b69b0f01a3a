/-
Module: Handheld.Proofs.Picture.Invariant
Purpose: What always holds of the picture unit. All its counters stay within their ranges, the mode
  says where in the frame the raster is and the other way round, and with the display off everything
  rests at the top of the frame.
Main exports: WellFormed, wellFormed_of_reachable
-/
import Handheld.Proofs.Picture.Status

namespace Handheld.Picture

variable {u u' : Picture} {signals : List Signal}

/-! ### The raster of a dark display -/

/-- A raster that is not lit is at the top of the frame. -/
def Raster.AtRest (r : Raster) : Prop :=
  r.lit = false → r.ly = 0 ∧ r.dot = 0 ∧ r.mode = .hblank

theorem Raster.atRest_switch (r : Raster) (on : Bool) : (r.switch on).AtRest := by
  intro hdark
  cases on with
  | false => exact ⟨rfl, rfl, rfl⟩
  | true => cases hdark

theorem atRest_play (beat : Beat) (h : u.raster.AtRest) : (u.play beat).1.raster.AtRest := by
  cases beat with
  | dot =>
      intro hdark
      have hoff : u.lcdOn = false := (lcdOn_dot u).symm.trans hdark
      rw [play, advance_of_off hoff]
      exact h hoff
  | write register value =>
      by_cases hlcdc : register = .lcdc
      · subst hlcdc
        rw [play, write, raster_writeLcdc]
        split
        · exact h
        · exact Raster.atRest_switch _ _
      · rw [play, raster_write hlcdc]
        exact h
  | writeVram i value => rwa [play, raster_writeVram]
  | writeOam i value => rwa [play, raster_writeOam]
  | transferOam i value => exact h
  | forget => exact h

/-! ### The sprites of a line -/

/-- A list of sprites that a look-up can give. -/
structure LookUpResult (sprites : List (Fin spriteCount)) : Prop where
  length_le : sprites.length ≤ spritesPerLine
  increasing : sprites.Pairwise (· < ·)

theorem lookUpResult_spritesOnLine (u : Picture) : LookUpResult u.spritesOnLine where
  length_le := length_spritesOnLine u
  increasing := by
    have hall : (List.finRange spriteCount).Pairwise (· < ·) := List.pairwise_lt_finRange _
    exact (hall.filter _).sublist (List.take_sublist _ _)

theorem Moves.lookUpResult (h : Moves u u' signals) (hu : LookUpResult u.lineSprites) :
    LookUpResult u'.lineSprites := by
  cases h with
  | scanned hmode hdot => exact lookUpResult_spritesOnLine { u with dot := u.dot + 1 }
  | _ => exact hu

/-- Between two dots the sprites of the line stay, and so does the frame. -/
theorem lineSprites_play {beat : Beat} (h : beat = .dot → u.lcdOn = false) :
    (u.play beat).1.lineSprites = u.lineSprites := by
  cases beat with
  | dot =>
      rw [play, advance_of_off (h rfl)]
      rfl
  | write register value =>
      cases register with
      | lcdc =>
          simp only [play, write, writeLcdc]
          split
          · rfl
          · unfold setLcd
            split <;> rfl
      | _ => rfl
  | writeVram i value =>
      simp only [play, writeVram]
      split <;> rfl
  | writeOam i value =>
      simp only [play, writeOam]
      split <;> rfl
  | _ => rfl

theorem lookUpResult_play (beat : Beat) (hu : u.raster.Coherent)
    (h : LookUpResult u.lineSprites) : LookUpResult (u.play beat).1.lineSprites := by
  by_cases hlit : beat = .dot ∧ u.lcdOn = true
  · rcases hlit with ⟨rfl, hon⟩
    rw [play, advance_one hon]
    exact (moves_nextDot hon hu).lookUpResult h
  · rw [lineSprites_play]
    · exact h
    · intro hdot
      exact (Bool.not_eq_true _).mp fun hon => hlit ⟨hdot, hon⟩

/-! ### The modes -/

/-- Each mode has its own part of the frame. -/
structure ModesPlaced (u : Picture) : Prop where
  vblank_iff : u.mode = .vblank ↔ screenHeight ≤ u.ly.toNat
  oamScan_iff : u.ly.toNat < screenHeight → (u.mode = .oamScan ↔ u.dot < scanDots)
  transfer_iff : u.ly.toNat < screenHeight →
    (u.mode = .transfer ↔ scanDots ≤ u.dot ∧ u.dot < scanDots + u.transferDots)
  hblank_iff : u.ly.toNat < screenHeight →
    (u.mode = .hblank ↔ scanDots + u.transferDots ≤ u.dot)

theorem modesPlaced (hon : u.lcdOn = true) (hu : u.raster.Coherent) : ModesPlaced u := by
  have hplaced : u.raster.Placed := hu.placed hon
  unfold Raster.Placed at hplaced
  dsimp only [raster] at hplaced
  cases hmode : u.mode with
  | oamScan =>
      rw [hmode] at hplaced
      rcases hplaced with ⟨hly, hdot⟩
      constructor
      · simp [hmode, hly]
      · simp [hmode, hdot]
      · intro _
        simp only [hmode, reduceCtorEq, false_iff]
        omega
      · intro _
        simp only [hmode, reduceCtorEq, false_iff]
        omega
  | transfer =>
      rw [hmode] at hplaced
      rcases hplaced with ⟨hly, hlow, hhigh⟩
      constructor
      · simp [hmode, hly]
      · simp [hmode, hlow]
      · simp [hmode, hlow, hhigh]
      · simp [hmode, hhigh]
  | hblank =>
      rw [hmode] at hplaced
      rcases hplaced with ⟨hly, hlow, hhigh⟩
      have hscan : scanDots ≤ u.dot := Nat.le_of_add_right_le hlow
      constructor
      · simp [hmode, hly]
      · simp [hmode, hscan]
      · simp [hmode, hlow]
      · simp [hmode, hlow]
  | vblank =>
      rw [hmode] at hplaced
      rcases hplaced with ⟨hly, -, -⟩
      have hnot := Nat.not_lt.mpr hly
      constructor
      · simp [hmode, hly]
      · exact fun h => absurd h hnot
      · exact fun h => absurd h hnot
      · exact fun h => absurd h hnot

/-! ### The invariant -/

/-- What holds of a picture unit at all times. -/
structure WellFormed (u : Picture) : Prop where
  dot_lt : u.dot < dotsPerLine
  line_lt : u.ly.toNat < linesPerFrame
  offCycles_lt : u.offCycles < cyclesPerFrame
  base_le : baseTransferDots ≤ u.transferDots
  le_max : u.transferDots ≤ maxTransferDots
  sprites : LookUpResult u.lineSprites
  sprite_lt : ∀ i ∈ u.lineSprites, i.val < spriteCount
  pixels : u.frame.pixels.length = Frame.size
  shade_le : ∀ shade ∈ u.frame.pixels, shade.val ≤ 3
  lit : u.lcdOn = true → ModesPlaced u
  dark : u.lcdOn = false → u.ly = 0 ∧ u.dot = 0 ∧ u.mode = .hblank ∧ u.statLine = false

theorem atRest_of_reachable (h : Reachable u) : u.raster.AtRest := by
  apply h.keeps
  · intro hdark
    cases hdark
  · intro u beat _ hrest
    exact atRest_play beat hrest

theorem lookUpResult_of_reachable (h : Reachable u) : LookUpResult u.lineSprites := by
  apply h.keeps
  · exact ⟨Nat.zero_le _, List.Pairwise.nil⟩
  · intro u beat hu hsprites
    exact lookUpResult_play beat hu hsprites

/-- Whatever has happened to a picture unit since power-on, it is well formed. -/
theorem wellFormed_of_reachable (h : Reachable u) : WellFormed u := by
  have hu := h.coherent
  have hrest : u.lcdOn = false → u.ly = 0 ∧ u.dot = 0 ∧ u.mode = .hblank := atRest_of_reachable h
  refine ⟨?dot_lt, ?line_lt, hu.offCycles_lt, hu.base_le, hu.le_max, lookUpResult_of_reachable h,
    fun i _ => i.isLt, u.frame.length_pixels, ?shade_le, fun hon => modesPlaced hon hu, ?dark⟩
  case dot_lt =>
    cases hon : u.lcdOn with
    | true => exact dot_lt hon hu
    | false =>
        rcases hrest hon with ⟨-, hdot, -⟩
        rw [hdot]
        decide
  case line_lt =>
    cases hon : u.lcdOn with
    | true => exact (hu.placed hon).line_lt
    | false =>
        rcases hrest hon with ⟨hly, -, -⟩
        rw [hly]
        decide
  case shade_le =>
    intro shade _
    exact Nat.le_of_lt_succ shade.isLt
  case dark =>
    intro hoff
    rcases hrest hoff with ⟨hly, hdot, hmode⟩
    have hlatch : u.statLine = false :=
      (synced_of_reachable h).statLine_eq_false_iff.mpr (not_statDue_of_off hoff)
    exact ⟨hly, hdot, hmode, hlatch⟩

/-- Two hundred dots into the frame, with a sprite on its first line. -/
theorem wellFormed_midLine :
    Reachable ((({} : Picture).play (.transferOam ⟨0, by decide⟩ 16)).1.advance 200).1 ∧
      WellFormed ((({} : Picture).play (.transferOam ⟨0, by decide⟩ 16)).1.advance 200).1 := by
  have hreachable := Reachable.advance (.play .powerOn (.transferOam ⟨0, by decide⟩ 16)) 200
  exact ⟨hreachable, wellFormed_of_reachable hreachable⟩

end Handheld.Picture
