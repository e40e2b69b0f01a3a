/-
Module: Handheld.Proofs.Picture.Passage
Purpose: The passage from one V-blank to the next. Up to V-blank the dots that are left go down one
  by one; the dot that begins it is the only one to request its interrupt, and leaves a whole
  frame's dots.
Main exports: FirstEntry, vblankDots, firstEntry_untilFrame, vblankDots_eq, untilFrame_advance
-/
import Handheld.Proofs.Picture.Status

namespace Handheld.Picture

/-- The first of the coming dots that begins V-blank is dot number `d`. -/
structure FirstEntry (u : Picture) (d : Nat) : Prop where
  pos : 0 < d
  enters : (u.playAll (List.replicate (d - 1) .dot)).EntersVBlank .dot
  before : ∀ i < d - 1, ¬ (u.playAll (List.replicate i .dot)).EntersVBlank .dot

/-- The number of coming dots that request the V-blank interrupt. -/
def vblankDots : (dots : Nat) → Picture → Nat
  | 0, _ => 0
  | dots + 1, u =>
    (if .request .vblank ∈ (u.play .dot).2 then 1 else 0) + vblankDots dots (u.play .dot).1

variable {u : Picture}

theorem untilFrame_le (hon : u.lcdOn = true) : u.untilFrame ≤ cyclesPerFrame := by
  have hframe : vblankPosition ≤ cyclesPerFrame := by decide
  unfold untilFrame
  rw [if_pos hon]
  split <;> omega

theorem lcdOn_dots (n : Nat) : (u.playAll (List.replicate n .dot)).lcdOn = u.lcdOn := by
  induction n generalizing u with
  | zero => rfl
  | succ n ih => exact (ih (u := (u.play .dot).1)).trans (lcdOn_dot u)

/-- Before V-blank every dot takes one off what is left. -/
theorem untilFrame_dots {n : Nat} (hu : u.raster.Coherent) (hn : n < u.untilFrame) :
    (u.playAll (List.replicate n .dot)).untilFrame + n = u.untilFrame := by
  rcases pace_advance hu n with ⟨-, -, hless⟩
  rw [← advance_eq_playAll hu]
  exact hless hn

theorem entersVBlank_iff_untilFrame (hon : u.lcdOn = true) (hu : u.raster.Coherent) :
    u.EntersVBlank .dot ↔ u.untilFrame = 1 := by
  rw [entersVBlank_dot_iff hon hu]
  exact (untilFrame_tick hon hu).1

theorem firstEntry_untilFrame (hon : u.lcdOn = true) (hu : u.raster.Coherent) :
    FirstEntry u u.untilFrame := by
  have hpos := untilFrame_pos hu
  have hdots : ∀ n < u.untilFrame, ((u.playAll (List.replicate n .dot)).EntersVBlank .dot ↔
      n + 1 = u.untilFrame) := by
    intro n hn
    have hleft := untilFrame_dots hu hn
    have hlit := (lcdOn_dots (u := u) n).trans hon
    rw [entersVBlank_iff_untilFrame hlit (coherent_playAll hu _)]
    omega
  refine ⟨hpos, ?_, ?_⟩
  · rw [hdots (u.untilFrame - 1) (by omega)]
    omega
  · intro i hi
    rw [hdots i (by omega)]
    omega

theorem request_vblank_dot (hon : u.lcdOn = true) (hu : u.raster.Coherent) :
    .request .vblank ∈ (u.play .dot).2 ↔ u.untilFrame = 1 := by
  rw [play, advance_one hon, request_vblank_tick hon hu]
  exact (untilFrame_tick hon hu).1

/-- The dot that begins V-blank leaves a whole frame. -/
theorem untilFrame_of_entered (hon : u.lcdOn = true) (hu : u.raster.Coherent)
    (hlast : u.untilFrame = 1) : (u.play .dot).1.untilFrame = cyclesPerFrame := by
  have hat : u.tick.1.position = vblankPosition := (untilFrame_tick hon hu).1.mpr hlast
  have hlit : u.tick.1.lcdOn = true := (lcdOn_tick u).trans hon
  rw [play, advance_one hon]
  unfold untilFrame
  rw [if_pos hlit, hat, if_neg (Nat.lt_irrefl _), Nat.add_sub_cancel_left]

/-- Of a frame's worth of dots only the one that begins V-blank requests the interrupt. -/
theorem vblankDots_eq {n : Nat} (hon : u.lcdOn = true) (hu : u.raster.Coherent)
    (hn : n ≤ cyclesPerFrame) : vblankDots n u = if u.untilFrame ≤ n then 1 else 0 := by
  induction n generalizing u with
  | zero =>
      have hpos := untilFrame_pos hu
      rw [if_neg (by omega)]
      rfl
  | succ n ih =>
      have hrest := ih ((lcdOn_dot u).trans hon) (coherent_play hu .dot) (by omega)
      unfold vblankDots
      simp only [request_vblank_dot hon hu]
      rw [hrest]
      -- after the dot that begins V-blank a whole frame is left, which is more than the rest
      by_cases hlast : u.untilFrame = 1
      · rw [untilFrame_of_entered hon hu hlast]
        rw [if_pos hlast, if_neg (by omega), if_pos (by omega)]
      · have hless := (pace_dot hu).2 hlast
        rw [if_neg hlast, Nat.zero_add]
        congr 1
        rw [eq_iff_iff]
        omega

/-- Dots that take the raster past the beginning of V-blank, but not as far as the next one. -/
theorem untilFrame_advance {n : Nat} (hon : u.lcdOn = true) (hu : u.raster.Coherent)
    (hpast : u.untilFrame ≤ n) (hn : n ≤ cyclesPerFrame) :
    (u.advance n).1.untilFrame + n = u.untilFrame + cyclesPerFrame := by
  have hpos := untilFrame_pos hu
  rw [advance_eq_playAll hu]
  induction n generalizing u with
  | zero => omega
  | succ n ih =>
      have hlit := (lcdOn_dot u).trans hon
      have hu' := coherent_play hu .dot
      have hall : u.playAll (List.replicate (n + 1) .dot) =
          (u.play .dot).1.playAll (List.replicate n .dot) := by
        rw [List.replicate_succ]
        rfl
      rw [hall]
      by_cases hlast : u.untilFrame = 1
      · have hfull := untilFrame_of_entered hon hu hlast
        have hleft := untilFrame_dots hu' (n := n) (by omega)
        omega
      · have hless := (pace_dot hu).2 hlast
        have hrest := ih hlit hu' (by omega) (by omega) (by omega)
        omega

/-- Within a line's time from its beginning, V-blank is at its first line. -/
theorem line_of_untilFrame (hon : u.lcdOn = true) (hu : u.raster.Coherent)
    (hrecent : cyclesPerFrame < u.untilFrame + dotsPerLine) : u.ly.toNat = screenHeight := by
  have hdot := dot_lt hon hu
  unfold untilFrame at hrecent
  rw [if_pos hon] at hrecent
  by_cases hbefore : u.position < vblankPosition
  · rw [if_pos hbefore] at hrecent
    have hlong : vblankPosition + dotsPerLine ≤ cyclesPerFrame := by decide
    omega
  · rw [if_neg hbefore] at hrecent
    unfold position vblankPosition at *
    simp only [screenHeight, dotsPerLine, cyclesPerFrame, linesPerFrame] at *
    omega

end Handheld.Picture
