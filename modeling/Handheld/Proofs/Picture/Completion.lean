/-
Module: Handheld.Proofs.Picture.Completion
Purpose: The frame on the screen beside the frame that was last completed. Lines are drawn into the
  frame that is shown, so the two differ in the lines that have been drawn since: a line of the
  frame is the one drawn last since the completion, and the completed one if there is none.
Main exports: completes, drawn?, completedFrame, drawnSince, Overlay, overlay_replay,
  Overlay.eq_iff, followFrame_of_unmarked
-/
import Handheld.Proofs.Picture.Drawing
import Handheld.Proofs.Picture.Invariant
import Mathlib.Logic.Function.Basic

namespace Handheld.Picture

instance (u : Picture) : Decidable (AtLineEnd u) :=
  inferInstanceAs (Decidable (_ ∧ _))

/-- Whether a beat completes a frame: it sets the mark, and would do so if the mark had been taken
    just before. -/
def completes (u : Picture) (beat : Beat) : Bool :=
  (u.clearFrameReady.play beat).1.frameReady

/-- The line that a beat draws, if it draws one, and its pixels. -/
def drawn? (u : Picture) : Beat → Option (Nat × Row)
  | .dot => if u.lcdOn ∧ AtLineEnd u then some (u.ly.toNat, u.lineShades) else none
  | _ => none

/-- Lines of pixels by their numbers; a line without an entry has not been drawn. -/
abbrev DrawnLines := Nat → Option Row

/-- What a beat adds to the lines drawn since the last completed frame. -/
def drawLine (u : Picture) (beat : Beat) (lines : DrawnLines) : DrawnLines :=
  if u.completes beat then fun _ => none
  else
    match u.drawn? beat with
    | some (y, row) => Function.update lines y (some row)
    | none => lines

/-- The frame that is the completed one after a beat. -/
def keepFrame (u : Picture) (beat : Beat) (completed : Frame) : Frame :=
  if u.completes beat then (u.play beat).1.frame else completed

/-- The last completed frame and the lines drawn since, after beats from a unit on for which they
    are given. -/
def followFrame (u : Picture) (completed : Frame) (lines : DrawnLines) :
    List Beat → Frame × DrawnLines
  | [] => (completed, lines)
  | beat :: rest =>
    followFrame (u.play beat).1 (u.keepFrame beat completed) (u.drawLine beat lines) rest

/-- The frame as its last completion left it, after everything that has happened since power-on; the
    blank frame if none has been completed. -/
def completedFrame (history : List Beat) : Frame :=
  (followFrame {} .blank (fun _ => none) history).1

/-- The lines drawn since the last completion, each with the pixels drawn last. -/
def drawnSince (history : List Beat) : DrawnLines :=
  (followFrame {} .blank (fun _ => none) history).2

/-- The frame is another one with lines drawn over it. -/
def Overlay (shown completed : Frame) (lines : DrawnLines) : Prop :=
  ∀ (y : Nat) (hy : y < screenHeight), shown.rows[y] = (lines y).getD completed.rows[y]

/-! ### One beat -/

variable {u : Picture}

/-- A beat draws the line that it is said to draw, and nothing else. -/
theorem frame_play_eq (hu : u.raster.Coherent) (beat : Beat) :
    (u.play beat).1.frame = match u.drawn? beat with
      | some (y, row) => u.frame.setRow y row
      | none => u.frame := by
  by_cases hdot : beat = .dot
  · subst hdot
    unfold drawn?
    by_cases hon : u.lcdOn = true
    · by_cases hend : AtLineEnd u
      · rw [if_pos ⟨hon, hend⟩]
        exact (draws_of_atLineEnd hon hu hend).2 u.frame
      · rw [if_neg fun h => hend h.2]
        exact leavesFrame_dot hon hu hend u.frame
    · rw [if_neg fun h => hon h.1, play, advance_of_off ((Bool.not_eq_true _).mp hon)]
      rfl
  · have hnone : u.drawn? beat = none := by
      cases beat <;> first | rfl | contradiction
    rw [hnone]
    exact frame_play hdot u

/-- A beat keeps the account right. -/
theorem Overlay.play {completed : Frame} {lines : DrawnLines} (hu : u.raster.Coherent)
    (h : Overlay u.frame completed lines) (beat : Beat) :
    Overlay (u.play beat).1.frame (u.keepFrame beat completed) (u.drawLine beat lines) := by
  unfold keepFrame drawLine
  cases u.completes beat with
  | true => exact fun y hy => rfl
  | false =>
      have hframe := frame_play_eq hu beat
      simp only [Bool.false_eq_true, if_false]
      cases hdrawn : u.drawn? beat with
      | none =>
          rw [hdrawn] at hframe
          rw [hframe]
          exact h
      | some drawn =>
          obtain ⟨z, row⟩ := drawn
          rw [hdrawn] at hframe
          dsimp only at hframe ⊢
          intro y hy
          rw [hframe]
          by_cases hyz : z = y
          · subst hyz
            rw [getElem_setRow_self u.frame hy, Function.update_self, Option.getD_some]
          · rw [getElem_setRow_ne u.frame hy row hyz, Function.update_of_ne (Ne.symm hyz)]
            exact h y hy

/-- So do beats one after the other. -/
theorem Overlay.playAll {completed : Frame} {lines : DrawnLines} (hu : u.raster.Coherent)
    (h : Overlay u.frame completed lines) (beats : List Beat) :
    Overlay (u.playAll beats).frame (u.followFrame completed lines beats).1
      (u.followFrame completed lines beats).2 := by
  induction beats generalizing u completed lines with
  | nil => exact h
  | cons beat rest ih => exact ih (coherent_play hu beat) (h.play hu beat)

/-- The frame after everything that has happened since power-on. -/
theorem overlay_replay (history : List Beat) :
    Overlay (replay history).frame (completedFrame history) (drawnSince history) := by
  have hblank : Overlay (({} : Picture).frame) .blank fun _ => none := fun y hy => rfl
  exact hblank.playAll coherent_powerOn history

/-! ### When the two frames are the same -/

/-- The frame is the completed one exactly if every line that has been drawn over it has the pixels
    that it had before. -/
theorem Overlay.eq_iff {shown completed : Frame} {lines : DrawnLines}
    (h : Overlay shown completed lines) :
    shown = completed ↔ ∀ (y : Nat) (hy : y < screenHeight) (row : Row), lines y = some row →
      row = completed.rows[y] := by
  constructor
  · rintro rfl y hy row hrow
    have hline := h y hy
    rw [hrow, Option.getD_some] at hline
    exact hline.symm
  · intro hlines
    apply Frame.ext_rows
    intro y hy
    rw [h y hy]
    cases hrow : lines y with
    | none => rfl
    | some row => exact hlines y hy row hrow

/-! ### The mark of a completed frame -/

/-- Only dots set the mark. -/
theorem frameReady_play_of_ne_dot {beat : Beat} (hdot : beat ≠ .dot) (u : Picture) :
    (u.play beat).1.frameReady = (u.frameReady && beat != .forget) := by
  have hready : u.frameReady = (u.frameReady && true) := (Bool.and_true _).symm
  cases beat with
  | dot => contradiction
  | write register value =>
      refine Eq.trans ?_ hready
      by_cases hlcdc : register = .lcdc
      · subst hlcdc
        have hraster := congrArg Raster.frameReady (u.raster_writeLcdc value)
        refine hraster.trans ?_
        split <;> rfl
      · exact congrArg Raster.frameReady (raster_write hlcdc u value)
  | writeVram i value => exact (congrArg Raster.frameReady (raster_writeVram u i value)).trans hready
  | writeOam i value => exact (congrArg Raster.frameReady (raster_writeOam u i value)).trans hready
  | transferOam i value =>
      exact (congrArg Raster.frameReady (raster_transferOam u i value)).trans hready
  | forget =>
      have hnone : (u.frameReady && Beat.forget != .forget) = false := by simp
      exact hnone.symm

theorem completes_of_ne_dot {beat : Beat} (hdot : beat ≠ .dot) : u.completes beat = false :=
  frameReady_play_of_ne_dot hdot u.clearFrameReady

/-- The mark is set by a dot that completes a frame, and kept by every other. -/
theorem frameReady_dot (hu : u.raster.Coherent) :
    (u.play .dot).1.frameReady = (u.frameReady || u.completes .dot) := by
  have hclear : u.clearFrameReady.raster.Coherent :=
    ⟨hu.placed, hu.base_le, hu.le_max, hu.offCycles_lt⟩
  unfold completes
  by_cases hon : u.lcdOn = true
  · have hset := frameReady_tick hon hu
    have hset' := frameReady_tick (u := u.clearFrameReady) hon hclear
    have hposition : u.clearFrameReady.tick.1.position = u.tick.1.position := by
      rw [position_tick hon hu, position_tick (u := u.clearFrameReady) hon hclear]
      rfl
    rw [play, play, advance_one hon, advance_one (u := u.clearFrameReady) hon, Bool.eq_iff_iff, hset,
      Bool.or_eq_true, hset', hposition]
    refine or_congr_right ⟨.inr, ?_⟩
    rintro (hmark | hat)
    · cases hmark
    · exact hat
  · have hoff : u.lcdOn = false := (Bool.not_eq_true _).mp hon
    rw [play, play, advance_of_off hoff, advance_of_off (u := u.clearFrameReady) hoff]
    exact congrArg (u.frameReady || ·) (Bool.false_or _).symm

/-- The mark stays once a frame has been completed, until it is taken. -/
theorem frameReady_play {beat : Beat} (hforget : beat ≠ .forget) (hu : u.raster.Coherent) :
    (u.play beat).1.frameReady = (u.frameReady || u.completes beat) := by
  by_cases hdot : beat = .dot
  · subst hdot
    exact frameReady_dot hu
  · rw [frameReady_play_of_ne_dot hdot, completes_of_ne_dot hdot, Bool.or_false,
      (bne_iff_ne).mpr hforget, Bool.and_true]

theorem frameReady_playAll {beats : List Beat} (hforget : .forget ∉ beats) (hu : u.raster.Coherent)
    (hready : u.frameReady = true) : (u.playAll beats).frameReady = true := by
  induction beats generalizing u with
  | nil => exact hready
  | cons beat rest ih =>
      obtain ⟨hfirst, hrest⟩ := not_or.mp fun h => hforget (List.mem_cons.mpr h)
      apply ih hrest (coherent_play hu beat)
      rw [frameReady_play (Ne.symm hfirst) hu, hready, Bool.true_or]

/-- While the mark is not set and has not been taken, no frame has been completed. -/
theorem followFrame_of_unmarked {beats : List Beat} (hforget : .forget ∉ beats)
    (hu : u.raster.Coherent) (hunmarked : (u.playAll beats).frameReady = false) (completed : Frame)
    (lines : DrawnLines) : (u.followFrame completed lines beats).1 = completed := by
  induction beats generalizing u lines with
  | nil => rfl
  | cons beat rest ih =>
      obtain ⟨hfirst, hrest⟩ := not_or.mp fun h => hforget (List.mem_cons.mpr h)
      have hnone : u.completes beat = false := by
        by_contra hcompletes
        have hmark : (u.play beat).1.frameReady = true := by
          rw [frameReady_play (Ne.symm hfirst) hu, (Bool.not_eq_false _).mp hcompletes, Bool.or_true]
        have hkept := frameReady_playAll hrest (coherent_play hu beat) hmark
        exact Bool.false_ne_true (hunmarked.symm.trans hkept)
      have hkeep : u.keepFrame beat completed = completed := by
        rw [keepFrame, hnone, if_neg Bool.false_ne_true]
      rw [followFrame, hkeep]
      exact ih hrest (coherent_play hu beat) hunmarked _

end Handheld.Picture
