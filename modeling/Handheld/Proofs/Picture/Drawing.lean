/-
Module: Handheld.Proofs.Picture.Drawing
Purpose: Which beats draw a line. Drawing is told from the frame alone: a beat draws a line if that
  line holds the same new pixels whatever the frame held before. Every beat draws one line or none,
  and within a pass over the frame the lines are drawn one after the other.
Main exports: Draws, LeavesFrame, draws_iff, Lines, linesDone, lines_of_pass
-/
import Handheld.Proofs.Picture.Beat

namespace Handheld.Picture

/-- The next dot draws line `y`: whatever the frame holds, the pixels of the line at this moment
    take the place of that line in it. -/
def Draws (u : Picture) (y : Nat) : Prop :=
  y < screenHeight ∧ ∀ frame : Frame,
    (({ u with frame } : Picture).play .dot).1.frame = frame.setRow y u.lineShades

/-- The beat draws nothing: whatever the frame holds, it stays. -/
def LeavesFrame (u : Picture) (beat : Beat) : Prop :=
  ∀ frame : Frame, (({ u with frame } : Picture).play beat).1.frame = frame

/-- The raster is at the last dot of the pixels of a line. -/
def AtLineEnd (u : Picture) : Prop :=
  u.mode = .transfer ∧ u.dot + 1 = scanDots + u.transferDots

/-! ### One beat -/

theorem frame_play {beat : Beat} (hdot : beat ≠ .dot) (u : Picture) :
    (u.play beat).1.frame = u.frame := by
  cases beat with
  | dot => contradiction
  | write register value =>
      cases register with
      | lcdc =>
          simp only [play, write, writeLcdc]
          split
          · rfl
          · unfold setLcd
            dsimp only
            split <;> rfl
      | _ => rfl
  | writeVram i value =>
      simp only [play, writeVram]
      split <;> rfl
  | writeOam i value =>
      simp only [play, writeOam]
      split <;> rfl
  | transferOam i value => rfl
  | forget => rfl

theorem leavesFrame_of_ne_dot {beat : Beat} (hdot : beat ≠ .dot) (u : Picture) :
    LeavesFrame u beat :=
  fun frame => frame_play hdot { u with frame }

theorem Moves.frame_eq {u u' : Picture} {signals : List Signal} (h : Moves u u' signals)
    (hend : ¬ AtLineEnd u) : u'.frame = u.frame := by
  cases h with
  | drawn hmode hdot => exact absurd ⟨hmode, hdot⟩ hend
  | _ => rfl

variable {u : Picture}

/-- A dot anywhere else draws nothing. -/
theorem leavesFrame_dot (hon : u.lcdOn = true) (hu : u.raster.Coherent) (hend : ¬ AtLineEnd u) :
    LeavesFrame u .dot := by
  intro frame
  have hmoves := moves_nextDot (u := { u with frame }) hon hu
  rw [play, advance_one (u := { u with frame }) hon]
  exact hmoves.frame_eq hend

/-- The last dot of the pixels draws the current line. -/
theorem draws_of_atLineEnd (hon : u.lcdOn = true) (hu : u.raster.Coherent) (hend : AtLineEnd u) :
    Draws u u.ly.toNat := by
  obtain ⟨hmode, hdot⟩ := hend
  have hplaced := hu.placed hon
  simp only [Raster.Placed, raster, hmode] at hplaced
  refine ⟨hplaced.1, ?_⟩
  intro frame
  rw [play, advance_one (u := { u with frame }) hon]
  have hnext : ({ u with frame } : Picture).nextDot =
      ({ { u with frame, dot := u.dot + 1 }.renderLine with mode := .hblank }, []) := by
    unfold nextDot
    simp only [hmode, if_pos hdot]
  have hframe : ({ u with frame } : Picture).tick.1.frame =
      ({ u with frame } : Picture).nextDot.1.frame := rfl
  rw [hframe, hnext]
  rfl

/-- For every line of pixels there is a frame that has it nowhere. -/
theorem exists_frame_without (row : Row) :
    ∃ frame : Frame, ∀ (y : Nat) (h : y < screenHeight), frame.rows[y] ≠ row := by
  by_cases hrow : row = Vector.replicate screenWidth 0
  · refine ⟨⟨Vector.replicate screenHeight (Vector.replicate screenWidth 1)⟩, ?_⟩
    intro y h heq
    rw [Vector.getElem_replicate, hrow] at heq
    rcases Vector.replicate_inj.mp heq with hwidth | hshade
    · exact absurd hwidth (by decide)
    · exact absurd hshade (by decide)
  · refine ⟨.blank, ?_⟩
    intro y h heq
    simp only [Frame.blank, Vector.getElem_replicate] at heq
    exact hrow heq.symm

theorem getElem_setRow_self (frame : Frame) {y : Nat} (h : y < screenHeight) (row : Row) :
    (frame.setRow y row).rows[y] = row := by
  simp [Frame.setRow]

theorem getElem_setRow_ne (frame : Frame) {y z : Nat} (h : y < screenHeight) (row : Row)
    (hne : z ≠ y) : (frame.setRow z row).rows[y] = frame.rows[y] := by
  simp [Frame.setRow, hne]

/-- A beat that draws a line does not leave the frame alone. -/
theorem Draws.not_leavesFrame {y : Nat} (h : Draws u y) : ¬ LeavesFrame u .dot := by
  intro hleaves
  obtain ⟨hy, hdraws⟩ := h
  obtain ⟨frame, hframe⟩ := exists_frame_without u.lineShades
  have hsame : frame = frame.setRow y u.lineShades := (hleaves frame).symm.trans (hdraws frame)
  apply hframe y hy
  rw [hsame]
  exact getElem_setRow_self frame hy _

/-- No beat draws two lines. -/
theorem Draws.unique {y z : Nat} (h : Draws u y) (h' : Draws u z) : y = z := by
  obtain ⟨hy, hdraws⟩ := h
  obtain ⟨-, hdraws'⟩ := h'
  obtain ⟨frame, hframe⟩ := exists_frame_without u.lineShades
  by_cases hne : y = z
  · exact hne
  exfalso
  have hsame : frame.setRow y u.lineShades = frame.setRow z u.lineShades :=
    (hdraws frame).symm.trans (hdraws' frame)
  have hrow := getElem_setRow_self frame hy u.lineShades
  apply hframe y hy
  rw [← getElem_setRow_ne frame hy u.lineShades (Ne.symm hne), ← hsame]
  exact hrow

/-- When the next dot draws which line. -/
theorem draws_iff (hon : u.lcdOn = true) (hu : u.raster.Coherent) (y : Nat) :
    Draws u y ↔ AtLineEnd u ∧ u.ly.toNat = y := by
  constructor
  · intro h
    by_cases hend : AtLineEnd u
    · exact ⟨hend, (draws_of_atLineEnd hon hu hend).unique h⟩
    · exact absurd (leavesFrame_dot hon hu hend) h.not_leavesFrame
  · rintro ⟨hend, rfl⟩
    exact draws_of_atLineEnd hon hu hend

/-! ### The lines of a pass -/

/-- `Lines u beats ys`: from `u` on, the beats draw the lines `ys`, in that order, and no other. -/
inductive Lines : Picture → List Beat → List Nat → Prop where
  | nil {u : Picture} : Lines u [] []
  | draw {u : Picture} {y : Nat} {rest : List Beat} {ys : List Nat} (h : Draws u y)
      (hrest : Lines (u.play .dot).1 rest ys) : Lines u (.dot :: rest) (y :: ys)
  | skip {u : Picture} {beat : Beat} {rest : List Beat} {ys : List Nat} (h : LeavesFrame u beat)
      (hrest : Lines (u.play beat).1 rest ys) : Lines u (beat :: rest) ys

/-- The lines of the frame that have been drawn already. -/
def linesDone (u : Picture) : Nat :=
  match u.mode with
  | .oamScan | .transfer => u.ly.toNat
  | .hblank => u.ly.toNat + 1
  | .vblank => screenHeight

theorem linesDone_of_atLineEnd (h : AtLineEnd u) : u.linesDone = u.ly.toNat := by
  unfold linesDone
  rw [h.1]

theorem linesDone_play {beat : Beat} (hon : u.lcdOn = true) (hkeep : beat.keepsOn = true)
    (hdot : beat ≠ .dot) : (u.play beat).1.linesDone = u.linesDone := by
  have hraster := raster_play hon hkeep hdot
  have hmode : (u.play beat).1.mode = u.mode := congrArg Raster.mode hraster
  have hly : (u.play beat).1.ly = u.ly := congrArg Raster.ly hraster
  unfold linesDone
  rw [hmode, hly]

/-- A dot that does not end the frame counts the line that it draws, if it draws one. -/
theorem linesDone_tick (hon : u.lcdOn = true) (hu : u.raster.Coherent)
    (htop : u.position + 1 < cyclesPerFrame) :
    (AtLineEnd u ∧ u.tick.1.linesDone = u.linesDone + 1) ∨
      (¬ AtLineEnd u ∧ u.tick.1.linesDone = u.linesDone) := by
  have hplaced := hu.placed hon
  have hline : u.ly.toNat < linesPerFrame := hplaced.line_lt
  have hnext := toNat_add_one hline
  simp only [Raster.Placed, raster] at hplaced
  have hstat : u.tick.1.linesDone = u.nextDot.1.linesDone := rfl
  rw [hstat]
  have hmoves := moves_nextDot hon hu
  generalize u.nextDot.1 = u', u.nextDot.2 = signals at hmoves
  unfold AtLineEnd linesDone
  cases hmoves with
  | along hscan htransfer hdots =>
      right
      refine ⟨?_, rfl⟩
      rintro ⟨hmode, hdot⟩
      have hlt := htransfer hmode
      omega
  | scanned hmode hdot => simp [hmode, beginTransfer]
  | drawn hmode hdot => simp [hmode, hdot, renderLine]
  | nextLine hmode hdot hly => simp [hmode, hnext]
  | vblank hmode hdot hly => simp [hmode, hly, enterVBlank]
  | lower hmode hdot hly => simp [hmode]
  | top hmode hdot hly =>
      exfalso
      simp only [position, cyclesPerFrame, linesPerFrame, dotsPerLine] at *
      omega

/-- At the last dot of the frame every line has been drawn, and that dot draws none. -/
theorem linesDone_of_last (hon : u.lcdOn = true) (hu : u.raster.Coherent)
    (hlast : u.position + 1 = cyclesPerFrame) : u.linesDone = screenHeight ∧ ¬ AtLineEnd u := by
  have hplaced := hu.placed hon
  have hmax : u.transferDots ≤ maxTransferDots := hu.le_max
  unfold position at hlast
  unfold AtLineEnd linesDone
  simp only [Raster.Placed, raster] at hplaced
  cases hmode : u.mode with
  | vblank =>
      refine ⟨rfl, ?_⟩
      intro hend
      cases hend.1
  | _ =>
      exfalso
      simp only [hmode, cyclesPerFrame, linesPerFrame, dotsPerLine, screenHeight, scanDots,
        maxTransferDots] at *
      omega

/-- Beats other than dots draw nothing. -/
theorem lines_of_no_dot {beats : List Beat} (h : beats.count .dot = 0) (u : Picture) :
    Lines u beats [] := by
  induction beats generalizing u with
  | nil => exact .nil
  | cons beat rest ih =>
      have hmem : .dot ∉ beat :: rest := List.count_eq_zero.mp h
      have hbeat : beat ≠ .dot := fun heq => hmem (heq ▸ List.mem_cons_self)
      rw [List.count_cons_of_ne hbeat] at h
      exact .skip (leavesFrame_of_ne_dot hbeat u) (ih h _)

/-- From any point of a pass over the frame up to its end at most, the lines are drawn one after the
    other from the first that has not been drawn on. Up to the very end, all of them are. -/
theorem lines_of_pass {beats : List Beat} (hon : u.lcdOn = true) (hu : u.raster.Coherent)
    (hkeep : ∀ beat ∈ beats, beat.keepsOn = true)
    (hpass : u.position + beats.count .dot ≤ cyclesPerFrame) :
    ∃ k, Lines u beats (List.range' u.linesDone k) ∧
      (u.position + beats.count .dot = cyclesPerFrame → u.linesDone + k = screenHeight) := by
  induction beats generalizing u with
  | nil =>
      refine ⟨0, .nil, ?_⟩
      intro hend
      have hlt := position_lt hon hu
      simp only [List.count_nil, Nat.add_zero] at hend
      omega
  | cons beat rest ih =>
      have hfirst := hkeep beat List.mem_cons_self
      have hrest : ∀ beat ∈ rest, beat.keepsOn = true :=
        fun other hmem => hkeep other (List.mem_cons_of_mem _ hmem)
      have hon' := lcdOn_play hon hfirst
      have hu' := coherent_play hu beat
      by_cases hdot : beat = .dot
      · subst hdot
        rw [List.count_cons_self] at hpass ⊢
        have hplay : u.play .dot = u.tick := advance_one hon
        by_cases hlast : u.position + 1 = cyclesPerFrame
        · obtain ⟨hdone, hend⟩ := linesDone_of_last hon hu hlast
          refine ⟨0, ?_, fun _ => hdone⟩
          have hnone : rest.count .dot = 0 := by omega
          exact .skip (leavesFrame_dot hon hu hend) (lines_of_no_dot hnone _)
        · have htop : u.position + 1 < cyclesPerFrame := by omega
          have hposition : (u.play .dot).1.position = u.position + 1 := by
            rw [hplay, position_tick hon hu, Nat.mod_eq_of_lt htop]
          obtain ⟨k, hlines, hall⟩ := ih hon' hu' hrest (by omega)
          rw [hposition] at hall
          rcases linesDone_tick hon hu htop with ⟨hend, hdone⟩ | ⟨hend, hdone⟩
          · rw [← hplay] at hdone
            rw [hdone] at hlines hall
            refine ⟨k + 1, ?_, by omega⟩
            rw [List.range'_succ]
            have hdraws := draws_of_atLineEnd hon hu hend
            rw [← linesDone_of_atLineEnd hend] at hdraws
            exact .draw hdraws hlines
          · rw [← hplay] at hdone
            rw [hdone] at hlines hall
            exact ⟨k, .skip (leavesFrame_dot hon hu hend) hlines, by omega⟩
      · have hposition := position_play hon hfirst hdot
        have hdone := linesDone_play hon hfirst hdot
        rw [List.count_cons_of_ne hdot] at hpass ⊢
        obtain ⟨k, hlines, hall⟩ := ih hon' hu' hrest (by omega)
        rw [hdone] at hlines hall
        rw [hposition] at hall
        exact ⟨k, .skip (leavesFrame_of_ne_dot hdot u) hlines, hall⟩

end Handheld.Picture
