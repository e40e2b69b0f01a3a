/-
Module: Handheld.Proofs.Picture.WindowLine
Purpose: The counter of window lines told from the history. The renderer takes the rows of the window
  from a counter of its own and not from the line, so that a window that is switched off for some
  lines goes on where it stopped. Within a frame the counter is the number of lines drawn with the
  window so far, and these show rows 0, 1, 2 and so on.
Main exports: WindowShows, startsFrame, WindowStroke, windowStrokes, Tracked, WindowCounted,
  window_counted
-/
import Handheld.Proofs.Picture.Completion
import Handheld.Proofs.Picture.Pixel
import Handheld.Proofs.Picture.Schedule

namespace Handheld.Picture

variable {u u' : Picture}

/-! ### Lines with the window -/

/-- The window shows on the current line: it and the background are on, the line is not above it, and
    it does not begin to the right of the screen. -/
def WindowShows (u : Picture) : Prop :=
  u.lcdcBit 0 = true ∧ u.lcdcBit 5 = true ∧ u.wy.toNat ≤ u.ly.toNat ∧ u.wx.toNat ≤ 166

instance (u : Picture) : Decidable u.WindowShows :=
  inferInstanceAs (Decidable (_ ∧ _))

/-- A line drawn with the window, and the row of the window in it. -/
structure WindowStroke where
  line : Nat
  row : Nat
deriving DecidableEq, Repr

/-- The line with the window that a beat draws, if it draws one. -/
def windowStroke? (u : Picture) (beat : Beat) : Option WindowStroke :=
  match u.drawn? beat with
  | some (y, _) => if u.WindowShows then some ⟨y, u.windowLine.toNat⟩ else none
  | none => none

/-- A beat starts a frame: it switches the display on, or takes the raster from the last line to the
    top. -/
def startsFrame (u : Picture) (beat : Beat) : Bool :=
  (u.play beat).1.lcdOn && (!u.lcdOn || u.ly == 153 && (u.play beat).1.ly == 0)

/-- The lines drawn with the window in the frame so far, after a beat. -/
def followWindow (u : Picture) (beat : Beat) (strokes : List WindowStroke) : List WindowStroke :=
  if u.startsFrame beat then [] else strokes ++ (u.windowStroke? beat).toList

/-- The same after beats from a unit on for which they are given. -/
def windowStrokesFrom (u : Picture) (strokes : List WindowStroke) : List Beat → List WindowStroke
  | [] => strokes
  | beat :: rest => windowStrokesFrom (u.play beat).1 (u.followWindow beat strokes) rest

/-- The lines drawn with the window since the current frame has started, in order, after everything
    that has happened since power-on. -/
def windowStrokes (history : List Beat) : List WindowStroke :=
  windowStrokesFrom {} [] history

theorem windowVisible_iff_shows (u : Picture) : u.windowVisible = true ↔ u.WindowShows := by
  have hground : u.backgroundOn = u.lcdcBit 0 := u.control_eq rfl
  unfold WindowShows
  cases hon : u.lcdcBit 0 with
  | true => rw [u.windowVisible_iff hon, and_iff_right rfl]
  | false =>
      unfold windowVisible
      rw [hground, hon]
      simp

/-- A window that shows takes all columns from its left edge on, each from the row of the counter. -/
theorem backgroundColor_of_shows (h : u.WindowShows) {x : Fin screenWidth}
    (hx : u.wx.toNat ≤ x.val + 7) :
    (u.backgroundColor x).val = u.mapPixel 6 (x.val + 7 - u.wx.toNat) u.windowLine.toNat := by
  obtain ⟨hground, hwindow, hline, hedge⟩ := h
  have hshown : ¬ u.lcdcBit 0 = false := fun hoff => Bool.false_ne_true (hoff.symm.trans hground)
  rw [backgroundColor_eq, groundPixel, if_neg hshown, if_pos ⟨hwindow, hline, hedge, hx⟩]

/-- Without the window a line shows the background in all columns, or nothing. -/
theorem backgroundColor_of_not_shows (h : ¬ u.WindowShows) (x : Fin screenWidth) :
    (u.backgroundColor x).val =
      if u.lcdcBit 0 then
        u.mapPixel 3 ((x.val + u.scx.toNat) % 256) ((u.ly.toNat + u.scy.toNat) % 256)
      else 0 := by
  rw [backgroundColor_eq, groundPixel]
  cases hon : u.lcdcBit 0 with
  | false => rfl
  | true =>
      have hnone : ¬ (u.lcdcBit 5 = true ∧ u.wy.toNat ≤ u.ly.toNat ∧ u.wx.toNat ≤ 166 ∧
          u.wx.toNat ≤ x.val + 7) := by
        rintro ⟨hwindow, hline, hedge, -⟩
        exact h ⟨hon, hwindow, hline, hedge⟩
      rw [if_neg (Ne.symm Bool.false_ne_true), if_neg hnone, if_pos rfl]

/-! ### The strokes of a beat -/

theorem windowStroke?_of_ne_dot {beat : Beat} (hdot : beat ≠ .dot) : u.windowStroke? beat = none := by
  cases beat <;> first | rfl | contradiction

theorem windowStroke?_eq_none (hend : ¬ AtLineEnd u) : u.windowStroke? .dot = none := by
  have hnone : u.drawn? .dot = none := if_neg fun h => hend h.2
  unfold windowStroke?
  rw [hnone]

theorem windowStroke?_of_atLineEnd (hon : u.lcdOn = true) (hend : AtLineEnd u) :
    u.windowStroke? .dot =
      if u.WindowShows then some ⟨u.ly.toNat, u.windowLine.toNat⟩ else none := by
  have hdrawn : u.drawn? .dot = some (u.ly.toNat, u.lineShades) := if_pos ⟨hon, hend⟩
  unfold windowStroke?
  rw [hdrawn]

/-- The strokes are the lines that are drawn while the window shows. -/
theorem windowStroke?_eq_some_iff (hon : u.lcdOn = true) (hu : u.raster.Coherent)
    (stroke : WindowStroke) :
    u.windowStroke? .dot = some stroke ↔
      Draws u stroke.line ∧ u.WindowShows ∧ stroke.row = u.windowLine.toNat := by
  rw [draws_iff hon hu]
  by_cases hend : AtLineEnd u
  · rw [windowStroke?_of_atLineEnd hon hend]
    by_cases hshows : u.WindowShows
    · rw [if_pos hshows, Option.some.injEq]
      constructor
      · rintro rfl
        exact ⟨⟨hend, rfl⟩, hshows, rfl⟩
      · rintro ⟨⟨-, hline⟩, -, hrow⟩
        rw [hline, ← hrow]
    · rw [if_neg hshows]
      exact iff_of_false nofun fun h => hshows h.2.1
  · rw [windowStroke?_eq_none hend]
    exact iff_of_false nofun fun h => hend h.1.1

theorem windowStroke?_of_off (hoff : u.lcdOn = false) (beat : Beat) :
    u.windowStroke? beat = none := by
  by_cases hdot : beat = .dot
  · have hdark : ¬ u.lcdOn = true := fun hon => Bool.false_ne_true (hoff.symm.trans hon)
    have hnone : u.drawn? .dot = none := if_neg fun h => hdark h.1
    rw [hdot, windowStroke?, hnone]
  · exact windowStroke?_of_ne_dot hdot

/-! ### What a beat does to the counter -/

theorem lcdOn_writeLcdc (u : Picture) (value : UInt8) :
    (u.writeLcdc value).1.lcdOn = (value &&& 0x80 != 0) := by
  have hlit := congrArg Raster.lit (u.raster_writeLcdc value)
  refine hlit.trans ?_
  split
  · next hsame => exact hsame
  · rfl

theorem windowLine_writeLcdc (u : Picture) (value : UInt8) :
    (u.writeLcdc value).1.windowLine =
      if !u.lcdOn && (u.writeLcdc value).1.lcdOn then 0 else u.windowLine := by
  have hvalue : ({ u with lcdc := value } : Picture).lcdOn = (value &&& 0x80 != 0) := rfl
  rw [lcdOn_writeLcdc]
  unfold writeLcdc setLcd
  dsimp only
  rw [hvalue]
  cases u.lcdOn <;> cases (value &&& 0x80 != 0) <;> rfl

/-- Between two dots the counter is cleared if the display is switched on, and else left alone. -/
theorem windowLine_play_of_ne_dot {beat : Beat} (hdot : beat ≠ .dot) (u : Picture) :
    (u.play beat).1.windowLine =
      if !u.lcdOn && (u.play beat).1.lcdOn then 0 else u.windowLine := by
  have hsteady {v : Picture} (hline : v.windowLine = u.windowLine) (hlit : v.lcdOn = u.lcdOn) :
      v.windowLine = if !u.lcdOn && v.lcdOn then 0 else u.windowLine := by
    rw [hline, hlit, Bool.not_and_self]
    rfl
  cases beat with
  | dot => contradiction
  | write register value =>
      cases register with
      | lcdc => exact u.windowLine_writeLcdc value
      | _ => exact hsteady rfl rfl
  | writeVram i value =>
      refine hsteady ?_ (congrArg Raster.lit (raster_writeVram u i value))
      simp only [play, writeVram]
      split <;> rfl
  | writeOam i value =>
      refine hsteady ?_ (congrArg Raster.lit (raster_writeOam u i value))
      simp only [play, writeOam]
      split <;> rfl
  | transferOam i value => exact hsteady rfl rfl
  | forget => exact hsteady rfl rfl

/-- A dot clears the counter at the top of the frame, and moves it on where it draws a line with the
    window. -/
theorem Moves.windowLine_eq {signals : List Signal} (h : Moves u u' signals) :
    u'.windowLine =
      if u.ly = 153 ∧ u'.ly = 0 then 0
      else if AtLineEnd u ∧ u.WindowShows then u.windowLine + 1 else u.windowLine := by
  have hlast (hly : u.ly.toNat < 153) : ¬ (u.ly = 153 ∧ u'.ly = 0) := by
    rintro ⟨heq, -⟩
    rw [heq] at hly
    exact absurd hly (by decide)
  have hsame : ¬ (u.ly = 153 ∧ u.ly = 0) := by
    rintro ⟨heq, hzero⟩
    rw [heq] at hzero
    exact absurd hzero (by decide)
  cases h with
  | along hscan htransfer hline =>
      have hend : ¬ (AtLineEnd u ∧ u.WindowShows) := by
        rintro ⟨⟨hmode, hdot⟩, -⟩
        have hlt := htransfer hmode
        omega
      rw [if_neg hsame, if_neg hend]
  | scanned hmode hdot =>
      have hend : ¬ (AtLineEnd u ∧ u.WindowShows) := by
        rintro ⟨⟨htransfer, -⟩, -⟩
        rw [hmode] at htransfer
        cases htransfer
      have hsame' : ¬ (u.ly = 153 ∧ ({ u with dot := u.dot + 1 } : Picture).beginTransfer.ly = 0) :=
        hsame
      rw [if_neg hsame', if_neg hend]
      rfl
  | drawn hmode hdot =>
      have hsame' : ¬ (u.ly = 153 ∧ ({ u with dot := u.dot + 1 } : Picture).renderLine.ly = 0) :=
        hsame
      have hend : AtLineEnd u ∧ u.WindowShows ↔ u.windowVisible = true := by
        rw [windowVisible_iff_shows]
        exact and_iff_right ⟨hmode, hdot⟩
      rw [if_neg hsame']
      simp only [hend]
      rfl
  | nextLine hmode hdot hly | vblank hmode hdot hly | lower hmode hdot hly =>
      have hend : ¬ (AtLineEnd u ∧ u.WindowShows) := by
        rintro ⟨⟨htransfer, -⟩, -⟩
        rw [hmode] at htransfer
        cases htransfer
      simp only [screenHeight, linesPerFrame] at hly
      exact ((if_neg (hlast (by omega))).trans (if_neg hend)).symm
  | top hmode hdot hly =>
      have hlast' : u.ly = 153 := by
        simp only [linesPerFrame] at hly
        apply UInt8.toNat_inj.mp
        have hvalue : (153 : UInt8).toNat = 153 := rfl
        omega
      rw [if_pos ⟨hlast', rfl⟩]

/-! ### The account of a frame -/

/-- The counter and the strokes of the frame so far fit together. -/
structure Tracked (u : Picture) (strokes : List WindowStroke) : Prop where
  counter_eq : u.windowLine.toNat = strokes.length
  rows_eq : strokes.map WindowStroke.row = List.range strokes.length
  increasing : (strokes.map WindowStroke.line).Pairwise (· < ·)
  length_le : u.lcdOn = true → strokes.length ≤ u.linesDone
  line_lt : u.lcdOn = true → ∀ stroke ∈ strokes, stroke.line < u.linesDone

theorem tracked_nil (h : u.windowLine = 0) : Tracked u [] where
  counter_eq := by
    rw [h]
    rfl
  rows_eq := rfl
  increasing := List.Pairwise.nil
  length_le _ := Nat.zero_le _
  line_lt _ stroke hmem := by cases hmem

/-- While nothing is drawn with the window, the lines done can only become more. -/
theorem Tracked.still {strokes : List WindowStroke} (h : Tracked u strokes)
    (hcounter : u'.windowLine = u.windowLine) (hlit : u'.lcdOn = true → u.lcdOn = true)
    (hdone : u'.lcdOn = true → u.linesDone ≤ u'.linesDone) : Tracked u' strokes where
  counter_eq := hcounter ▸ h.counter_eq
  rows_eq := h.rows_eq
  increasing := h.increasing
  length_le hon := Nat.le_trans (h.length_le (hlit hon)) (hdone hon)
  line_lt hon stroke hmem := Nat.lt_of_lt_of_le (h.line_lt (hlit hon) stroke hmem) (hdone hon)

/-- A line drawn with the window is a further stroke, in the row that the counter says. -/
theorem Tracked.stroke {strokes : List WindowStroke} (h : Tracked u strokes) (hon : u.lcdOn = true)
    (hline : u.linesDone < screenHeight) (hcounter : u'.windowLine = u.windowLine + 1)
    (hdone : u'.linesDone = u.linesDone + 1) :
    Tracked u' (strokes ++ [⟨u.linesDone, u.windowLine.toNat⟩]) := by
  have hlength := h.length_le hon
  have hlines := h.line_lt hon
  have hnext : (u.windowLine + 1).toNat = u.windowLine.toNat + 1 := by
    apply toNat_add_one
    rw [h.counter_eq]
    simp only [screenHeight, linesPerFrame] at *
    omega
  constructor
  · rw [hcounter, hnext, h.counter_eq, List.length_append, List.length_singleton]
  · rw [List.map_append, List.length_append, List.length_singleton, List.range_succ, h.rows_eq,
      h.counter_eq]
    rfl
  · rw [List.map_append, List.pairwise_append]
    refine ⟨h.increasing, List.pairwise_singleton _ _, ?_⟩
    rintro line hmem next hnext'
    obtain ⟨stroke, hstroke, rfl⟩ := List.mem_map.mp hmem
    rw [List.mem_singleton.mp hnext']
    exact hlines stroke hstroke
  · intro _
    rw [hdone, List.length_append, List.length_singleton]
    exact Nat.succ_le_succ hlength
  · intro _ stroke hmem
    rw [hdone]
    rcases List.mem_append.mp hmem with hmem | hmem
    · exact Nat.lt_succ_of_lt (hlines stroke hmem)
    · rw [List.mem_singleton.mp hmem]
      exact Nat.lt_succ_self _

/-! ### Every beat -/

theorem keepsOn_of_lcdOn {beat : Beat} (h : (u.play beat).1.lcdOn = true) : beat.keepsOn = true := by
  cases beat with
  | write register value =>
      cases register with
      | lcdc => exact (u.lcdOn_writeLcdc value).symm.trans h
      | _ => rfl
  | _ => rfl

/-- A dot starts a frame where the raster is at the end of one. -/
theorem startsFrame_dot_iff (hon : u.lcdOn = true) (hu : u.raster.Coherent) :
    u.startsFrame .dot = true ↔ u.position + 1 = cyclesPerFrame := by
  have hlit : u.tick.1.lcdOn = true := (lcdOn_tick u).trans hon
  have hline : u.ly.toNat < linesPerFrame := (hu.placed hon).line_lt
  have hdot := dot_lt hon hu
  have hdot' := dot_lt hlit (coherent_tick hon hu)
  have hmoved := position_tick hon hu
  have hzero : (0 : UInt8).toNat = 0 := rfl
  have hlast : (153 : UInt8).toNat = 153 := rfl
  unfold startsFrame
  rw [play, advance_one hon, hlit, hon, Bool.true_and, Bool.not_true, Bool.false_or, Bool.and_eq_true,
    beq_iff_eq, beq_iff_eq, ← UInt8.toNat_inj, ← UInt8.toNat_inj, hzero, hlast]
  unfold position at *
  simp only [linesPerFrame, dotsPerLine, cyclesPerFrame] at *
  omega

theorem tracked_dot {strokes : List WindowStroke} (hon : u.lcdOn = true) (hu : u.raster.Coherent)
    (h : Tracked u strokes) : Tracked (u.play .dot).1 (u.followWindow .dot strokes) := by
  have hplay : (u.play .dot).1 = u.tick.1 := by rw [play, advance_one hon]
  have hcounter : u.tick.1.windowLine = _ := (moves_nextDot hon hu).windowLine_eq
  have hmoved : u.nextDot.1.ly = u.tick.1.ly := rfl
  rw [hmoved] at hcounter
  have hstart := startsFrame_dot_iff hon hu
  have hwrap : u.startsFrame .dot = true ↔ u.ly = 153 ∧ u.tick.1.ly = 0 := by
    unfold startsFrame
    rw [hplay, lcdOn_tick, hon, Bool.true_and, Bool.not_true, Bool.false_or, Bool.and_eq_true,
      beq_iff_eq, beq_iff_eq]
  unfold followWindow
  rw [hplay]
  by_cases hfresh : u.startsFrame .dot = true
  · rw [if_pos hfresh]
    apply tracked_nil
    rw [hcounter, if_pos (hwrap.mp hfresh)]
  · have hlt := position_lt hon hu
    have hend := mt hstart.mpr hfresh
    rw [if_neg hfresh]
    rw [if_neg (mt hwrap.mpr hfresh)] at hcounter
    rcases linesDone_tick hon hu (by omega) with ⟨hdrawn, hdone⟩ | ⟨hnone, hdone⟩
    · have hplaced := hu.placed hon
      simp only [Raster.Placed, raster, hdrawn.1] at hplaced
      have hline := linesDone_of_atLineEnd hdrawn
      rw [windowStroke?_of_atLineEnd hon hdrawn]
      by_cases hshows : u.WindowShows
      · rw [if_pos ⟨hdrawn, hshows⟩] at hcounter
        rw [if_pos hshows, Option.toList_some, ← hline]
        exact h.stroke hon (hline ▸ hplaced.1) hcounter hdone
      · rw [if_neg fun hboth => hshows hboth.2] at hcounter
        rw [if_neg hshows, Option.toList_none, List.append_nil]
        exact h.still hcounter (fun _ => hon) fun _ => by omega
    · rw [if_neg fun hboth => hnone hboth.1] at hcounter
      rw [windowStroke?_eq_none hnone, Option.toList_none, List.append_nil]
      exact h.still hcounter (fun _ => hon) fun _ => Nat.le_of_eq hdone.symm

/-- Beats between dots, and cycles in the dark, draw nothing. -/
theorem tracked_between {strokes : List WindowStroke} {beat : Beat} (hdot : beat = .dot → u.lcdOn = false)
    (h : Tracked u strokes) : Tracked (u.play beat).1 (u.followWindow beat strokes) := by
  have hnone : u.windowStroke? beat = none := by
    by_cases hlit : u.lcdOn = true
    · exact windowStroke?_of_ne_dot fun heq => Bool.false_ne_true ((hdot heq).symm.trans hlit)
    · exact windowStroke?_of_off ((Bool.not_eq_true _).mp hlit) beat
  have hcounter : (u.play beat).1.windowLine =
      if !u.lcdOn && (u.play beat).1.lcdOn then 0 else u.windowLine := by
    by_cases heq : beat = .dot
    · subst heq
      have hoff := hdot rfl
      have hidle : (u.play .dot).1 = u.idle 1 := by rw [play, advance_of_off hoff]
      have hdark : (u.idle 1).lcdOn = false := hoff
      rw [hidle, hdark, Bool.and_false]
      rfl
    · exact windowLine_play_of_ne_dot heq u
  have hraster (hon : u.lcdOn = true) (hon' : (u.play beat).1.lcdOn = true) :
      (u.play beat).1.ly = u.ly ∧ (u.play beat).1.linesDone = u.linesDone := by
    have hkeep := keepsOn_of_lcdOn hon'
    have hne : beat ≠ .dot := fun heq => Bool.false_ne_true ((hdot heq).symm.trans hon)
    exact ⟨congrArg Raster.ly (raster_play hon hkeep hne), linesDone_play hon hkeep hne⟩
  unfold followWindow
  rw [hnone, Option.toList_none, List.append_nil]
  unfold startsFrame
  cases hon' : (u.play beat).1.lcdOn with
  | false =>
      rw [hon', Bool.and_false] at hcounter
      have hdark : ¬ (u.play beat).1.lcdOn = true := fun hlit => Bool.false_ne_true (hon'.symm.trans hlit)
      exact h.still hcounter (fun hlit => absurd hlit hdark) fun hlit => absurd hlit hdark
  | true =>
      cases hon : u.lcdOn with
      | false =>
          rw [hon, hon'] at hcounter
          exact tracked_nil hcounter
      | true =>
          obtain ⟨hline, hdone⟩ := hraster hon hon'
          have hnotop : (u.ly == 153 && u.ly == 0) = false := by
            rw [Bool.and_eq_false_iff, beq_eq_false_iff_ne, beq_eq_false_iff_ne]
            by_cases hzero : u.ly = 0
            · left
              rw [hzero]
              decide
            · exact .inr hzero
          rw [hon] at hcounter
          rw [hline, hnotop]
          exact h.still hcounter (fun _ => hon) fun _ => Nat.le_of_eq hdone.symm

theorem Tracked.play {strokes : List WindowStroke} (hu : u.raster.Coherent) (h : Tracked u strokes)
    (beat : Beat) : Tracked (u.play beat).1 (u.followWindow beat strokes) := by
  by_cases hlit : beat = .dot ∧ u.lcdOn = true
  · obtain ⟨rfl, hon⟩ := hlit
    exact tracked_dot hon hu h
  · apply tracked_between _ h
    intro hdot
    exact (Bool.not_eq_true _).mp fun hon => hlit ⟨hdot, hon⟩

theorem Tracked.playAll {strokes : List WindowStroke} (hu : u.raster.Coherent) (h : Tracked u strokes)
    (beats : List Beat) : Tracked (u.playAll beats) (u.windowStrokesFrom strokes beats) := by
  induction beats generalizing u strokes with
  | nil => exact h
  | cons beat rest ih => exact ih (coherent_play hu beat) (h.play hu beat)

theorem tracked_replay (history : List Beat) : Tracked (replay history) (windowStrokes history) :=
  (tracked_nil rfl).playAll coherent_powerOn history

theorem windowStrokesFrom_append (first second : List Beat) (u : Picture)
    (strokes : List WindowStroke) :
    u.windowStrokesFrom strokes (first ++ second) =
      (u.playAll first).windowStrokesFrom (u.windowStrokesFrom strokes first) second := by
  induction first generalizing u strokes with
  | nil => rfl
  | cons beat rest ih => exact ih _ _

theorem windowStrokes_concat (history : List Beat) (beat : Beat) :
    windowStrokes (history ++ [beat]) =
      (replay history).followWindow beat (windowStrokes history) :=
  windowStrokesFrom_append history [beat] {} []

theorem linesDone_le (hon : u.lcdOn = true) (hu : u.raster.Coherent) :
    u.linesDone ≤ u.ly.toNat + 1 := by
  have hplaced := hu.placed hon
  simp only [Raster.Placed, raster] at hplaced
  unfold linesDone
  cases hmode : u.mode with
  | oamScan | transfer => exact Nat.le_succ _
  | hblank => exact Nat.le_refl _
  | vblank =>
      rw [hmode] at hplaced
      exact Nat.le_succ_of_le hplaced.1

/-! ### The counter -/

/-- How the counter of window lines stands after a history. -/
structure WindowCounted (history : List Beat) : Prop where
  /-- It is the number of lines drawn with the window in the frame so far. -/
  counter_eq : (replay history).windowLine.toNat = (windowStrokes history).length
  /-- Each line is drawn once, and none below the current one. -/
  increasing : ((windowStrokes history).map WindowStroke.line).Pairwise (· < ·)
  line_le : ∀ stroke ∈ windowStrokes history, stroke.line ≤ (replay history).ly.toNat
  counter_le : (replay history).windowLine.toNat ≤ (replay history).ly.toNat + 1
  /-- The rows drawn are 0, 1, 2 and so on. -/
  rows_eq : (windowStrokes history).map WindowStroke.row =
    List.range (windowStrokes history).length
  /-- A stroke is a line that is drawn while the window shows, in the row that comes next. -/
  stroke_iff : ∀ stroke, (replay history).windowStroke? .dot = some stroke ↔
    Draws (replay history) stroke.line ∧ (replay history).WindowShows ∧
      stroke.row = (windowStrokes history).length
  /-- That row is what is seen in all columns of the window. -/
  shown : (replay history).WindowShows → ∀ x : Fin screenWidth,
    (replay history).wx.toNat ≤ x.val + 7 →
      ((replay history).backgroundColor x).val =
        (replay history).mapPixel 6 (x.val + 7 - (replay history).wx.toNat)
          (windowStrokes history).length
  /-- Without the window the background is seen in all columns, or nothing. -/
  hidden : ¬ (replay history).WindowShows → ∀ x : Fin screenWidth,
    ((replay history).backgroundColor x).val =
      if (replay history).lcdcBit 0 then
        (replay history).mapPixel 3 ((x.val + (replay history).scx.toNat) % 256)
          (((replay history).ly.toNat + (replay history).scy.toNat) % 256)
      else 0
  /-- Within a frame the counter goes up by one with each stroke, and never wraps. -/
  counter_next : ∀ beat, (replay history).startsFrame beat = false →
    (replay (history ++ [beat])).windowLine.toNat =
      (replay history).windowLine.toNat + ((replay history).windowStroke? beat).toList.length
  /-- A frame starts with the counter at 0. -/
  counter_first : ∀ beat, (replay history).startsFrame beat = true →
    (replay (history ++ [beat])).windowLine = 0

/-- The counter of window lines, after everything that can have happened since power-on with the
    display on at the end, however the window was switched on the way. -/
theorem window_counted (history : List Beat) (hon : (replay history).lcdOn = true) :
    WindowCounted history := by
  have hu := coherent_replay history
  have htracked := tracked_replay history
  have hdone := linesDone_le hon hu
  have hnext (beat : Beat) : (replay (history ++ [beat])).windowLine.toNat =
      ((replay history).followWindow beat (windowStrokes history)).length := by
    rw [← windowStrokes_concat]
    exact (tracked_replay (history ++ [beat])).counter_eq
  refine ⟨htracked.counter_eq, htracked.increasing, ?line_le, ?counter_le, htracked.rows_eq,
    ?stroke_iff, ?shown, fun hhides x => backgroundColor_of_not_shows hhides x, ?counter_next,
    ?counter_first⟩
  case line_le =>
    intro stroke hmem
    have hline := htracked.line_lt hon stroke hmem
    omega
  case counter_le =>
    rw [htracked.counter_eq]
    exact Nat.le_trans (htracked.length_le hon) hdone
  case stroke_iff =>
    intro stroke
    rw [← htracked.counter_eq]
    exact windowStroke?_eq_some_iff hon hu stroke
  case shown =>
    intro hshows x hx
    rw [← htracked.counter_eq]
    exact backgroundColor_of_shows hshows hx
  case counter_next =>
    intro beat hsame
    rw [hnext, followWindow, if_neg (Bool.not_eq_true _ |>.mpr hsame), List.length_append,
      htracked.counter_eq]
  case counter_first =>
    intro beat hfresh
    have hzero := hnext beat
    rw [followWindow, if_pos hfresh, List.length_nil] at hzero
    exact UInt8.toNat_inj.mp hzero

/-- The window on, with nothing but its first column on the screen, up to the end of the pixels of the
    first line. -/
def narrowWindow : List Beat :=
  .write .lcdc 0xB1 :: .write .wx 166 :: List.replicate 252 .dot

/-- The first line is drawn with row 0 of the window, after which the counter is as far ahead of the
    line as it can be. -/
theorem window_counted_narrow :
    (replay narrowWindow).lcdOn = true ∧ windowStrokes narrowWindow = [⟨0, 0⟩] ∧
      (replay narrowWindow).windowLine.toNat = 1 ∧ (replay narrowWindow).ly = 0 ∧
      ∀ x : Fin screenWidth, 159 ≤ x.val → ((replay narrowWindow).backgroundColor x).val =
        (replay narrowWindow).mapPixel 6 (x.val + 7 - 166) 1 := by
  have hon : (replay narrowWindow).lcdOn = true := by decide +kernel
  have hstrokes : windowStrokes narrowWindow = [⟨0, 0⟩] := by decide +kernel
  have hedge : (replay narrowWindow).wx = 166 := by decide +kernel
  have hshows : (replay narrowWindow).WindowShows := by decide +kernel
  have hcounted := window_counted narrowWindow hon
  have hcounter := hcounted.counter_eq
  have hshown := hcounted.shown hshows
  rw [hstrokes] at hcounter hshown
  refine ⟨hon, hstrokes, hcounter, by decide +kernel, ?_⟩
  intro x hx
  rw [hedge] at hshown
  exact hshown x (Nat.add_le_add_right hx 7)

end Handheld.Picture
