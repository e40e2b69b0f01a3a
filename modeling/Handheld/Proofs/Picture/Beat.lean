/-
Module: Handheld.Proofs.Picture.Beat
Purpose: Everything that can happen to the picture unit, beat by beat: a dot passes, or the
  processor or a block transfer touches it between two dots. What a dot can do is said once, as a
  relation with one rule for each move of the raster; the invariant that ties mode, dot and line
  together follows from it by cases.
Main exports: Beat, play, playAll, replay, Raster, Raster.Coherent, Moves, moves_nextDot,
  coherent_replay
-/
import Handheld.Picture.Register

namespace Handheld.Picture

/-- What can happen to the picture unit. -/
inductive Beat where
  /-- A clock cycle passes. -/
  | dot
  | write (register : Register) (value : UInt8)
  | writeVram (i : Fin vramSize) (value : UInt8)
  | writeOam (i : Fin oamSize) (value : UInt8)
  /-- A block transfer writes the sprite table. -/
  | transferOam (i : Fin oamSize) (value : UInt8)
  /-- The mark of a completed frame is taken. -/
  | forget
deriving DecidableEq

/-- One beat. -/
def play (u : Picture) : Beat → Picture × List Signal
  | .dot => u.advance 1
  | .write register value => u.write register value
  | .writeVram i value => (u.writeVram i value, [])
  | .writeOam i value => (u.writeOam i value, [])
  | .transferOam i value => (u.transferOam i value, [])
  | .forget => (u.clearFrameReady, [])

/-- The unit after one beat after the other. -/
def playAll (u : Picture) (beats : List Beat) : Picture :=
  beats.foldl (fun u beat => (u.play beat).1) u

/-- The unit after everything that has happened to it since power-on. -/
def replay (history : List Beat) : Picture :=
  playAll {} history

theorem playAll_append (u : Picture) (first second : List Beat) :
    u.playAll (first ++ second) = (u.playAll first).playAll second :=
  List.foldl_append

theorem playAll_concat (u : Picture) (beats : List Beat) (beat : Beat) :
    u.playAll (beats ++ [beat]) = ((u.playAll beats).play beat).1 := by
  rw [playAll_append]
  rfl

/-- A beat that leaves a display on that is on. -/
def Beat.keepsOn : Beat → Bool
  | .write .lcdc value => value &&& 0x80 != 0
  | _ => true

/-! ### The raster -/

/-- The part of the unit that the course of the raster hangs on. -/
structure Raster where
  lit : Bool
  ly : UInt8
  dot : Nat
  mode : Mode
  transferDots : Nat
  offCycles : Nat
  frameReady : Bool

/-- The raster of the unit. -/
def raster (u : Picture) : Raster :=
  ⟨u.lcdOn, u.ly, u.dot, u.mode, u.transferDots, u.offCycles, u.frameReady⟩

/-- The longest that the pixels of a line can take: fine scrolling by seven pixels, and ten
    sprites. -/
def maxTransferDots : Nat := 239

namespace Raster

/-- Where in the frame the raster can be in each mode. -/
def Placed (r : Raster) : Prop :=
  match r.mode with
  | .oamScan => r.ly.toNat < screenHeight ∧ r.dot < scanDots
  | .transfer => r.ly.toNat < screenHeight ∧ scanDots ≤ r.dot ∧ r.dot < scanDots + r.transferDots
  | .hblank => r.ly.toNat < screenHeight ∧ scanDots + r.transferDots ≤ r.dot ∧ r.dot < dotsPerLine
  | .vblank => screenHeight ≤ r.ly.toNat ∧ r.ly.toNat < linesPerFrame ∧ r.dot < dotsPerLine

theorem Placed.line_lt {r : Raster} (h : r.Placed) : r.ly.toNat < linesPerFrame := by
  unfold Placed at h
  simp only [screenHeight, linesPerFrame] at *
  split at h <;> omega

/-- The invariant of the raster. -/
structure Coherent (r : Raster) : Prop where
  placed : r.lit = true → r.Placed
  base_le : baseTransferDots ≤ r.transferDots
  le_max : r.transferDots ≤ maxTransferDots
  offCycles_lt : r.offCycles < cyclesPerFrame

/-- The raster after the display has been switched. -/
def switch (r : Raster) (on : Bool) : Raster :=
  { r with lit := on, ly := 0, dot := 0, mode := if on then .oamScan else .hblank, offCycles := 0 }

theorem Coherent.switch {r : Raster} (h : r.Coherent) (on : Bool) : (r.switch on).Coherent where
  placed := by
    cases on with
    | false =>
        intro hlit
        cases hlit
    | true =>
        intro _
        have hline : (0 : UInt8).toNat < screenHeight := by decide
        have hdot : 0 < scanDots := by decide
        exact ⟨hline, hdot⟩
  base_le := h.base_le
  le_max := h.le_max
  offCycles_lt := Nat.zero_lt_of_lt h.offCycles_lt

end Raster

/-! ### What leaves the raster alone -/

@[simp] theorem raster_updateStat (u : Picture) : u.updateStat.1.raster = u.raster := rfl

@[simp] theorem raster_writeVram (u : Picture) (i : Fin vramSize) (value : UInt8) :
    (u.writeVram i value).raster = u.raster := by
  unfold writeVram
  split <;> rfl

@[simp] theorem raster_writeOam (u : Picture) (i : Fin oamSize) (value : UInt8) :
    (u.writeOam i value).raster = u.raster := by
  unfold writeOam
  split <;> rfl

@[simp] theorem raster_transferOam (u : Picture) (i : Fin oamSize) (value : UInt8) :
    (u.transferOam i value).raster = u.raster := rfl

theorem raster_setLcd (u : Picture) : (u.setLcd u.lcdOn).1.raster = u.raster.switch u.lcdOn := by
  cases hon : u.lcdOn with
  | false =>
      simp only [setLcd, raster, Raster.switch, Bool.false_eq_true, if_false]
      rw [← hon]
      rfl
  | true =>
      simp only [setLcd, if_true, raster_updateStat]
      simp only [raster, Raster.switch, if_true]
      rw [← hon]
      rfl

/-- A write to LCDC switches the display, or leaves the raster alone. -/
theorem raster_writeLcdc (u : Picture) (value : UInt8) :
    (u.writeLcdc value).1.raster =
      if u.lcdOn = (value &&& 0x80 != 0) then u.raster
      else u.raster.switch (value &&& 0x80 != 0) := by
  have hon : ({ u with lcdc := value } : Picture).lcdOn = (value &&& 0x80 != 0) := rfl
  unfold writeLcdc
  dsimp only
  rw [hon]
  split
  · next hsame =>
    simp only [raster]
    rw [hon, ← hsame]
  · rw [← hon, raster_setLcd]
    rfl

/-- No other register moves the raster. -/
theorem raster_write {register : Register} (h : register ≠ .lcdc) (u : Picture) (value : UInt8) :
    (u.write register value).1.raster = u.raster := by
  cases register <;> first | rfl | contradiction

/-! ### What a dot does -/

/-- The moves of the raster: the unit after a dot, before the status line is brought up to date, and
    the signals so far. -/
inductive Moves (u : Picture) : Picture → List Signal → Prop where
  /-- The next dot of the same mode. -/
  | along (hscan : u.mode = .oamScan → u.dot + 1 < scanDots)
      (htransfer : u.mode = .transfer → u.dot + 1 < scanDots + u.transferDots)
      (hline : u.dot + 1 < dotsPerLine) : Moves u { u with dot := u.dot + 1 } []
  /-- The sprites of the line have been looked up. -/
  | scanned (hmode : u.mode = .oamScan) (hdot : u.dot + 1 = scanDots) :
      Moves u { u with dot := u.dot + 1 }.beginTransfer []
  /-- The pixels of the line have been sent. -/
  | drawn (hmode : u.mode = .transfer) (hdot : u.dot + 1 = scanDots + u.transferDots) :
      Moves u { { u with dot := u.dot + 1 }.renderLine with mode := .hblank } []
  /-- The next line of the screen. -/
  | nextLine (hmode : u.mode = .hblank) (hdot : u.dot + 1 = dotsPerLine)
      (hly : u.ly.toNat + 1 < screenHeight) :
      Moves u { u with dot := 0, ly := u.ly + 1, mode := .oamScan } []
  /-- The first line below the screen. -/
  | vblank (hmode : u.mode = .hblank) (hdot : u.dot + 1 = dotsPerLine)
      (hly : u.ly.toNat + 1 = screenHeight) :
      Moves u { u with dot := 0 }.enterVBlank.1 { u with dot := 0 }.enterVBlank.2
  /-- Another line below the screen. -/
  | lower (hmode : u.mode = .vblank) (hdot : u.dot + 1 = dotsPerLine)
      (hly : u.ly.toNat + 1 < linesPerFrame) : Moves u { u with dot := 0, ly := u.ly + 1 } []
  /-- The top of the next frame. -/
  | top (hmode : u.mode = .vblank) (hdot : u.dot + 1 = dotsPerLine)
      (hly : u.ly.toNat + 1 = linesPerFrame) :
      Moves u { u with dot := 0, ly := 0, windowLine := 0, mode := .oamScan } []

/-- A line that is not the last has a number one higher after it. -/
theorem toNat_add_one {ly : UInt8} (h : ly.toNat < linesPerFrame) : (ly + 1).toNat = ly.toNat + 1 := by
  have hsmall : ly.toNat + 1 < 256 := by
    simp only [linesPerFrame] at h
    omega
  rw [UInt8.toNat_add, UInt8.toNat_one, Nat.mod_eq_of_lt hsmall]

/-- Within a mode the raster goes along the line. -/
theorem Moves.along_of_mode {u : Picture} {mode : Mode} (hmode : u.mode = mode)
    (hscan : mode = .oamScan → u.dot + 1 < scanDots)
    (htransfer : mode = .transfer → u.dot + 1 < scanDots + u.transferDots)
    (hline : u.dot + 1 < dotsPerLine) : Moves u { u with dot := u.dot + 1 } [] := by
  subst hmode
  exact .along hscan htransfer hline

/-- The end of a line of the screen. -/
theorem moves_nextLine_of_hblank {u : Picture} (hmode : u.mode = .hblank)
    (hdot : u.dot + 1 = dotsPerLine) (hly : u.ly.toNat < screenHeight) :
    Moves u ({ u with dot := 0 } : Picture).nextLine.1 ({ u with dot := 0 } : Picture).nextLine.2 := by
  have hline : u.ly.toNat < linesPerFrame := by
    simp only [screenHeight, linesPerFrame] at *
    omega
  unfold Picture.nextLine
  dsimp only
  rw [toNat_add_one hline]
  by_cases hlast : u.ly.toNat + 1 = screenHeight
  · rw [if_pos hlast]
    exact .vblank hmode hdot hlast
  · have hnext : u.ly.toNat + 1 < screenHeight := by omega
    have hframe : u.ly.toNat + 1 ≠ linesPerFrame := by
      simp only [screenHeight, linesPerFrame] at *
      omega
    rw [if_neg hlast, if_neg hframe, if_pos hnext]
    exact .nextLine hmode hdot hnext

/-- The end of a line below the screen. -/
theorem moves_nextLine_of_vblank {u : Picture} (hmode : u.mode = .vblank)
    (hdot : u.dot + 1 = dotsPerLine) (hlow : screenHeight ≤ u.ly.toNat)
    (hline : u.ly.toNat < linesPerFrame) :
    Moves u ({ u with dot := 0 } : Picture).nextLine.1 ({ u with dot := 0 } : Picture).nextLine.2 := by
  have hbelow : u.ly.toNat + 1 ≠ screenHeight := by omega
  have hbelow' : ¬ u.ly.toNat + 1 < screenHeight := by omega
  unfold Picture.nextLine
  dsimp only
  rw [toNat_add_one hline, if_neg hbelow]
  by_cases hlast : u.ly.toNat + 1 = linesPerFrame
  · rw [if_pos hlast]
    exact .top hmode hdot hlast
  · rw [if_neg hlast, if_neg hbelow']
    exact .lower hmode hdot (by omega)

/-- A coherent raster makes one of the moves. -/
theorem moves_nextDot {u : Picture} (hon : u.lcdOn = true) (h : u.raster.Coherent) :
    Moves u u.nextDot.1 u.nextDot.2 := by
  have hplaced : u.raster.Placed := h.placed hon
  have hmax : u.transferDots ≤ maxTransferDots := h.le_max
  unfold Raster.Placed at hplaced
  simp only [raster] at hplaced
  unfold nextDot
  dsimp only
  split
  · next hmode =>
    rw [hmode] at hplaced
    dsimp only at hplaced
    split
    · next hdot => exact .scanned hmode hdot
    · next hdot =>
      apply Moves.along_of_mode hmode
      · intro _
        omega
      · intro hother
        cases hother
      · simp only [scanDots, dotsPerLine] at *
        omega
  · next hmode =>
    rw [hmode] at hplaced
    dsimp only at hplaced
    split
    · next hdot => exact .drawn hmode hdot
    · next hdot =>
      apply Moves.along_of_mode hmode
      · intro hother
        cases hother
      · intro _
        omega
      · simp only [scanDots, maxTransferDots, dotsPerLine] at *
        omega
  · next hmode =>
    rw [hmode] at hplaced
    dsimp only at hplaced
    split
    · next hdot => exact moves_nextLine_of_hblank hmode hdot hplaced.1
    · next hdot =>
      apply Moves.along_of_mode hmode
      · intro hother
        cases hother
      · intro hother
        cases hother
      · omega
  · next hmode =>
    rw [hmode] at hplaced
    dsimp only at hplaced
    obtain ⟨hlow, hline, hdots⟩ := hplaced
    split
    · next hdot => exact moves_nextLine_of_vblank hmode hdot hlow hline
    · next hdot =>
      apply Moves.along_of_mode hmode
      · intro hother
        cases hother
      · intro hother
        cases hother
      · omega

/-- The other way round, each move is what a dot does to a coherent raster that can make it. -/
theorem Moves.nextDot_eq {u u' : Picture} {signals : List Signal} (h : Moves u u' signals)
    (hon : u.lcdOn = true) (hu : u.raster.Coherent) : u.nextDot = (u', signals) := by
  have hplaced := hu.placed hon
  have hline : u.ly.toNat < linesPerFrame := hplaced.line_lt
  have hnext := toNat_add_one hline
  have hlines : screenHeight < linesPerFrame := by decide
  simp only [Raster.Placed, raster] at hplaced
  unfold nextDot
  cases h with
  | along hscan htransfer hline =>
      cases hmode : u.mode with
      | oamScan => simp only [if_neg (Nat.ne_of_lt (hscan hmode))]
      | transfer => simp only [if_neg (Nat.ne_of_lt (htransfer hmode))]
      | hblank | vblank => simp only [if_neg (Nat.ne_of_lt hline)]
  | scanned hmode hdot => simp only [hmode, if_pos hdot]
  | drawn hmode hdot => simp only [hmode, if_pos hdot]
  | nextLine hmode hdot hly =>
      have hframe := Nat.ne_of_lt (Nat.lt_trans hly hlines)
      simp only [hmode, if_pos hdot, Picture.nextLine, hnext, if_neg (Nat.ne_of_lt hly), if_neg hframe,
        if_pos hly]
  | vblank hmode hdot hly => simp only [hmode, if_pos hdot, Picture.nextLine, hnext, if_pos hly]
  | lower hmode hdot hly =>
      rw [hmode] at hplaced
      have hbelow := Nat.lt_succ_of_le hplaced.1
      simp only [hmode, if_pos hdot, Picture.nextLine, hnext, if_neg (Nat.ne_of_gt hbelow),
        if_neg (Nat.ne_of_lt hly), if_neg (Nat.lt_asymm hbelow)]
  | top hmode hdot hly =>
      have hbelow : u.ly.toNat + 1 ≠ screenHeight := by omega
      simp only [hmode, if_pos hdot, Picture.nextLine, hnext, if_neg hbelow, if_pos hly]

/-! ### What follows for every dot -/

/-- The dots since the top of the frame. -/
def position (u : Picture) : Nat :=
  u.ly.toNat * dotsPerLine + u.dot

/-- The position at which the raster leaves the screen. -/
def vblankPosition : Nat := screenHeight * dotsPerLine

theorem length_spritesOnLine (u : Picture) : u.spritesOnLine.length ≤ spritesPerLine := by
  unfold spritesOnLine
  rw [List.length_take]
  exact Nat.min_le_left _ _

namespace Moves

variable {u u' : Picture} {signals : List Signal}

/-- The next dot of the same mode is one that the mode can be at. -/
theorem placed_along (hplaced : u.raster.Placed)
    (hscan : u.mode = .oamScan → u.dot + 1 < scanDots)
    (htransfer : u.mode = .transfer → u.dot + 1 < scanDots + u.transferDots)
    (hline : u.dot + 1 < dotsPerLine) :
    ({ u with dot := u.dot + 1 } : Picture).raster.Placed := by
  unfold Raster.Placed at hplaced ⊢
  simp only [raster] at hplaced ⊢
  cases hmode : u.mode with
  | oamScan =>
      rw [hmode] at hplaced
      exact ⟨hplaced.1, hscan hmode⟩
  | transfer =>
      rw [hmode] at hplaced
      exact ⟨hplaced.1, Nat.le_succ_of_le hplaced.2.1, htransfer hmode⟩
  | hblank =>
      rw [hmode] at hplaced
      exact ⟨hplaced.1, Nat.le_succ_of_le hplaced.2.1, hline⟩
  | vblank =>
      rw [hmode] at hplaced
      exact ⟨hplaced.1, hplaced.2.1, hline⟩

theorem coherent (h : Moves u u' signals) (hon : u.lcdOn = true) (hu : u.raster.Coherent) :
    u'.raster.Coherent := by
  have hplaced := hu.placed hon
  have hline : u.ly.toNat < linesPerFrame := hplaced.line_lt
  have halong := placed_along hplaced
  unfold Raster.Placed at hplaced
  obtain ⟨-, hbase, hmax, hoff⟩ := hu
  simp only [raster] at hplaced hbase hmax
  cases h with
  | along hscan htransfer hline => exact ⟨fun _ => halong hscan htransfer hline, hbase, hmax, hoff⟩
  | scanned hmode hdot =>
      have hsprites := length_spritesOnLine { u with dot := u.dot + 1 }
      rw [hmode] at hplaced
      refine ⟨fun _ => ?_, ?_, ?_, hoff⟩
      · simp only [Raster.Placed, raster, beginTransfer]
        simp only [scanDots, baseTransferDots] at *
        omega
      · simp only [raster, beginTransfer]
        omega
      · simp only [raster, beginTransfer]
        simp only [baseTransferDots, spriteDots, spritesPerLine, maxTransferDots] at *
        omega
  | drawn hmode hdot =>
      rw [hmode] at hplaced
      refine ⟨fun _ => ?_, hbase, hmax, hoff⟩
      simp only [Raster.Placed, raster, renderLine]
      simp only [scanDots, maxTransferDots, dotsPerLine] at *
      omega
  | nextLine hmode hdot hly =>
      refine ⟨fun _ => ?_, hbase, hmax, hoff⟩
      simp only [Raster.Placed, raster, toNat_add_one hline]
      exact ⟨hly, by decide⟩
  | vblank hmode hdot hly =>
      refine ⟨fun _ => ?_, hbase, hmax, hoff⟩
      simp only [Raster.Placed, raster, enterVBlank, toNat_add_one hline]
      simp only [screenHeight, linesPerFrame, dotsPerLine] at *
      omega
  | lower hmode hdot hly =>
      rw [hmode] at hplaced
      refine ⟨fun _ => ?_, hbase, hmax, hoff⟩
      simp only [Raster.Placed, raster, hmode, toNat_add_one hline]
      exact ⟨Nat.le_succ_of_le hplaced.1, hly, by decide⟩
  | top hmode hdot hly =>
      refine ⟨fun _ => ?_, hbase, hmax, hoff⟩
      have hfirst : (0 : UInt8).toNat < screenHeight := by decide
      have hstart : 0 < scanDots := by decide
      exact ⟨hfirst, hstart⟩

/-- Every dot moves the raster on by one, from the last position of a frame to the first. -/
theorem position_eq (h : Moves u u' signals) (hon : u.lcdOn = true) (hu : u.raster.Coherent) :
    u'.position = (u.position + 1) % cyclesPerFrame := by
  have hline : u.ly.toNat < linesPerFrame := (hu.placed hon).line_lt
  have hmax : u.transferDots ≤ maxTransferDots := hu.le_max
  unfold position
  cases h with
  | along hscan htransfer hdot =>
      simp only [linesPerFrame, dotsPerLine, cyclesPerFrame] at *
      omega
  | scanned hmode hdot =>
      simp only [beginTransfer, linesPerFrame, dotsPerLine, scanDots, cyclesPerFrame] at *
      omega
  | drawn hmode hdot =>
      simp only [renderLine, linesPerFrame, dotsPerLine, scanDots, cyclesPerFrame,
        maxTransferDots] at *
      omega
  | nextLine hmode hdot hly =>
      simp only [toNat_add_one hline]
      simp only [linesPerFrame, dotsPerLine, cyclesPerFrame, screenHeight] at *
      omega
  | vblank hmode hdot hly =>
      simp only [enterVBlank, toNat_add_one hline]
      simp only [linesPerFrame, dotsPerLine, cyclesPerFrame, screenHeight] at *
      omega
  | lower hmode hdot hly =>
      simp only [toNat_add_one hline]
      simp only [linesPerFrame, dotsPerLine, cyclesPerFrame] at *
      omega
  | top hmode hdot hly =>
      have hend : u.ly.toNat * dotsPerLine + u.dot + 1 = cyclesPerFrame := by
        simp only [linesPerFrame, dotsPerLine, cyclesPerFrame] at *
        omega
      have hfirst : (0 : UInt8).toNat = 0 := rfl
      rw [hend, Nat.mod_self]
      simp only [hfirst, Nat.zero_mul, Nat.add_zero]

/-- The dot that reaches the position of V-blank requests the interrupt and marks the frame as
    complete. No other dot does either. -/
theorem vblank_or_quiet (h : Moves u u' signals) (hon : u.lcdOn = true)
    (hu : u.raster.Coherent) :
    (u'.position = vblankPosition ∧ .request .vblank ∈ signals ∧ u'.frameReady = true) ∨
      (u'.position ≠ vblankPosition ∧ .request .vblank ∉ signals ∧
        u'.frameReady = u.frameReady) := by
  have hplaced := hu.placed hon
  have hline : u.ly.toNat < linesPerFrame := hplaced.line_lt
  have hmax : u.transferDots ≤ maxTransferDots := hu.le_max
  rw [h.position_eq hon hu]
  unfold position vblankPosition
  cases h with
  | along hscan htransfer hdot =>
      refine .inr ⟨?_, List.not_mem_nil, rfl⟩
      simp only [linesPerFrame, dotsPerLine, cyclesPerFrame, screenHeight] at *
      omega
  | scanned hmode hdot =>
      refine .inr ⟨?_, List.not_mem_nil, rfl⟩
      simp only [linesPerFrame, dotsPerLine, cyclesPerFrame, screenHeight, scanDots] at *
      omega
  | drawn hmode hdot =>
      refine .inr ⟨?_, List.not_mem_nil, rfl⟩
      simp only [linesPerFrame, dotsPerLine, cyclesPerFrame, screenHeight, scanDots,
        maxTransferDots] at *
      omega
  | nextLine hmode hdot hly =>
      refine .inr ⟨?_, List.not_mem_nil, rfl⟩
      simp only [linesPerFrame, dotsPerLine, cyclesPerFrame, screenHeight] at *
      omega
  | vblank hmode hdot hly =>
      refine .inl ⟨?_, List.mem_cons_self, rfl⟩
      simp only [linesPerFrame, dotsPerLine, cyclesPerFrame, screenHeight] at *
      omega
  | lower hmode hdot hly =>
      have hlow : screenHeight ≤ u.ly.toNat := by
        simp only [Raster.Placed, raster, hmode] at hplaced
        exact hplaced.1
      refine .inr ⟨?_, List.not_mem_nil, rfl⟩
      simp only [linesPerFrame, dotsPerLine, cyclesPerFrame, screenHeight] at *
      omega
  | top hmode hdot hly =>
      refine .inr ⟨?_, List.not_mem_nil, rfl⟩
      simp only [linesPerFrame, dotsPerLine, cyclesPerFrame, screenHeight] at *
      omega

end Moves

/-! ### Beats while the display is on -/

variable {u : Picture}

theorem request_vblank_not_mem_updateStat (u : Picture) :
    .request .vblank ∉ u.updateStat.2 := by
  unfold updateStat
  dsimp only
  split
  · simp
  · exact List.not_mem_nil

theorem advance_of_off (hoff : u.lcdOn = false) (cycles : Nat) :
    u.advance cycles = (u.idle cycles, []) := by
  unfold advance
  exact if_neg (by simp [hoff])

/-- With the display on, a single clock cycle is a dot. -/
theorem advance_one (hon : u.lcdOn = true) : u.advance 1 = u.tick := by
  unfold advance
  rw [if_pos hon]
  simp [ticksFrom]

theorem lcdOn_tick (u : Picture) : u.tick.1.lcdOn = u.lcdOn := by
  have hmoved : u.nextDot.1.lcdOn = u.lcdOn := by
    unfold nextDot nextLine enterVBlank
    dsimp only
    repeat' split
    all_goals rfl
  exact hmoved

theorem coherent_tick (hon : u.lcdOn = true) (hu : u.raster.Coherent) :
    u.tick.1.raster.Coherent :=
  (moves_nextDot hon hu).coherent hon hu

theorem position_tick (hon : u.lcdOn = true) (hu : u.raster.Coherent) :
    u.tick.1.position = (u.position + 1) % cyclesPerFrame :=
  (moves_nextDot hon hu).position_eq hon hu

theorem dot_lt (hon : u.lcdOn = true) (hu : u.raster.Coherent) : u.dot < dotsPerLine := by
  have hplaced := hu.placed hon
  have hmax : u.transferDots ≤ maxTransferDots := hu.le_max
  simp only [Raster.Placed, raster] at hplaced
  simp only [dotsPerLine, scanDots, maxTransferDots] at *
  split at hplaced <;> omega

theorem position_lt (hon : u.lcdOn = true) (hu : u.raster.Coherent) :
    u.position < cyclesPerFrame := by
  have hline : u.ly.toNat < linesPerFrame := (hu.placed hon).line_lt
  have hdot := dot_lt hon hu
  unfold position
  simp only [cyclesPerFrame, linesPerFrame, dotsPerLine] at *
  omega

theorem request_vblank_tick (hon : u.lcdOn = true) (hu : u.raster.Coherent) :
    .request .vblank ∈ u.tick.2 ↔ u.tick.1.position = vblankPosition := by
  have hrose := request_vblank_not_mem_updateStat u.nextDot.1
  have hsignals : u.tick.2 = u.nextDot.2 ++ u.nextDot.1.updateStat.2 := rfl
  have hposition : u.tick.1.position = u.nextDot.1.position := rfl
  rw [hsignals, hposition, List.mem_append]
  rcases (moves_nextDot hon hu).vblank_or_quiet hon hu with ⟨hat, hmem, -⟩ | ⟨hoff, hmem, -⟩
  · exact ⟨fun _ => hat, fun _ => .inl hmem⟩
  · constructor
    · rintro (h | h)
      · exact absurd h hmem
      · exact absurd h hrose
    · intro h
      exact absurd h hoff

theorem frameReady_tick (hon : u.lcdOn = true) (hu : u.raster.Coherent) :
    u.tick.1.frameReady = true ↔ u.frameReady = true ∨ u.tick.1.position = vblankPosition := by
  have hposition : u.tick.1.position = u.nextDot.1.position := rfl
  have hready : u.tick.1.frameReady = u.nextDot.1.frameReady := rfl
  rw [hposition, hready]
  rcases (moves_nextDot hon hu).vblank_or_quiet hon hu with ⟨hat, -, hset⟩ | ⟨hoff, -, hkept⟩
  · exact ⟨fun _ => .inr hat, fun _ => hset⟩
  · rw [hkept]
    exact ⟨.inl, fun h => h.resolve_right hoff⟩

/-- A beat between two dots that does not switch the display moves nothing. It may take away the
    mark of a completed frame. -/
theorem raster_play {beat : Beat} (hon : u.lcdOn = true) (hkeep : beat.keepsOn = true)
    (hdot : beat ≠ .dot) :
    (u.play beat).1.raster =
      { u.raster with frameReady := u.frameReady && beat != .forget } := by
  have hready : u.raster = { u.raster with frameReady := u.frameReady && true } := by
    rw [Bool.and_true]
    rfl
  cases beat with
  | dot => contradiction
  | write register value =>
      by_cases hlcdc : register = .lcdc
      · subst hlcdc
        have hvalue : (value &&& 0x80 != 0) = true := hkeep
        have hwrite := raster_writeLcdc u value
        rw [hvalue, if_pos hon] at hwrite
        exact hwrite.trans hready
      · exact (raster_write hlcdc u value).trans hready
  | writeVram i value => exact (raster_writeVram u i value).trans hready
  | writeOam i value => exact (raster_writeOam u i value).trans hready
  | transferOam i value => exact (raster_transferOam u i value).trans hready
  | forget =>
      have hnone : (u.frameReady && Beat.forget != .forget) = false := by simp
      rw [hnone]
      rfl

theorem position_play {beat : Beat} (hon : u.lcdOn = true) (hkeep : beat.keepsOn = true)
    (hdot : beat ≠ .dot) : (u.play beat).1.position = u.position := by
  have hraster := raster_play hon hkeep hdot
  have hly : (u.play beat).1.ly = u.ly := congrArg Raster.ly hraster
  have hdots : (u.play beat).1.dot = u.dot := congrArg Raster.dot hraster
  unfold position
  rw [hly, hdots]

theorem lcdOn_play {beat : Beat} (hon : u.lcdOn = true) (hkeep : beat.keepsOn = true) :
    (u.play beat).1.lcdOn = true := by
  by_cases hdot : beat = .dot
  · subst hdot
    rw [play, advance_one hon, lcdOn_tick]
    exact hon
  · have hraster := raster_play hon hkeep hdot
    exact (congrArg Raster.lit hraster).trans hon

theorem request_vblank_not_mem_play {beat : Beat} (hdot : beat ≠ .dot) (u : Picture) :
    .request .vblank ∉ (u.play beat).2 := by
  cases beat with
  | dot => contradiction
  | write register value =>
      cases register with
      | lcdc =>
          simp only [play, write, writeLcdc]
          split
          · exact List.not_mem_nil
          · unfold setLcd
            dsimp only
            split
            · rw [List.mem_cons, not_or]
              exact ⟨Signal.noConfusion, request_vblank_not_mem_updateStat _⟩
            · simp
      | stat => exact request_vblank_not_mem_updateStat _
      | lyc => exact request_vblank_not_mem_updateStat _
      | _ => exact List.not_mem_nil
  | _ => exact List.not_mem_nil

/-! ### Every beat -/

theorem coherent_play (hu : u.raster.Coherent) (beat : Beat) : (u.play beat).1.raster.Coherent := by
  cases beat with
  | dot =>
      by_cases hon : u.lcdOn = true
      · rw [play, advance_one hon]
        exact coherent_tick hon hu
      · have hidle : u.advance 1 = (u.idle 1, []) := by
          unfold advance
          exact if_neg hon
        rw [play, hidle]
        have hcycles : (u.offCycles + 1) % cyclesPerFrame < cyclesPerFrame :=
          Nat.mod_lt _ (by decide)
        exact ⟨hu.placed, hu.base_le, hu.le_max, hcycles⟩
  | write register value =>
      by_cases hlcdc : register = .lcdc
      · subst hlcdc
        rw [play, write, raster_writeLcdc]
        split
        · exact hu
        · exact hu.switch _
      · rw [play, raster_write hlcdc]
        exact hu
  | writeVram i value => rwa [play, raster_writeVram]
  | writeOam i value => rwa [play, raster_writeOam]
  | transferOam i value => rwa [play, raster_transferOam]
  | forget => exact ⟨hu.placed, hu.base_le, hu.le_max, hu.offCycles_lt⟩

theorem coherent_playAll (hu : u.raster.Coherent) (beats : List Beat) :
    (u.playAll beats).raster.Coherent := by
  induction beats generalizing u with
  | nil => exact hu
  | cons beat rest ih => exact ih (coherent_play hu beat)

/-- After any beats that do not switch the display, the raster has moved on by the dots
    among them. -/
theorem position_playAll {beats : List Beat} (hon : u.lcdOn = true) (hu : u.raster.Coherent)
    (hkeep : ∀ beat ∈ beats, beat.keepsOn = true) :
    (u.playAll beats).lcdOn = true ∧
      (u.playAll beats).position = (u.position + beats.count .dot) % cyclesPerFrame := by
  induction beats generalizing u with
  | nil =>
      refine ⟨hon, ?_⟩
      rw [List.count_nil, Nat.add_zero, Nat.mod_eq_of_lt (position_lt hon hu)]
      rfl
  | cons beat rest ih =>
      have hfirst := hkeep beat List.mem_cons_self
      have hrest : ∀ beat ∈ rest, beat.keepsOn = true :=
        fun other hmem => hkeep other (List.mem_cons_of_mem _ hmem)
      obtain ⟨hlit, hposition⟩ := ih (lcdOn_play hon hfirst) (coherent_play hu beat) hrest
      refine ⟨hlit, ?_⟩
      have hall : u.playAll (beat :: rest) = (u.play beat).1.playAll rest := rfl
      rw [hall, hposition]
      by_cases hdot : beat = .dot
      · subst hdot
        rw [play, advance_one hon, position_tick hon hu, List.count_cons_self, Nat.mod_add_mod]
        have hsum : u.position + 1 + rest.count .dot = u.position + (rest.count .dot + 1) := by
          omega
        rw [hsum]
      · rw [position_play hon hfirst hdot, List.count_cons_of_ne hdot]

theorem coherent_powerOn : (({} : Picture).raster).Coherent where
  placed _ := by
    have hline : (0 : UInt8).toNat < screenHeight := by decide
    have hdot : 0 < scanDots := by decide
    exact ⟨hline, hdot⟩
  base_le := Nat.le_refl _
  le_max := by
    have hbase : baseTransferDots ≤ maxTransferDots := by decide
    exact hbase
  offCycles_lt := by
    have hcycles : 0 < cyclesPerFrame := by decide
    exact hcycles

/-- The invariant of the raster holds whatever has happened since power-on. -/
theorem coherent_replay (history : List Beat) : (replay history).raster.Coherent :=
  coherent_playAll coherent_powerOn history

end Handheld.Picture
