/-
Module: Handheld.Proofs.Picture.StaticScene
Purpose: A scene that nobody touches is drawn once and then stays. What a frame leaves behind, which
  is the look-up of the last line, the pixels and the mark, is put anew on the way through the next
  one before it is used; and at the top of a frame everything else hangs on the scene alone.
Main exports: bare, scene, Agree, Agree.moves, Agree.eq_of_vblank, bare_of_top,
  advance_frame_settles
-/
import Handheld.Proofs.Picture.WindowLine

namespace Handheld.Picture

variable {u u' v : Picture} {signals : List Signal}

/-! ### The parts of a unit -/

/-- The unit without what is left over from the frame before: its pixels, its mark, and the look-up
    of its last line. -/
def bare (u : Picture) : Picture :=
  { u with transferDots := baseTransferDots, lineSprites := [], frameReady := false, frame := .blank }

/-- The scene: the memories and the registers, with the raster at rest at the top of the frame. -/
def scene (u : Picture) : Picture :=
  { u.bare with ly := 0, dot := 0, mode := .oamScan, windowLine := 0, statLine := false }

theorem eq_of_bare_eq (hbare : v.bare = u.bare) (hdots : v.transferDots = u.transferDots)
    (hsprites : v.lineSprites = u.lineSprites) (hready : v.frameReady = u.frameReady)
    (hframe : v.frame = u.frame) : v = u := by
  have hparts (w : Picture) : w = { w.bare with
    transferDots := w.transferDots, lineSprites := w.lineSprites
    frameReady := w.frameReady, frame := w.frame } := rfl
  rw [hparts v, hbare, hdots, hsprites, hready, hframe]
  rfl

/-- The pixels of a line hang on its sprites and on nothing else that is left over. -/
theorem lineShades_eq_of_bare_eq (hbare : v.bare = u.bare)
    (hsprites : v.lineSprites = u.lineSprites) : v.lineShades = u.lineShades := by
  have hparts (w : Picture) :
      w.lineShades = ({ w.bare with lineSprites := w.lineSprites } : Picture).lineShades := rfl
  rw [hparts v, hbare, hsprites]
  rfl

/-- Dots leave the scene alone. -/
theorem Moves.scene_eq (h : Moves u u' signals) : u'.scene = u.scene := by
  cases h <;> rfl

/-! ### Units that differ in what is left over -/

/-- The units differ at most in what is left over from the frame before and has not been put anew in
    the current one. -/
structure Agree (u v : Picture) : Prop where
  bare_eq : v.bare = u.bare
  /-- The look-up is the same once it has been made. -/
  lookedUp : u.mode ≠ .oamScan →
    v.transferDots = u.transferDots ∧ v.lineSprites = u.lineSprites
  /-- The lines that have been drawn are the same. -/
  drawn : ∀ (y : Nat) (hy : y < screenHeight), y < u.linesDone → v.frame.rows[y] = u.frame.rows[y]
  /-- The mark is the same once the frame is complete. -/
  completed : u.mode = .vblank → v.frameReady = u.frameReady

/-- Below the screen nothing is left over any more. -/
theorem Agree.eq_of_vblank (h : Agree u v) (hmode : u.mode = .vblank) : v = u := by
  have hpast : u.mode ≠ .oamScan := by
    rw [hmode]
    exact Mode.noConfusion
  have hall : u.linesDone = screenHeight := by
    unfold linesDone
    rw [hmode]
  obtain ⟨hdots, hsprites⟩ := h.lookedUp hpast
  apply eq_of_bare_eq h.bare_eq hdots hsprites (h.completed hmode)
  apply Frame.ext_rows
  intro y hy
  exact h.drawn y hy (hall ▸ hy)

/-- The end of the pixels: both draw the same line, over whatever they had there. -/
theorem Agree.draw (h : Agree u v) (hsent : u.mode = .transfer) :
    Agree { { u with dot := u.dot + 1 }.renderLine with mode := .hblank }
      { { v with dot := v.dot + 1 }.renderLine with mode := .hblank } := by
  obtain ⟨hlength, hsprites⟩ := h.lookedUp (hsent ▸ Mode.noConfusion)
  have hly : v.ly = u.ly := (congrArg Picture.ly h.bare_eq :)
  have hbefore : u.linesDone = u.ly.toNat := by
    unfold linesDone
    rw [hsent]
  have hbare := congrArg (fun w : Picture =>
    ({ { w with dot := w.dot + 1 }.renderLine with mode := .hblank } : Picture).bare) h.bare_eq
  refine ⟨hbare, fun _ => ⟨hlength, hsprites⟩, ?_, nofun⟩
  intro y hy hdone
  have hdone : y < u.ly.toNat + 1 := hdone
  have hshades : ({ v with dot := v.dot + 1 } : Picture).lineShades =
      ({ u with dot := u.dot + 1 } : Picture).lineShades :=
    lineShades_eq_of_bare_eq (congrArg (fun w : Picture => { w with dot := w.dot + 1 }) h.bare_eq)
      hsprites
  change (v.frame.setRow v.ly.toNat ({ v with dot := v.dot + 1 } : Picture).lineShades).rows[y] =
    (u.frame.setRow u.ly.toNat ({ u with dot := u.dot + 1 } : Picture).lineShades).rows[y]
  rw [hshades, hly]
  by_cases hcurrent : u.ly.toNat = y
  · subst hcurrent
    rw [getElem_setRow_self v.frame hy, getElem_setRow_self u.frame hy]
  · rw [getElem_setRow_ne v.frame hy _ hcurrent, getElem_setRow_ne u.frame hy _ hcurrent]
    exact h.drawn y hy (by omega)

/-- Whatever move one of them makes, the other one makes too. -/
theorem Agree.moves (h : Agree u v) (hon : u.lcdOn = true) (hu : u.raster.Coherent)
    (hmoves : Moves u u' signals) : ∃ v' signals', Moves v v' signals' ∧ Agree u' v' := by
  -- both are at the same place, so the same move is open to the other one
  have hmode : v.mode = u.mode := (congrArg Picture.mode h.bare_eq :)
  have hdots : v.dot = u.dot := (congrArg Picture.dot h.bare_eq :)
  have hly : v.ly = u.ly := (congrArg Picture.ly h.bare_eq :)
  have hline : u.ly.toNat < linesPerFrame := (hu.placed hon).line_lt
  have hdrawn := h.drawn
  unfold linesDone at hdrawn
  cases hmoves with
  | along hscan htransfer hend =>
      refine ⟨{ v with dot := v.dot + 1 }, [], .along ?_ ?_ ?_, ?_⟩
      · rw [hmode, hdots]
        exact hscan
      · rw [hmode, hdots]
        intro hsent
        obtain ⟨hlength, -⟩ := h.lookedUp (hsent ▸ Mode.noConfusion)
        rw [hlength]
        exact htransfer hsent
      · rw [hdots]
        exact hend
      · have hbare := congrArg (fun w : Picture => { w with dot := w.dot + 1 }) h.bare_eq
        exact ⟨hbare, h.lookedUp, h.drawn, h.completed⟩
  | scanned hscan hdot =>
      refine ⟨{ v with dot := v.dot + 1 }.beginTransfer, [],
        .scanned (hmode.trans hscan) (hdots ▸ hdot), ?_⟩
      rw [hscan] at hdrawn
      -- the look-up asks for nothing that is left over
      have hbare :=
        congrArg (fun w : Picture => { w with dot := w.dot + 1, mode := .transfer }) h.bare_eq
      have hlookUp := congrArg beginTransfer h.bare_eq
      refine ⟨hbare, fun _ => ?_, hdrawn, nofun⟩
      exact ⟨(congrArg Picture.transferDots hlookUp :), (congrArg Picture.lineSprites hlookUp :)⟩
  | drawn hsent hdot =>
      obtain ⟨hlength, -⟩ := h.lookedUp (hsent ▸ Mode.noConfusion)
      refine ⟨{ { v with dot := v.dot + 1 }.renderLine with mode := .hblank }, [],
        .drawn (hmode.trans hsent) ?_, h.draw hsent⟩
      rw [hdots, hlength, hdot]
  | nextLine hrest hdot hnext =>
      rw [hrest] at hdrawn
      refine ⟨{ v with dot := 0, ly := v.ly + 1, mode := .oamScan }, [],
        .nextLine (hmode.trans hrest) (hdots ▸ hdot) (hly ▸ hnext), ?_⟩
      have hbare := congrArg
        (fun w : Picture => { w with dot := 0, ly := w.ly + 1, mode := .oamScan }) h.bare_eq
      refine ⟨hbare, fun hscan => absurd rfl hscan, ?_, nofun⟩
      intro y hy hdone
      have hdone' : y < (u.ly + 1).toNat := hdone
      rw [toNat_add_one hline] at hdone'
      exact hdrawn y hy hdone'
  | vblank hrest hdot hnext =>
      obtain ⟨hlength, hsprites⟩ := h.lookedUp (hrest ▸ Mode.noConfusion)
      rw [hrest] at hdrawn
      refine ⟨_, _, .vblank (hmode.trans hrest) (hdots ▸ hdot) (hly ▸ hnext), ?_⟩
      have hbare := congrArg
        (fun w : Picture => { w with dot := 0, ly := w.ly + 1, mode := .vblank }) h.bare_eq
      refine ⟨hbare, fun _ => ⟨hlength, hsprites⟩, ?_, fun _ => rfl⟩
      intro y hy hdone
      exact hdrawn y hy (hnext ▸ hy)
  | lower hbelow hdot hnext =>
      refine ⟨{ v with dot := 0, ly := v.ly + 1 }, [],
        .lower (hmode.trans hbelow) (hdots ▸ hdot) (hly ▸ hnext), ?_⟩
      rw [hbelow] at hdrawn
      have hbare := congrArg (fun w : Picture => { w with dot := 0, ly := w.ly + 1 }) h.bare_eq
      refine ⟨hbare, h.lookedUp, ?_, h.completed⟩
      intro y hy hdone
      exact hdrawn y hy hy
  | top hbelow hdot hlast =>
      refine ⟨{ v with dot := 0, ly := 0, windowLine := 0, mode := .oamScan }, [],
        .top (hmode.trans hbelow) (hdots ▸ hdot) (hly ▸ hlast), ?_⟩
      have hbare := congrArg (fun w : Picture =>
        { w with dot := 0, ly := 0, windowLine := 0, mode := .oamScan }) h.bare_eq
      exact ⟨hbare, fun hscan => absurd rfl hscan, fun y hy hdone => absurd hdone (Nat.not_lt_zero y),
        nofun⟩

theorem Agree.tick (h : Agree u v) (hon : u.lcdOn = true) (hu : u.raster.Coherent)
    (hv : v.raster.Coherent) : Agree u.tick.1 v.tick.1 := by
  have hon' : v.lcdOn = true := (congrArg lcdOn h.bare_eq).trans hon
  obtain ⟨v', signals', hmoves, hagree⟩ := h.moves hon hu (moves_nextDot hon hu)
  have hnext : v.nextDot.1 = v' := by rw [hmoves.nextDot_eq hon' hv]
  rw [← hnext] at hagree
  have hbare := congrArg (fun w : Picture => w.updateStat.1) hagree.bare_eq
  exact ⟨hbare, hagree.lookedUp, hagree.drawn, hagree.completed⟩

theorem Agree.advance (h : Agree u v) (hon : u.lcdOn = true) (hu : u.raster.Coherent)
    (hv : v.raster.Coherent) (dots : Nat) : Agree (u.advance dots).1 (v.advance dots).1 := by
  rw [advance_eq_playAll hu, advance_eq_playAll hv]
  induction dots generalizing u v with
  | zero => exact h
  | succ dots ih =>
      have hon' : v.lcdOn = true := (congrArg lcdOn h.bare_eq).trans hon
      have hstep := h.tick hon hu hv
      rw [← advance_one hon, ← advance_one hon'] at hstep
      exact ih hstep (lcdOn_play hon rfl) (coherent_play hu .dot) (coherent_play hv .dot)

/-! ### The top of a frame -/

theorem mode_of_top (hon : u.lcdOn = true) (hu : u.raster.Coherent) (hline : u.ly = 0)
    (hdot : u.dot = 0) : u.mode = .oamScan := by
  have hmodes := modesPlaced hon hu
  have hscreen : u.ly.toNat < screenHeight := by
    rw [hline]
    decide
  apply (hmodes.oamScan_iff hscreen).mpr
  rw [hdot]
  decide

theorem linesDone_of_top (hon : u.lcdOn = true) (hu : u.raster.Coherent) (hline : u.ly = 0)
    (hdot : u.dot = 0) : u.linesDone = 0 := by
  unfold linesDone
  rw [mode_of_top hon hu hline hdot, hline]
  rfl

theorem windowLine_of_top (h : Reachable u) (hon : u.lcdOn = true) (hline : u.ly = 0)
    (hdot : u.dot = 0) : u.windowLine = 0 := by
  have hdone := linesDone_of_top hon h.coherent hline hdot
  obtain ⟨history, rfl⟩ := h.exists_replay
  have htracked := tracked_replay history
  have hlength := htracked.length_le hon
  have hcounter := htracked.counter_eq
  apply UInt8.toNat_inj.mp
  rw [hdone] at hlength
  rw [hcounter, Nat.le_zero.mp hlength]
  rfl

/-- At the top of a frame the scene says all but what is left over. -/
theorem bare_of_top (h : Reachable u) (hon : u.lcdOn = true) (hline : u.ly = 0) (hdot : u.dot = 0) :
    u.bare = u.scene.updateStat.1 := by
  have hmode := mode_of_top hon h.coherent hline hdot
  have hwindow := windowLine_of_top h hon hline hdot
  have hactive : u.statActive = u.scene.statActive := by
    unfold statActive
    rw [hline, hmode]
    rfl
  have hlatch : u.statLine = (u.lcdOn && u.scene.statActive) := by
    rw [Bool.eq_iff_iff, ← hactive, ← statDue_iff]
    exact synced_of_reachable h
  have hparts : u.bare = { u.scene with
    ly := u.ly, dot := u.dot, mode := u.mode, windowLine := u.windowLine
    statLine := u.statLine } := rfl
  rw [hparts, hline, hdot, hmode, hwindow, hlatch]
  rfl

/-! ### A frame of the same scene -/

theorem scene_advance (hon : u.lcdOn = true) (hu : u.raster.Coherent) (dots : Nat) :
    (u.advance dots).1.scene = u.scene := by
  rw [advance_eq_playAll hu]
  induction dots generalizing u with
  | zero => rfl
  | succ dots ih =>
      have hstep : (u.play .dot).1.scene = u.scene := by
        rw [play, advance_one hon]
        exact (moves_nextDot hon hu).scene_eq
      exact (ih (lcdOn_play hon rfl) (coherent_play hu .dot)).trans hstep

/-- A whole frame takes the raster from the top to the top. -/
theorem top_advance_frame (hon : u.lcdOn = true) (hu : u.raster.Coherent) (hline : u.ly = 0)
    (hdot : u.dot = 0) : (u.advance cyclesPerFrame).1.lcdOn = true ∧
      (u.advance cyclesPerFrame).1.ly = 0 ∧ (u.advance cyclesPerFrame).1.dot = 0 := by
  obtain ⟨hlit, hposition⟩ := position_advance hon hu cyclesPerFrame
  rw [Nat.add_mod_right, position, position, hline, hdot] at hposition
  have hzero : (0 : UInt8).toNat = 0 := rfl
  rw [hzero, Nat.zero_mul, Nat.add_zero, Nat.zero_mod] at hposition
  refine ⟨hlit, UInt8.toNat_inj.mp ?_, (Nat.add_eq_zero_iff.mp hposition).2⟩
  have hproduct := (Nat.add_eq_zero_iff.mp hposition).1
  exact (Nat.mul_eq_zero.mp hproduct).resolve_right (by decide)

/-- Units that agree at the top of a frame are the same after it. -/
theorem Agree.advance_frame_eq (h : Agree u v) (hon : u.lcdOn = true) (hu : u.raster.Coherent)
    (hv : v.raster.Coherent) (hline : u.ly = 0) (hdot : u.dot = 0) :
    (v.advance cyclesPerFrame).1 = (u.advance cyclesPerFrame).1 := by
  have hagree := h.advance hon hu hv vblankPosition
  obtain ⟨hlit, hposition⟩ := position_advance hon hu vblankPosition
  have hu' : (u.advance vblankPosition).1.raster.Coherent := by
    rw [advance_eq_playAll hu]
    exact coherent_playAll hu _
  have hbelow : screenHeight ≤ (u.advance vblankPosition).1.ly.toNat := by
    have hdots := dot_lt hlit hu'
    rw [position, position, hline, hdot] at hposition
    have hzero : (0 : UInt8).toNat = 0 := rfl
    simp only [hzero, vblankPosition, screenHeight, dotsPerLine, cyclesPerFrame,
      linesPerFrame] at *
    omega
  have hsame := hagree.eq_of_vblank ((modesPlaced hlit hu').vblank_iff.mpr hbelow)
  have hsplit : cyclesPerFrame = vblankPosition + (cyclesPerFrame - vblankPosition) := by decide
  rw [hsplit, advance_add, advance_add, hsame]

/-- A frame of a scene that stays as it is. From the top of one frame to the top of the next every
    part of the unit comes to stand as it will after each further frame, and what the frame held
    before makes no difference. -/
theorem advance_frame_settles (h : Reachable u) (hon : u.lcdOn = true) (hline : u.ly = 0)
    (hdot : u.dot = 0) :
    ((u.advance cyclesPerFrame).1.advance cyclesPerFrame).1 = (u.advance cyclesPerFrame).1 ∧
      ∀ frame : Frame, (({ u with frame } : Picture).advance cyclesPerFrame).1 =
        (u.advance cyclesPerFrame).1 := by
  have hu := h.coherent
  have hmode := mode_of_top hon hu hline hdot
  have hdone := linesDone_of_top hon hu hline hdot
  have hagree {v : Picture} (hbare : v.bare = u.bare) : Agree u v := by
    refine ⟨hbare, fun hpast => absurd hmode hpast, ?_, ?_⟩
    · intro y hy hlt
      rw [hdone] at hlt
      exact absurd hlt (Nat.not_lt_zero y)
    · intro hbelow
      rw [hmode] at hbelow
      cases hbelow
  constructor
  · have hnext := h.advance cyclesPerFrame
    obtain ⟨hon', hline', hdot'⟩ := top_advance_frame hon hu hline hdot
    have hbare : (u.advance cyclesPerFrame).1.bare = u.bare := by
      rw [bare_of_top hnext hon' hline' hdot', bare_of_top h hon hline hdot, scene_advance hon hu]
    exact (hagree hbare).advance_frame_eq hon hu hnext.coherent hline hdot
  · intro frame
    exact (hagree (v := { u with frame }) rfl).advance_frame_eq hon hu hu hline hdot

/-- A sprite on the first line, and a background that is scrolled by three pixels. -/
def scrolledScene : List Beat :=
  [.transferOam ⟨0, Nat.zero_lt_succ 159⟩ 16, .write .scx 3, .write .lcdc 0x93]

theorem advance_frame_settles_scrolled :
    (((replay scrolledScene).advance cyclesPerFrame).1.advance cyclesPerFrame).1 =
        ((replay scrolledScene).advance cyclesPerFrame).1 ∧
      ∀ frame : Frame,
        (({ replay scrolledScene with frame } : Picture).advance cyclesPerFrame).1 =
          ((replay scrolledScene).advance cyclesPerFrame).1 :=
  advance_frame_settles (.play (.play (.play .powerOn _) _) _) (by decide) (by decide) (by decide)

end Handheld.Picture
