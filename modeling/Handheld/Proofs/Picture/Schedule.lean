/-
Module: Handheld.Proofs.Picture.Schedule
Purpose: The schedule of a frame. While the display stays on, nothing that the processor or a block
  transfer does between two dots moves the raster, loses a line or fires V-blank twice; all that it
  can change is how long the pixels of the next line take, and that only until its sprites have been
  looked up.
Main exports: LookedUp, pixelDots, OnSchedule, onSchedule
-/
import Handheld.Proofs.Picture.Drawing
import Mathlib.Data.List.Induction

namespace Handheld.Picture

/-- The dots that the pixels of a line take if its sprites are looked up now. -/
def pixelDots (u : Picture) : Nat :=
  baseTransferDots + u.scx.toNat % 8 + spriteDots * u.spritesOnLine.length

/-- `LookedUp before after y`: the dot between `before` and `after` was dot 80 of line `y`, and the
    raster is on that line still. -/
structure LookedUp (before after : List Beat) (y : Nat) : Prop where
  lcdOn : (replay before).lcdOn = true
  position : (replay before).position + 1 = y * dotsPerLine + scanDots
  keepsOn : ∀ beat ∈ after, beat.keepsOn = true
  room : after.count .dot < dotsPerLine - scanDots

/-! ### The length of a line's pixels -/

variable {u : Picture} {y : Nat}

theorem Moves.transferDots_eq {u' : Picture} {signals : List Signal} (h : Moves u u' signals)
    (hmode : u.mode ≠ .oamScan) : u'.transferDots = u.transferDots := by
  cases h with
  | scanned hscan hdot => exact absurd hscan hmode
  | _ => rfl

/-- Sprites are looked up in the first eighty dots of a line and nowhere else. -/
theorem mode_ne_oamScan (hon : u.lcdOn = true) (hu : u.raster.Coherent)
    (hlow : y * dotsPerLine + scanDots ≤ u.position) (hhigh : u.position < (y + 1) * dotsPerLine) :
    u.mode ≠ .oamScan := by
  intro hmode
  have hplaced := hu.placed hon
  simp only [Raster.Placed, raster, hmode] at hplaced
  unfold position at hlow hhigh
  simp only [dotsPerLine, scanDots] at *
  omega

/-- From dot 80 on, the length of the pixels of a line is fixed. -/
theorem transferDots_playAll {beats : List Beat} (hon : u.lcdOn = true) (hu : u.raster.Coherent)
    (hkeep : ∀ beat ∈ beats, beat.keepsOn = true) (hy : y < screenHeight)
    (hlow : y * dotsPerLine + scanDots ≤ u.position)
    (hhigh : u.position + beats.count .dot < (y + 1) * dotsPerLine) :
    (u.playAll beats).transferDots = u.transferDots := by
  induction beats generalizing u with
  | nil => rfl
  | cons beat rest ih =>
      have hfirst := hkeep beat List.mem_cons_self
      have hrest : ∀ beat ∈ rest, beat.keepsOn = true :=
        fun other hmem => hkeep other (List.mem_cons_of_mem _ hmem)
      have hall : u.playAll (beat :: rest) = (u.play beat).1.playAll rest := rfl
      have hon' := lcdOn_play hon hfirst
      have hu' := coherent_play hu beat
      rw [hall]
      by_cases hdot : beat = .dot
      · subst hdot
        rw [List.count_cons_self] at hhigh
        have hmode := mode_ne_oamScan hon hu hlow (by omega)
        have hstay : (u.play .dot).1.transferDots = u.transferDots := by
          rw [play, advance_one hon]
          exact (moves_nextDot hon hu).transferDots_eq hmode
        have hnext : (u.play .dot).1.position = u.position + 1 := by
          rw [play, advance_one hon, position_tick hon hu]
          apply Nat.mod_eq_of_lt
          simp only [cyclesPerFrame, linesPerFrame, dotsPerLine, screenHeight] at *
          omega
        rw [← hstay]
        exact ih hon' hu' hrest (by omega) (by omega)
      · have hposition := position_play hon hfirst hdot
        have hstay : (u.play beat).1.transferDots = u.transferDots :=
          congrArg Raster.transferDots (raster_play hon hfirst hdot)
        rw [List.count_cons_of_ne hdot] at hhigh
        rw [← hstay]
        exact ih hon' hu' hrest (by omega) (by omega)

/-- Dot 80 of a line looks up its sprites. -/
theorem scanned_tick (hon : u.lcdOn = true) (hu : u.raster.Coherent) (hy : y < screenHeight)
    (hposition : u.position + 1 = y * dotsPerLine + scanDots) :
    u.tick.1.transferDots = u.pixelDots := by
  have hplaced := hu.placed hon
  have hmax : u.transferDots ≤ maxTransferDots := hu.le_max
  simp only [Raster.Placed, raster] at hplaced
  unfold position at hposition
  have hmode : u.mode = .oamScan := by
    cases hmode : u.mode with
    | oamScan => rfl
    | _ =>
        exfalso
        simp only [hmode, dotsPerLine, scanDots, screenHeight, linesPerFrame,
          maxTransferDots] at *
        omega
  have hdot : u.dot + 1 = scanDots := by
    simp only [hmode, dotsPerLine, scanDots] at *
    omega
  have hnext : u.nextDot = ({ u with dot := u.dot + 1 }.beginTransfer, []) := by
    unfold nextDot
    simp only [hmode, if_pos hdot]
  have hstat : u.tick.1.transferDots = u.nextDot.1.transferDots := rfl
  rw [hstat, hnext]
  rfl

/-! ### The look-up of a line -/

variable {before after history : List Beat}

theorem replay_append (first second : List Beat) :
    replay (first ++ second) = (replay first).playAll second :=
  playAll_append {} first second

theorem replay_concat (history : List Beat) (beat : Beat) :
    replay (history ++ [beat]) = ((replay history).play beat).1 :=
  playAll_concat {} history beat

/-- What the look-up says about the unit since. -/
theorem LookedUp.replay_eq (h : LookedUp before after y) (hy : y < screenHeight) :
    (replay (before ++ .dot :: after)).lcdOn = true ∧
      (replay (before ++ .dot :: after)).position =
        y * dotsPerLine + scanDots + after.count .dot ∧
      (replay (before ++ .dot :: after)).transferDots = (replay before).pixelDots := by
  obtain ⟨hon, hposition, hkeep, hroom⟩ := h
  have hu := coherent_replay before
  have hnext : ((replay before).play .dot).1.position = y * dotsPerLine + scanDots := by
    rw [play, advance_one hon, position_tick hon hu, hposition]
    apply Nat.mod_eq_of_lt
    simp only [cyclesPerFrame, linesPerFrame, dotsPerLine, scanDots, screenHeight] at *
    omega
  have hon' := lcdOn_play hon (rfl : Beat.dot.keepsOn = true)
  have hu' := coherent_play hu .dot
  have hsplit : replay (before ++ .dot :: after) = ((replay before).play .dot).1.playAll after := by
    rw [replay_append]
    rfl
  obtain ⟨hlit, hmoved⟩ := position_playAll hon' hu' hkeep
  rw [hsplit]
  refine ⟨hlit, ?_, ?_⟩
  · rw [hmoved, hnext]
    apply Nat.mod_eq_of_lt
    simp only [cyclesPerFrame, linesPerFrame, dotsPerLine, scanDots, screenHeight] at *
    omega
  · rw [transferDots_playAll hon' hu' hkeep hy (Nat.le_of_eq hnext.symm)]
    · rw [play, advance_one hon]
      exact scanned_tick hon hu hy hposition
    · rw [hnext]
      simp only [dotsPerLine, scanDots] at *
      omega

/-- A beat that comes upon the unit with the display on, or leaves it at the start of a line. -/
theorem lcdOn_before {beat : Beat} (hon : (u.play beat).1.lcdOn = true) :
    (u.lcdOn = true ∧ beat.keepsOn = true) ∨ (u.play beat).1.dot = 0 := by
  cases beat with
  | dot =>
      left
      refine ⟨?_, rfl⟩
      by_cases hlit : u.lcdOn = true
      · exact hlit
      · rw [play, advance_of_off ((Bool.not_eq_true _).mp hlit)] at hon
        exact hon
  | write register value =>
      by_cases hlcdc : register = .lcdc
      · subst hlcdc
        have hwrite := raster_writeLcdc u value
        split at hwrite
        · next hsame =>
          left
          have hlit : (u.writeLcdc value).1.lcdOn = u.lcdOn := congrArg Raster.lit hwrite
          have hlit' : u.lcdOn = true := hlit.symm.trans hon
          exact ⟨hlit', hsame.symm.trans hlit'⟩
        · right
          exact congrArg Raster.dot hwrite
      · left
        have hlit : (u.write register value).1.lcdOn = u.lcdOn :=
          congrArg Raster.lit (raster_write hlcdc u value)
        refine ⟨hlit.symm.trans hon, ?_⟩
        cases register <;> first | rfl | contradiction
  | writeVram i value =>
      exact .inl ⟨(congrArg Raster.lit (raster_writeVram u i value)).symm.trans hon, rfl⟩
  | writeOam i value =>
      exact .inl ⟨(congrArg Raster.lit (raster_writeOam u i value)).symm.trans hon, rfl⟩
  | transferOam i value => exact .inl ⟨hon, rfl⟩
  | forget => exact .inl ⟨hon, rfl⟩

theorem LookedUp.snoc {beat : Beat} (h : LookedUp before after y) (hkeep : beat.keepsOn = true)
    (hroom : (after ++ [beat]).count .dot < dotsPerLine - scanDots) :
    LookedUp before (after ++ [beat]) y where
  lcdOn := h.lcdOn
  position := h.position
  keepsOn other hmem := by
    rcases List.mem_append.mp hmem with hmem | hmem
    · exact h.keepsOn other hmem
    · rw [List.mem_singleton.mp hmem]
      exact hkeep
  room := hroom

/-- A dot that is not the first of a line has come along that line. -/
theorem Moves.same_line {u' : Picture} {signals : List Signal} (h : Moves u u' signals)
    (hdot : scanDots ≤ u'.dot) : u'.ly = u.ly ∧ u'.dot = u.dot + 1 := by
  cases h with
  | along hscan htransfer hdots => exact ⟨rfl, rfl⟩
  | scanned hmode hdots => exact ⟨rfl, rfl⟩
  | drawn hmode hdots => exact ⟨rfl, rfl⟩
  | _ =>
      have hstart : ¬ scanDots ≤ 0 := by decide
      exact absurd hdot hstart

/-- Behind dot 80 of a line of the screen, that dot is to be found in the history. -/
theorem exists_lookedUp (history : List Beat) (hon : (replay history).lcdOn = true)
    (hy : (replay history).ly.toNat < screenHeight) (hdot : scanDots ≤ (replay history).dot) :
    ∃ before after, history = before ++ .dot :: after ∧
      LookedUp before after (replay history).ly.toNat := by
  induction history using List.reverseRecOn with
  | nil =>
      exfalso
      have hstart : (replay []).dot = 0 := rfl
      rw [hstart] at hdot
      exact absurd hdot (by decide)
  | append_singleton history beat ih =>
      rw [replay_concat] at hon hy hdot ⊢
      have hu := coherent_replay history
      rcases lcdOn_before hon with ⟨hlit, hkeep⟩ | hstart
      · by_cases hbeat : beat = .dot
        · subst hbeat
          rw [play, advance_one hlit] at hy hdot ⊢
          have hmoved : (replay history).tick.1.ly = (replay history).ly ∧
              (replay history).tick.1.dot = (replay history).dot + 1 :=
            (moves_nextDot hlit hu).same_line hdot
          obtain ⟨hline, hdots⟩ := hmoved
          have hlt := dot_lt hlit hu
          rw [hline] at hy ⊢
          rw [hdots] at hdot
          by_cases hfirst : (replay history).dot + 1 = scanDots
          · refine ⟨history, [], rfl, hlit, ?_, ?_, by decide⟩
            · unfold position
              omega
            · intro other hmem
              cases hmem
          · obtain ⟨before, after, hsplit, hlooked⟩ := ih hlit hy (by omega)
            refine ⟨before, after ++ [.dot], by rw [hsplit, List.append_assoc]; rfl, ?_⟩
            obtain ⟨-, hmoved, -⟩ := hlooked.replay_eq hy
            rw [← hsplit] at hmoved
            have hnext := dot_lt (lcdOn_play hlit hkeep) (coherent_play hu .dot)
            rw [play, advance_one hlit, hdots] at hnext
            apply hlooked.snoc hkeep
            rw [List.count_append, List.count_singleton_self]
            unfold position at hmoved
            omega
        · have hraster := raster_play hlit hkeep hbeat
          have hline : ((replay history).play beat).1.ly = (replay history).ly :=
            congrArg Raster.ly hraster
          have hdots : ((replay history).play beat).1.dot = (replay history).dot :=
            congrArg Raster.dot hraster
          rw [hline] at hy ⊢
          rw [hdots] at hdot
          obtain ⟨before, after, hsplit, hlooked⟩ := ih hlit hy hdot
          refine ⟨before, after ++ [beat], by rw [hsplit, List.append_assoc]; rfl, ?_⟩
          apply hlooked.snoc hkeep
          rw [List.count_append, List.count_singleton, if_neg (by simpa using hbeat)]
          exact hlooked.room
      · exfalso
        rw [hstart] at hdot
        exact absurd hdot (by decide)

/-! ### The schedule -/

/-- The next dot draws line `y` exactly if it is the one that the look-up of that line says. -/
theorem draws_iff_lookedUp (hon : (replay history).lcdOn = true) (y : Nat) :
    Draws (replay history) y ↔ y < screenHeight ∧
      ∃ before after, history = before ++ .dot :: after ∧ LookedUp before after y ∧
        (replay (history ++ [.dot])).position =
          y * dotsPerLine + (scanDots + (replay before).pixelDots) := by
  have hu := coherent_replay history
  have hplaced := hu.placed hon
  have hmax : (replay history).transferDots ≤ maxTransferDots := hu.le_max
  simp only [Raster.Placed, raster] at hplaced
  have hnext : (replay (history ++ [.dot])).position =
      ((replay history).position + 1) % cyclesPerFrame := by
    rw [replay_concat, play, advance_one hon, position_tick hon hu]
  rw [draws_iff hon hu, hnext]
  unfold AtLineEnd
  constructor
  · rintro ⟨⟨hmode, hdot⟩, rfl⟩
    simp only [hmode] at hplaced
    obtain ⟨hy, hlow, hhigh⟩ := hplaced
    obtain ⟨before, after, hsplit, hlooked⟩ := exists_lookedUp history hon hy hlow
    obtain ⟨-, -, htransfer⟩ := hlooked.replay_eq hy
    rw [← hsplit] at htransfer
    refine ⟨hy, before, after, hsplit, hlooked, ?_⟩
    rw [← htransfer, ← hdot, Nat.mod_eq_of_lt]
    · exact Nat.add_assoc _ _ _
    · unfold position
      simp only [cyclesPerFrame, linesPerFrame, dotsPerLine, scanDots, screenHeight,
        maxTransferDots] at *
      omega
  · rintro ⟨hy, before, after, hsplit, hlooked, hposition⟩
    obtain ⟨-, hmoved, htransfer⟩ := hlooked.replay_eq hy
    rw [← hsplit] at hmoved htransfer
    have hroom := hlooked.room
    have hwrap : (replay history).position + 1 < cyclesPerFrame := by
      simp only [cyclesPerFrame, linesPerFrame, dotsPerLine, scanDots, screenHeight] at *
      omega
    rw [Nat.mod_eq_of_lt hwrap, ← htransfer] at hposition
    have hdots := dot_lt hon hu
    unfold position at hmoved hposition
    have hline : (replay history).ly.toNat = y := by
      simp only [dotsPerLine, scanDots] at *
      omega
    have hdot : (replay history).dot + 1 = scanDots + (replay history).transferDots := by
      simp only [dotsPerLine, scanDots] at *
      omega
    refine ⟨⟨?_, hdot⟩, hline⟩
    cases hmode : (replay history).mode with
    | transfer => rfl
    | _ =>
        exfalso
        simp only [hmode, dotsPerLine, scanDots, screenHeight] at *
        omega

/-- The schedule of the beats that follow a history. Each statement about a beat is one about every
    beat of them: `past` has come before it. -/
structure OnSchedule (history beats : List Beat) : Prop where
  /-- The raster moves by one position a dot. -/
  position : (replay (history ++ beats)).position =
    ((replay history).position + beats.count .dot) % cyclesPerFrame
  /-- V-blank is requested by the dot that brings the raster to its position. -/
  request : ∀ past beat rest, beats = past ++ beat :: rest →
    (.request .vblank ∈ ((replay (history ++ past)).play beat).2 ↔
      beat = .dot ∧ (replay (history ++ past ++ [beat])).position = vblankPosition)
  /-- The same dot marks the frame as complete, and the mark stays until it is taken. -/
  frameReady : ∀ past beat rest, beats = past ++ beat :: rest →
    ((replay (history ++ past ++ [beat])).frameReady = true ↔
      (replay (history ++ past)).frameReady = true ∧ beat ≠ .forget ∨
        beat = .dot ∧ (replay (history ++ past ++ [beat])).position = vblankPosition)
  /-- A line is drawn so many dots after its start as the look-up of its sprites has said. -/
  draws : ∀ past rest y, beats = past ++ .dot :: rest →
    (Draws (replay (history ++ past)) y ↔ y < screenHeight ∧
      ∃ before after, history ++ past = before ++ .dot :: after ∧ LookedUp before after y ∧
        (replay (history ++ past ++ [.dot])).position =
          y * dotsPerLine + (scanDots + (replay before).pixelDots))
  /-- A look-up finds ten sprites at most. -/
  sprites : ∀ past rest, beats = past ++ rest →
    (replay (history ++ past)).spritesOnLine.length ≤ spritesPerLine
  /-- Every other beat leaves the frame alone. -/
  leaves : ∀ past beat rest, beats = past ++ beat :: rest →
    (beat = .dot ∧ ∃ y, Draws (replay (history ++ past)) y) ∨
      LeavesFrame (replay (history ++ past)) beat
  /-- A pass over the frame draws every line of the screen once, from the top to the bottom. -/
  pass : ∀ past part rest, beats = past ++ part ++ rest →
    (replay (history ++ past)).position = 0 → part.count .dot = cyclesPerFrame →
      Lines (replay (history ++ past)) part (List.range screenHeight)

theorem lcdOn_replay_append {beats : List Beat} (hon : (replay history).lcdOn = true)
    (hkeep : ∀ beat ∈ beats, beat.keepsOn = true) : (replay (history ++ beats)).lcdOn = true := by
  rw [replay_append]
  exact (position_playAll hon (coherent_replay history) hkeep).1

/-- A pass that starts at the top of the frame draws all lines. -/
theorem lines_of_full_pass {part : List Beat} (hon : u.lcdOn = true) (hu : u.raster.Coherent)
    (hkeep : ∀ beat ∈ part, beat.keepsOn = true) (hstart : u.position = 0)
    (hfull : part.count .dot = cyclesPerFrame) : Lines u part (List.range screenHeight) := by
  have hplaced := hu.placed hon
  have hend : u.position + part.count .dot = cyclesPerFrame := by omega
  obtain ⟨k, hlines, hall⟩ := lines_of_pass hon hu hkeep (Nat.le_of_eq hend)
  have hdone : u.linesDone = 0 := by
    simp only [Raster.Placed, raster] at hplaced
    unfold position at hstart
    unfold linesDone
    cases hmode : u.mode with
    | oamScan =>
        simp only [dotsPerLine] at hstart
        dsimp only
        omega
    | _ =>
        exfalso
        simp only [hmode, dotsPerLine, scanDots, screenHeight] at *
        omega
  have hk : k = screenHeight := by
    have hsum := hall hend
    omega
  rw [hdone, hk, ← List.range_eq_range'] at hlines
  exact hlines

/-- Whatever has happened since power-on: while the display is on and is not switched, the picture
    unit keeps to the schedule. -/
theorem onSchedule (history beats : List Beat) (hon : (replay history).lcdOn = true)
    (hkeep : ∀ beat ∈ beats, beat.keepsOn = true) : OnSchedule history beats := by
  have hpast : ∀ past rest, beats = past ++ rest → (replay (history ++ past)).lcdOn = true := by
    rintro past rest rfl
    apply lcdOn_replay_append hon
    intro beat hmem
    exact hkeep beat (List.mem_append_left _ hmem)
  have hbeat : ∀ past beat rest, beats = past ++ beat :: rest → beat.keepsOn = true := by
    rintro past beat rest rfl
    exact hkeep beat (List.mem_append_right _ List.mem_cons_self)
  refine ⟨?position, ?request, ?frameReady, ?draws, ?sprites, ?leaves, ?pass⟩
  case position =>
    rw [replay_append]
    exact (position_playAll hon (coherent_replay history) hkeep).2
  case request =>
    intro past beat rest hsplit
    have hlit := hpast past _ hsplit
    have hu := coherent_replay (history ++ past)
    rw [replay_concat]
    by_cases hdot : beat = .dot
    · subst hdot
      rw [play, advance_one hlit, request_vblank_tick hlit hu]
      exact ⟨fun h => ⟨rfl, h⟩, fun h => h.2⟩
    · constructor
      · intro h
        exact absurd h (request_vblank_not_mem_play hdot _)
      · intro h
        exact absurd h.1 hdot
  case frameReady =>
    intro past beat rest hsplit
    have hlit := hpast past _ hsplit
    have hu := coherent_replay (history ++ past)
    rw [replay_concat]
    by_cases hdot : beat = .dot
    · subst hdot
      rw [play, advance_one hlit, frameReady_tick hlit hu]
      simp
    · have hready := congrArg Raster.frameReady (raster_play hlit (hbeat past beat rest hsplit) hdot)
      have hready' : ((replay (history ++ past)).play beat).1.frameReady =
          ((replay (history ++ past)).frameReady && beat != .forget) := hready
      rw [hready']
      simp [hdot]
  case draws =>
    intro past rest y hsplit
    exact draws_iff_lookedUp (hpast past _ hsplit) y
  case sprites =>
    intro past rest _
    exact length_spritesOnLine _
  case leaves =>
    intro past beat rest hsplit
    have hlit := hpast past _ hsplit
    have hu := coherent_replay (history ++ past)
    by_cases hdot : beat = .dot
    · subst hdot
      by_cases hend : AtLineEnd (replay (history ++ past))
      · exact .inl ⟨rfl, _, draws_of_atLineEnd hlit hu hend⟩
      · exact .inr (leavesFrame_dot hlit hu hend)
    · exact .inr (leavesFrame_of_ne_dot hdot _)
  case pass =>
    intro past part rest hsplit hstart hfull
    have hsplit' : beats = past ++ (part ++ rest) := by
      rw [hsplit, List.append_assoc]
    apply lines_of_full_pass (hpast past _ hsplit') (coherent_replay _) _ hstart hfull
    intro beat hmem
    apply hkeep
    rw [hsplit']
    exact List.mem_append_right _ (List.mem_append_left _ hmem)

/-- A block transfer writes a byte of the sprite table that puts a sprite on the top line, and then
    some dots pass. -/
def spriteThenDots (i : Fin oamSize) (dots : Nat) : List Beat :=
  .transferOam i 16 :: List.replicate dots .dot

section spriteThenDots

variable (i : Fin oamSize)

theorem keepsOn_spriteThenDots (dots : Nat) :
    ∀ beat ∈ spriteThenDots i dots, beat.keepsOn = true := by
  intro beat hmem
  rcases List.mem_cons.mp hmem with rfl | hmem
  · rfl
  · rw [List.eq_of_mem_replicate hmem]
    rfl

theorem spriteThenDots_split {before total : Nat} (h : before < total) : spriteThenDots i total =
    spriteThenDots i before ++ .dot :: List.replicate (total - before - 1) .dot := by
  unfold spriteThenDots
  rw [List.cons_append, ← List.replicate_succ, List.replicate_append_replicate]
  congr 2
  omega

theorem spriteThenDots_succ (dots : Nat) :
    spriteThenDots i (dots + 1) = spriteThenDots i dots ++ [.dot] :=
  congrArg _ List.replicate_succ'

theorem position_spriteThenDots {dots : Nat} (h : dots < cyclesPerFrame) :
    (replay ([.write .scx 3] ++ spriteThenDots i dots)).position = dots := by
  rw [replay_append]
  have hmoved := (position_playAll (u := replay [.write .scx 3]) rfl (coherent_replay _)
    (keepsOn_spriteThenDots i dots)).2
  have hcount : (spriteThenDots i dots).count .dot = dots := by
    unfold spriteThenDots
    rw [List.count_cons_of_ne Beat.noConfusion, List.count_replicate_self]
  have hstart : (replay [.write .scx 3]).position = 0 := rfl
  rw [hmoved, hcount, hstart, Nat.zero_add, Nat.mod_eq_of_lt h]

end spriteThenDots

/-- A scroll by three pixels and a sprite make the pixels of line 0 take 181 dots, so that dot 261
    draws it. The frame is complete 144 lines after its start, and by then every line is drawn. -/
theorem onSchedule_scrolled :
    OnSchedule [.write .scx 3] (spriteThenDots ⟨0, by decide⟩ cyclesPerFrame) ∧
    Draws (replay ([.write .scx 3] ++ spriteThenDots ⟨0, by decide⟩ 260)) 0 ∧
    .request .vblank ∈ ((replay ([.write .scx 3] ++
      spriteThenDots ⟨0, by decide⟩ (vblankPosition - 1))).play .dot).2 ∧
    Lines (replay [.write .scx 3, .transferOam ⟨0, by decide⟩ 16])
      (List.replicate cyclesPerFrame .dot) (List.range screenHeight) := by
  have hframe := onSchedule [.write .scx 3] (spriteThenDots ⟨0, by decide⟩ cyclesPerFrame) rfl
    (keepsOn_spriteThenDots _ _)
  refine ⟨hframe, ?draws, ?request, ?pass⟩
  case draws =>
    apply (hframe.draws _ _ 0 (spriteThenDots_split _ (by decide : 260 < cyclesPerFrame))).mpr
    refine ⟨by decide, [.write .scx 3] ++ spriteThenDots ⟨0, by decide⟩ 79,
      List.replicate 180 .dot, ?split, ?lookedUp, ?drawn⟩
    case split =>
      rw [spriteThenDots_split _ (by decide : 79 < 260), List.append_assoc]
    case lookedUp =>
      refine ⟨lcdOn_replay_append rfl (keepsOn_spriteThenDots _ 79), ?_, ?_, ?_⟩
      · rw [position_spriteThenDots _ (by decide)]
        rfl
      · intro beat hmem
        rw [List.eq_of_mem_replicate hmem]
        rfl
      · rw [List.count_replicate_self]
        decide
    case drawn =>
      have hpixels :
          (replay ([.write .scx 3] ++ spriteThenDots ⟨0, by decide⟩ 79)).pixelDots = 181 := by
        decide +kernel
      rw [hpixels, List.append_assoc, ← spriteThenDots_succ, position_spriteThenDots _ (by decide)]
      rfl
  case request =>
    apply (hframe.request _ _ _
      (spriteThenDots_split _ (by decide : vblankPosition - 1 < cyclesPerFrame))).mpr
    refine ⟨rfl, ?_⟩
    rw [List.append_assoc, ← spriteThenDots_succ, position_spriteThenDots _ (by decide)]
    rfl
  case pass =>
    have hsplit : spriteThenDots ⟨0, by decide⟩ cyclesPerFrame =
        [.transferOam ⟨0, by decide⟩ 16] ++ List.replicate cyclesPerFrame .dot ++ [] := by
      rw [List.append_nil]
      rfl
    exact hframe.pass _ _ _ hsplit rfl List.count_replicate_self

end Handheld.Picture
