/-
Module: Handheld.Proofs.Picture.Pace
Purpose: How long it is until the next frame is complete if the display is left as it is. Cycles
  take it down one by one, and the frame is complete when it is over. Only switching the display
  starts it anew.
Main exports: untilFrame, frameCycles, advance_eq_playAll, position_advance, advance_add, pace_advance
-/
import Handheld.Proofs.Picture.Beat

namespace Handheld.Picture

/-- The cycles from the switching of the display to the first complete frame. -/
def frameCycles (on : Bool) : Nat :=
  if on then vblankPosition else cyclesPerFrame

/-- The cycles until the next frame is complete: with the display on, until V-blank, and with the
    display off, until a frame's worth of cycles has passed. -/
def untilFrame (u : Picture) : Nat :=
  if u.lcdOn then
    if u.position < vblankPosition then vblankPosition - u.position
    else vblankPosition + cyclesPerFrame - u.position
  else cyclesPerFrame - u.offCycles

variable {u u' : Picture}

theorem untilFrame_congr (h : u'.raster = u.raster) : u'.untilFrame = u.untilFrame := by
  have hlit : u'.lcdOn = u.lcdOn := congrArg Raster.lit h
  have hly : u'.ly = u.ly := congrArg Raster.ly h
  have hdot : u'.dot = u.dot := congrArg Raster.dot h
  have hoff : u'.offCycles = u.offCycles := congrArg Raster.offCycles h
  unfold untilFrame position
  rw [hlit, hly, hdot, hoff]

/-- Switching the display starts the count anew. -/
theorem untilFrame_of_switch {on : Bool} (h : u'.raster = u.raster.switch on) :
    u'.untilFrame = frameCycles on := by
  have hlit : u'.lcdOn = on := congrArg Raster.lit h
  have hly : u'.ly = 0 := congrArg Raster.ly h
  have hdot : u'.dot = 0 := congrArg Raster.dot h
  have hoff : u'.offCycles = 0 := congrArg Raster.offCycles h
  have hstart : u'.position = 0 := by
    have hzero : (0 : UInt8).toNat = 0 := rfl
    unfold position
    rw [hly, hdot, hzero, Nat.zero_mul]
  have hbefore : 0 < vblankPosition := by decide
  unfold untilFrame frameCycles
  rw [hlit, hstart, hoff, if_pos hbefore]
  rfl

theorem untilFrame_pos (hu : u.raster.Coherent) : 0 < u.untilFrame := by
  have hoff : u.offCycles < cyclesPerFrame := hu.offCycles_lt
  unfold untilFrame
  cases hon : u.lcdOn with
  | true =>
      have hlt := position_lt hon hu
      rw [if_pos rfl]
      by_cases hbefore : u.position < vblankPosition
      · rw [if_pos hbefore]
        omega
      · rw [if_neg hbefore]
        omega
  | false =>
      rw [if_neg Bool.false_ne_true]
      omega

/-! ### Single cycles -/

theorem lcdOn_dot (u : Picture) : (u.play .dot).1.lcdOn = u.lcdOn := by
  cases hon : u.lcdOn with
  | true => rw [play, advance_one hon, lcdOn_tick, hon]
  | false =>
      rw [play, advance_of_off hon]
      exact hon

theorem untilFrame_tick (hon : u.lcdOn = true) (hu : u.raster.Coherent) :
    (u.tick.1.position = vblankPosition ↔ u.untilFrame = 1) ∧
      (u.untilFrame ≠ 1 → u.tick.1.untilFrame + 1 = u.untilFrame) := by
  have hlt := position_lt hon hu
  have hlit : u.tick.1.lcdOn = true := (lcdOn_tick u).trans hon
  have hnext := position_tick hon hu
  have hvblank : vblankPosition = 65664 := rfl
  have hcycles : cyclesPerFrame = 70224 := rfl
  unfold untilFrame
  rw [hlit, hon, hnext, if_pos rfl, if_pos rfl]
  by_cases hbefore : u.position < vblankPosition
  · rw [if_pos hbefore, Nat.mod_eq_of_lt (by omega)]
    constructor
    · omega
    · intro hne
      rw [if_pos (by omega)]
      omega
  · rw [if_neg hbefore]
    by_cases hlast : u.position + 1 = cyclesPerFrame
    · have hstart : 0 < vblankPosition := by omega
      rw [hlast, Nat.mod_self, if_pos hstart]
      omega
    · rw [Nat.mod_eq_of_lt (by omega), if_neg (by omega)]
      omega

theorem untilFrame_idle (hoff : u.lcdOn = false) (hu : u.raster.Coherent) :
    ((u.idle 1).frameReady = true ↔ u.frameReady = true ∨ u.untilFrame = 1) ∧
      (u.untilFrame ≠ 1 → (u.idle 1).untilFrame + 1 = u.untilFrame) := by
  have hlt : u.offCycles < cyclesPerFrame := hu.offCycles_lt
  have hlit : (u.idle 1).lcdOn = false := hoff
  unfold untilFrame
  rw [hlit, hoff, if_neg Bool.false_ne_true, if_neg Bool.false_ne_true]
  simp only [idle, Bool.or_eq_true, decide_eq_true_eq]
  constructor
  · apply or_congr_right
    omega
  · intro hne
    rw [Nat.mod_eq_of_lt (by omega)]
    omega

/-- One cycle. The frame is complete if it was the last one, and else one cycle less is left. -/
theorem pace_dot (hu : u.raster.Coherent) :
    ((u.play .dot).1.frameReady = true ↔ u.frameReady = true ∨ u.untilFrame = 1) ∧
      (u.untilFrame ≠ 1 → (u.play .dot).1.untilFrame + 1 = u.untilFrame) := by
  cases hon : u.lcdOn with
  | true =>
      obtain ⟨hlast, hless⟩ := untilFrame_tick hon hu
      rw [play, advance_one hon, frameReady_tick hon hu, hlast]
      exact ⟨Iff.rfl, hless⟩
  | false =>
      rw [play, advance_of_off hon]
      exact untilFrame_idle hon hu

/-! ### Any number of cycles -/

theorem ticksFrom_eq_playAll (dots : Nat) (hon : u.lcdOn = true) (latestFirst : List Signal) :
    (ticksFrom dots u latestFirst).1 = u.playAll (List.replicate dots .dot) := by
  induction dots generalizing u latestFirst with
  | zero => rfl
  | succ dots ih =>
      have hplay : u.play .dot = u.tick := advance_one hon
      have hall : u.playAll (List.replicate (dots + 1) .dot) =
          u.tick.1.playAll (List.replicate dots .dot) := by
        rw [List.replicate_succ, ← hplay]
        rfl
      rw [hall]
      exact ih ((lcdOn_tick u).trans hon) _

/-- With the display off, cycles in two parts are the same as all at once. -/
theorem idle_idle (u : Picture) (first second : Nat) :
    (u.idle first).idle second = u.idle (first + second) := by
  have hready : (u.frameReady || decide (cyclesPerFrame ≤ u.offCycles + first) ||
        decide (cyclesPerFrame ≤ (u.offCycles + first) % cyclesPerFrame + second)) =
      (u.frameReady || decide (cyclesPerFrame ≤ u.offCycles + (first + second))) := by
    rw [Bool.or_assoc, ← Bool.decide_or]
    congr 2
    rw [eq_iff_iff]
    by_cases hpassed : cyclesPerFrame ≤ u.offCycles + first
    · omega
    · rw [Nat.mod_eq_of_lt (by omega)]
      omega
  simp only [idle, Nat.mod_add_mod, Nat.add_assoc]
  rw [← hready]
  rfl

theorem idle_eq_playAll (cycles : Nat) (hoff : u.lcdOn = false) (hu : u.raster.Coherent) :
    u.idle cycles = u.playAll (List.replicate cycles .dot) := by
  induction cycles generalizing u with
  | zero =>
      have hlt : u.offCycles < cyclesPerFrame := hu.offCycles_lt
      have hready : (u.frameReady || decide (cyclesPerFrame ≤ u.offCycles)) = u.frameReady := by
        rw [decide_eq_false (by omega), Bool.or_false]
      simp only [idle, Nat.add_zero, Nat.mod_eq_of_lt hlt, hready]
      rfl
  | succ cycles ih =>
      have hplay : (u.play .dot).1 = u.idle 1 := by
        rw [play, advance_of_off hoff]
      have hu' : (u.idle 1).raster.Coherent := hplay ▸ coherent_play hu .dot
      calc u.idle (cycles + 1)
        _ = (u.idle 1).idle cycles := by rw [idle_idle, Nat.add_comm]
        _ = (u.idle 1).playAll (List.replicate cycles .dot) := ih hoff hu'
        _ = u.playAll (List.replicate (cycles + 1) .dot) := by
          rw [← hplay, List.replicate_succ]
          rfl

/-- Many cycles at once are as many single ones. -/
theorem advance_eq_playAll (hu : u.raster.Coherent) (cycles : Nat) :
    (u.advance cycles).1 = u.playAll (List.replicate cycles .dot) := by
  cases hon : u.lcdOn with
  | true =>
      unfold advance
      rw [if_pos hon]
      exact ticksFrom_eq_playAll cycles hon []
  | false =>
      rw [advance_of_off hon]
      exact idle_eq_playAll cycles hon hu

/-- With the display on the raster goes on with every cycle. -/
theorem position_advance (hon : u.lcdOn = true) (hu : u.raster.Coherent) (cycles : Nat) :
    (u.advance cycles).1.lcdOn = true ∧
      (u.advance cycles).1.position = (u.position + cycles) % cyclesPerFrame := by
  have hkeep : ∀ beat ∈ List.replicate cycles Beat.dot, beat.keepsOn = true := by
    intro beat hbeat
    rw [List.eq_of_mem_replicate hbeat]
    rfl
  have hcount : (List.replicate cycles Beat.dot).count .dot = cycles := List.count_replicate_self
  have hall := position_playAll hon hu hkeep
  rw [hcount] at hall
  rw [advance_eq_playAll hu]
  exact hall

theorem ticksFrom_add (first second : Nat) (u : Picture) (latestFirst : List Signal) :
    ticksFrom (first + second) u latestFirst =
      ticksFrom second (ticksFrom first u latestFirst).1 (ticksFrom first u latestFirst).2 := by
  induction first generalizing u latestFirst with
  | zero => rw [Nat.zero_add, ticksFrom]
  | succ first ih =>
      rw [Nat.add_right_comm]
      exact ih _ _

theorem ticksFrom_append (dots : Nat) (u : Picture) (latestFirst earlier : List Signal) :
    ticksFrom dots u (latestFirst ++ earlier) =
      ((ticksFrom dots u latestFirst).1, (ticksFrom dots u latestFirst).2 ++ earlier) := by
  induction dots generalizing u latestFirst with
  | zero => rfl
  | succ dots ih =>
      unfold ticksFrom
      dsimp only
      rw [List.reverseAux_eq, ← List.append_assoc, ← List.reverseAux_eq]
      exact ih _ _

theorem lcdOn_ticksFrom (dots : Nat) (u : Picture) (latestFirst : List Signal) :
    (ticksFrom dots u latestFirst).1.lcdOn = u.lcdOn := by
  induction dots generalizing u latestFirst with
  | zero => rfl
  | succ dots ih => exact (ih _ _).trans (lcdOn_tick u)

/-- Cycles in two parts are the same as all at once, and the signals come in the same order. -/
theorem advance_add (u : Picture) (first second : Nat) :
    u.advance (first + second) = (((u.advance first).1.advance second).1,
      (u.advance first).2 ++ ((u.advance first).1.advance second).2) := by
  cases hon : u.lcdOn with
  | true =>
      have hon' : (ticksFrom first u []).1.lcdOn = true := (lcdOn_ticksFrom first u []).trans hon
      have hlater := ticksFrom_append second (ticksFrom first u []).1 [] (ticksFrom first u []).2
      rw [List.nil_append] at hlater
      unfold advance
      rw [if_pos hon, if_pos hon]
      dsimp only
      rw [if_pos hon', ticksFrom_add, hlater]
      dsimp only
      rw [List.reverse_append]
  | false =>
      have hoff : (u.idle first).lcdOn = false := hon
      rw [advance_of_off hon, advance_of_off hon, advance_of_off hoff, idle_idle]
      rfl

/-- Cycles in which the frame is not completed take as many off what is left, and the frame is
    completed once they are as many as what is left. -/
theorem pace_advance (hu : u.raster.Coherent) (cycles : Nat) :
    (u.advance cycles).1.lcdOn = u.lcdOn ∧
      ((u.advance cycles).1.frameReady = true ↔ u.frameReady = true ∨ u.untilFrame ≤ cycles) ∧
      (cycles < u.untilFrame → (u.advance cycles).1.untilFrame + cycles = u.untilFrame) := by
  rw [advance_eq_playAll hu]
  induction cycles generalizing u with
  | zero =>
      have hpos := untilFrame_pos hu
      refine ⟨rfl, ⟨.inl, fun h => h.resolve_right (by omega)⟩, fun _ => rfl⟩
  | succ cycles ih =>
      obtain ⟨hready, hless⟩ := pace_dot hu
      obtain ⟨hlit, hready', hless'⟩ := ih (coherent_play hu .dot)
      have hall : u.playAll (List.replicate (cycles + 1) .dot) =
          (u.play .dot).1.playAll (List.replicate cycles .dot) := by
        rw [List.replicate_succ]
        rfl
      rw [hall]
      refine ⟨hlit.trans (lcdOn_dot u), ?_, ?_⟩
      · rw [hready', hready, or_assoc]
        apply or_congr_right
        by_cases hlast : u.untilFrame = 1
        · omega
        · have hmore := hless hlast
          omega
      · intro hlt
        have hmore := hless (by omega)
        have hrest := hless' (by omega)
        omega

end Handheld.Picture
