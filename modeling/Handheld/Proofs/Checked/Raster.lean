/-
Module: Handheld.Proofs.Checked.Raster
Purpose: The course of the raster with its counters checked in their widths, and with the drawing of
  lines checked. From every state that can come about, dots pass without exceeding a bound as long as
  no line is drawn with a sprite upside down that does not stand on it, and they do exceed one when
  such a line is drawn.
Main exports: Picture.advance?, Picture.DrawsAstray, Picture.tick?_eq,
  Picture.spritesOn_advance, Picture.advance?_of_straight, Picture.advance?_of_astray
-/
import Handheld.Proofs.Checked.Line
import Handheld.Proofs.Picture.Completion
import Handheld.Proofs.Picture.Pace

namespace Handheld.Picture

/-- The end of the look-up. The sprites of the line are counted with the dots that they take. -/
def beginTransfer? (u : Picture) : Option Picture := do
  let lineSprites ← u.spritesOnLine?
  let scrolled ← Checked.add 32 baseTransferDots (u.scx.toNat % 8)
  let more ← Checked.mul 32 spriteDots lineSprites.length
  let transferDots ← Checked.add 32 scrolled more
  some { u with lineSprites, transferDots, mode := .transfer }

/-- Go to the next line. On the way to V-blank the number of the last line is told from the new
    one. -/
def nextLine? (u : Picture) : Option (Picture × List Signal) := do
  let line ← Checked.add 8 u.ly.toNat 1
  let ly := UInt8.ofNat line
  if line = screenHeight then
    let last ← Checked.sub line 1
    let edge : List Signal :=
      if u.statSelect &&& 0x20 != 0 && !u.statLine then [.request .lcdStat] else []
    let signals := .request .vblank :: edge ++ [.enteredVBlank (UInt8.ofNat last) ly]
    some ({ u with ly, mode := .vblank, frameReady := true }, signals)
  else if line = linesPerFrame then
    some ({ u with ly := 0, windowLine := 0, mode := .oamScan }, [])
  else if line < screenHeight then some ({ u with ly, mode := .oamScan }, [])
  else some ({ u with ly }, [])

/-- Go to the next dot. -/
def nextDot? (u : Picture) : Option (Picture × List Signal) := do
  let dot ← Checked.add 32 u.dot 1
  match u.mode with
  | .oamScan =>
    if dot = scanDots then
      let u ← beginTransfer? { u with dot }
      some (u, [])
    else some ({ u with dot }, [])
  | .transfer =>
    let last ← Checked.add 32 scanDots u.transferDots
    if dot = last then
      let u ← renderLine? { u with dot }
      some ({ u with mode := .hblank }, [])
    else some ({ u with dot }, [])
  | .hblank | .vblank =>
    if dot = dotsPerLine then nextLine? { u with dot := 0 } else some ({ u with dot }, [])

/-- Let one dot pass while the display is on. -/
def tick? (u : Picture) : Option (Picture × List Signal) := do
  let (u, moved) ← u.nextDot?
  let (u, rose) := u.updateStat
  some (u, moved ++ rose)

/-- Let dots pass after some whose signals are given with the latest first. -/
def ticksFrom? : (dots : Nat) → Picture → (latestFirst : List Signal) →
    Option (Picture × List Signal)
  | 0, u, latestFirst => some (u, latestFirst)
  | dots + 1, u, latestFirst => do
    let (u, signals) ← u.tick?
    ticksFrom? dots u (signals.reverseAux latestFirst)

/-- Let clock cycles pass. With the display off they are counted. -/
def advance? (u : Picture) (cycles : Nat) : Option (Picture × List Signal) :=
  if u.lcdOn then do
    let (u, latestFirst) ← ticksFrom? cycles u []
    some (u, latestFirst.reverse)
  else do
    let _ ← Checked.add 32 u.offCycles cycles
    some (u.idle cycles, [])

/-- The next dot draws a line with a sprite upside down that does not stand on it. -/
def DrawsAstray (u : Picture) : Prop :=
  u.lcdOn = true ∧ AtLineEnd u ∧ u.showsAstray = true

instance (u : Picture) : Decidable u.DrawsAstray :=
  inferInstanceAs (Decidable (_ ∧ _))

variable {u : Picture}

/-! ### One dot -/

theorem beginTransfer?_eq (u : Picture) : u.beginTransfer? = some u.beginTransfer := by
  have hfew := u.length_spritesOnLine
  have hten : spritesPerLine = 10 := rfl
  have hbase : baseTransferDots = 172 := rfl
  have hsix : spriteDots = 6 := rfl
  have hscrolled : Checked.add 32 baseTransferDots (u.scx.toNat % 8) =
      some (baseTransferDots + u.scx.toNat % 8) :=
    Checked.add_eq (by omega)
  have hmore : Checked.mul 32 spriteDots u.spritesOnLine.length =
      some (spriteDots * u.spritesOnLine.length) :=
    Checked.mul_eq (by rw [hsix]; omega)
  have hsum : Checked.add 32 (baseTransferDots + u.scx.toNat % 8)
      (spriteDots * u.spritesOnLine.length) =
        some (baseTransferDots + u.scx.toNat % 8 + spriteDots * u.spritesOnLine.length) :=
    Checked.add_eq (by rw [hsix]; omega)
  simp only [beginTransfer?, spritesOnLine?_eq, hscrolled, hmore, hsum, Option.bind_eq_bind,
    Option.bind_some]
  rfl

theorem nextLine?_eq (hline : u.ly.toNat < linesPerFrame) : u.nextLine? = some u.nextLine := by
  have hlines : linesPerFrame = 154 := rfl
  have hnext : Checked.add 8 u.ly.toNat 1 = some (u.ly.toNat + 1) :=
    Checked.add_eq (by omega)
  have hvalue : UInt8.ofNat (u.ly.toNat + 1) = u.ly + 1 := by
    rw [UInt8.ofNat_add, UInt8.ofNat_toNat]
    rfl
  unfold nextLine? nextLine enterVBlank
  simp only [hnext, hvalue, toNat_add_one hline, Checked.sub_eq (Nat.le_add_left 1 u.ly.toNat),
    Nat.add_sub_cancel, UInt8.ofNat_toNat, Option.bind_eq_bind, Option.bind_some,
    apply_ite some]

/-- A dot exceeds no bound unless it draws a line with a sprite astray. -/
theorem nextDot?_eq (hon : u.lcdOn = true) (hu : u.raster.Coherent)
    (hfew : u.lineSprites.length ≤ spritesPerLine) :
    u.nextDot? = if u.DrawsAstray then none else some u.nextDot := by
  have hdot := dot_lt hon hu
  have hplaced := hu.placed hon
  have hline := hplaced.line_lt
  have hmax : u.transferDots ≤ maxTransferDots := hu.le_max
  have hnumbers : dotsPerLine = 456 ∧ scanDots = 80 ∧ maxTransferDots = 239 := ⟨rfl, rfl, rfl⟩
  have hnext : Checked.add 32 u.dot 1 = some (u.dot + 1) := Checked.add_eq (by omega)
  have hlast : Checked.add 32 scanDots u.transferDots = some (scanDots + u.transferDots) :=
    Checked.add_eq (by omega)
  have helsewhere (hmode : u.mode ≠ .transfer) : ¬ u.DrawsAstray := fun h => hmode h.2.1.1
  simp only [Raster.Placed, raster] at hplaced
  unfold nextDot? nextDot
  rw [hnext, Option.bind_eq_bind, Option.bind_some]
  cases hmode : u.mode with
  | oamScan =>
      rw [if_neg (helsewhere (by rw [hmode]; decide))]
      simp only [beginTransfer?_eq, Option.bind_eq_bind, Option.bind_some, apply_ite some]
  | transfer =>
      rw [hmode] at hplaced
      dsimp only
      rw [hlast, Option.bind_eq_bind, Option.bind_some]
      by_cases hend : u.dot + 1 = scanDots + u.transferDots
      · have hrendered := renderLine?_eq (u := { u with mode := .transfer, dot := u.dot + 1 })
          hplaced.1 hfew
        have hshows : showsAstray { u with mode := .transfer, dot := u.dot + 1 } = u.showsAstray := rfl
        rw [if_pos hend, if_pos hend, hrendered, hshows]
        by_cases hastray : u.showsAstray = true
        · have hdraws : u.DrawsAstray := ⟨hon, ⟨hmode, hend⟩, hastray⟩
          rw [if_pos hastray, if_pos hdraws]
          rfl
        · have hnot : ¬ u.DrawsAstray := fun h => hastray h.2.2
          rw [if_neg hastray, if_neg hnot]
          rfl
      · have hnot : ¬ u.DrawsAstray := fun h => hend h.2.1.2
        rw [if_neg hend, if_neg hend, if_neg hnot]
  | hblank | vblank =>
      rw [if_neg (helsewhere (by rw [hmode]; decide))]
      have hended (mode : Mode) :
          nextLine? { u with mode, dot := 0 } = some (nextLine { u with mode, dot := 0 }) :=
        nextLine?_eq hline
      simp only [hended, apply_ite some]

theorem tick?_eq (hon : u.lcdOn = true) (hu : u.raster.Coherent)
    (hfew : u.lineSprites.length ≤ spritesPerLine) :
    u.tick? = if u.DrawsAstray then none else some u.tick := by
  unfold tick?
  rw [nextDot?_eq hon hu hfew]
  split <;> rfl

/-! ### Dots one after the other -/

/-- A dot at the beginning. -/
theorem advance_succ (hon : u.lcdOn = true) (hu : u.raster.Coherent) (k : Nat) :
    (u.advance (k + 1)).1 = (u.tick.1.advance k).1 := by
  have hplay : (u.play .dot).1 = u.tick.1 := by rw [play, advance_one hon]
  rw [advance_eq_playAll hu, List.replicate_succ, advance_eq_playAll (coherent_tick hon hu), ← hplay]
  rfl

theorem advance_zero (hu : u.raster.Coherent) : (u.advance 0).1 = u :=
  advance_eq_playAll hu 0

theorem reachable_tick (hon : u.lcdOn = true) (h : Reachable u) : Reachable u.tick.1 :=
  advance_one hon ▸ h.advance 1

/-- The processor alone switches the sprites on and off. -/
theorem spritesOn_advance (h : Reachable u) (k : Nat) :
    (u.advance k).1.spritesOn = u.spritesOn := by
  cases hon : u.lcdOn with
  | false =>
      rw [advance_of_off hon]
      rfl
  | true =>
      induction k generalizing u with
      | zero => rw [advance_zero h.coherent]
      | succ k ih =>
          have htick : u.tick.1.spritesOn = u.spritesOn := by
            have hmoves := moves_nextDot hon h.coherent
            have hstat : u.tick.1.spritesOn = u.nextDot.1.spritesOn := rfl
            rw [hstat]
            generalize u.nextDot.1 = u', u.nextDot.2 = signals at hmoves
            cases hmoves <;> rfl
          rw [advance_succ hon h.coherent, ih (reachable_tick hon h) ((lcdOn_tick u).trans hon), htick]

theorem ticksFrom?_of_straight {dots : Nat} (hon : u.lcdOn = true) (h : Reachable u)
    (hstraight : ∀ k < dots, ¬ (u.advance k).1.DrawsAstray) (latestFirst : List Signal) :
    ticksFrom? dots u latestFirst = some (ticksFrom dots u latestFirst) := by
  induction dots generalizing u latestFirst with
  | zero => rfl
  | succ dots ih =>
      have hfirst : ¬ u.DrawsAstray := by
        have hzero := hstraight 0 (Nat.succ_pos dots)
        rwa [advance_zero h.coherent] at hzero
      unfold ticksFrom? ticksFrom
      rw [tick?_eq hon h.coherent (lookUpResult_of_reachable h).length_le, if_neg hfirst]
      apply ih ((lcdOn_tick u).trans hon) (reachable_tick hon h)
      intro k hk
      rw [← advance_succ hon h.coherent]
      exact hstraight (k + 1) (Nat.succ_lt_succ hk)

theorem ticksFrom?_of_astray {dots k : Nat} (hon : u.lcdOn = true) (h : Reachable u) (hk : k < dots)
    (hastray : (u.advance k).1.DrawsAstray) (latestFirst : List Signal) :
    ticksFrom? dots u latestFirst = none := by
  induction dots generalizing u k latestFirst with
  | zero => exact absurd hk (Nat.not_lt_zero k)
  | succ dots ih =>
      unfold ticksFrom?
      rw [tick?_eq hon h.coherent (lookUpResult_of_reachable h).length_le]
      split
      · rfl
      · next hfirst =>
        cases k with
        | zero =>
            rw [advance_zero h.coherent] at hastray
            exact absurd hastray hfirst
        | succ k =>
            rw [advance_succ hon h.coherent] at hastray
            exact ih ((lcdOn_tick u).trans hon) (reachable_tick hon h) (Nat.lt_of_succ_lt_succ hk)
              hastray _

/-- The cycles of a step pass without exceeding a bound if no line is drawn with a sprite astray. -/
theorem advance?_of_straight {cycles : Nat} (h : Reachable u) (hshort : cycles < 2 ^ 16)
    (hstraight : ∀ k < cycles, ¬ (u.advance k).1.DrawsAstray) :
    u.advance? cycles = some (u.advance cycles) := by
  unfold advance? advance
  cases hon : u.lcdOn with
  | true =>
      rw [if_pos rfl, if_pos rfl, ticksFrom?_of_straight hon h hstraight]
      rfl
  | false =>
      have hframe : cyclesPerFrame < 2 ^ 17 := by decide
      have hcycles : u.offCycles < cyclesPerFrame := h.coherent.offCycles_lt
      have htotal : Checked.add 32 u.offCycles cycles = some (u.offCycles + cycles) :=
        Checked.add_eq (by omega)
      simp only [Bool.false_eq_true, if_false, htotal, Option.bind_eq_bind, Option.bind_some]

/-- They exceed one when such a line is drawn. -/
theorem advance?_of_astray {cycles k : Nat} (h : Reachable u) (hk : k < cycles)
    (hastray : (u.advance k).1.DrawsAstray) : u.advance? cycles = none := by
  have hon : u.lcdOn = true := by
    by_contra hoff
    have hdark := hastray.1
    rw [advance_of_off ((Bool.not_eq_true _).mp hoff)] at hdark
    exact hoff hdark
  unfold advance?
  rw [if_pos hon, ticksFrom?_of_astray hon h hk hastray]
  rfl

end Handheld.Picture
