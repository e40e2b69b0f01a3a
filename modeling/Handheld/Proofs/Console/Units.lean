/-
Module: Handheld.Proofs.Console.Units
Purpose: The picture unit inside the console. Whatever is done to the board is to this unit a reset
  or some beats, so everything that holds of the reachable units holds of the unit of every console.
Main exports: Board.beats, Board.picture_act, Board.reachable_act, Board.reachable_actAll,
  Console.Reachable.picture
-/
import Handheld.Proofs.Console.Chronicle
import Handheld.Proofs.Picture.Status

namespace Handheld

namespace Board

open Picture (Beat)

variable {b : Board}

/-! ### From acts to beats -/

/-- The beats of a block transfer. -/
def copyBeats (b : Board) (source : UInt16) : List (Fin Picture.oamSize) → List Beat
  | [] => []
  | i :: rest =>
    let value := b.read (source + UInt16.ofNat i.val)
    .transferOam i value ::
      copyBeats { b with picture := b.picture.transferOam i value } source rest

/-- The beats of a write. -/
def writeBeats (b : Board) (value : UInt8) : Target → List Beat
  | .vram i => [.writeVram i value]
  | .oam i => [.writeOam i value]
  | .transfer =>
    { b with transfer := value }.copyBeats (joinBytes value 0) (List.finRange Picture.oamSize)
  | .picture register => [.write register value]
  | _ => []

/-- What an act does to the picture unit. A reset, which replaces the unit, has no beats. -/
def beats (b : Board) : Act → List Beat
  | .write address value => b.writeBeats value (.ofAddress address)
  | .picture cycles => List.replicate cycles .dot
  | .forgetFrame => [.forget]
  | _ => []

theorem picture_copyToOam (b : Board) (source : UInt16) (places : List (Fin Picture.oamSize)) :
    (b.copyToOam source places).picture = b.picture.playAll (b.copyBeats source places) := by
  induction places generalizing b with
  | nil => rfl
  | cons i rest ih => exact ih _

theorem picture_writeTarget (b : Board) (address : UInt16) (value : UInt8) (target : Target) :
    (b.writeTarget address value target).1.picture =
      b.picture.playAll (b.writeBeats value target) := by
  obtain ⟨oam, hunits⟩ := b.exists_written address value target
  cases target with
  | transfer => exact picture_copyToOam { b with transfer := value } _ _
  | _ =>
      rw [hunits]
      rfl

/-- All that an act other than a reset does to the picture unit are its beats. -/
theorem picture_act (hu : b.picture.raster.Coherent) {act : Act}
    (hreset : ∀ fill, act ≠ .reset fill) :
    (b.act act).picture = b.picture.playAll (b.beats act) := by
  cases act with
  | write address value => exact b.picture_writeTarget address value _
  | timer cycles =>
      rw [Board.act, advanceTimer_eq]
      rfl
  | picture cycles =>
      rw [Board.act, advancePicture_eq]
      exact Picture.advance_eq_playAll hu cycles
  | press button =>
      obtain ⟨joypad, interrupts, hpressed⟩ := b.press_units button
      rw [Board.act, hpressed]
      rfl
  | reset fill => exact absurd rfl (hreset fill)
  | _ => rfl

/-! ### Reachable units -/

theorem reachable_powerOn (cartridge : Cartridge) (fill : RamFill) :
    (powerOn cartridge fill).picture.Reachable := by
  rw [Console.picture_powerOn]
  exact .powerOn

theorem reachable_act (h : b.picture.Reachable) (act : Act) : (b.act act).picture.Reachable := by
  by_cases hreset : ∃ fill, act = .reset fill
  · obtain ⟨fill, rfl⟩ := hreset
    exact reachable_powerOn b.cartridge.reset fill
  · rw [picture_act h.coherent fun fill heq => hreset ⟨fill, heq⟩]
    exact h.playAll _

theorem reachable_actAll (h : b.picture.Reachable) (acts : List Act) :
    (b.actAll acts).picture.Reachable := by
  induction acts generalizing b with
  | nil => exact h
  | cons act rest ih => exact ih (reachable_act h act)

end Board

namespace Console

theorem picture_start {rom : Array UInt8} {settings : Settings} {c : Console} {notes : List Note}
    (h : powerOn rom settings = (.ok c, notes)) : c.board.picture.Reachable := by
  unfold powerOn at h
  split at h
  · cases h
  · cases h
    exact Board.reachable_powerOn _ _

/-- The picture unit of every console that can come about is one that can come about by itself. -/
theorem Reachable.picture {c : Console} (h : c.Reachable) : c.board.picture.Reachable := by
  rcases h.exists_events with ⟨events, rom, settings, start, notes, hstart, rfl⟩
  rw [board_performAll]
  exact Board.reachable_actAll (picture_start hstart) _

end Console

end Handheld
