/-
Module: Handheld.Proofs.Board.Written
Purpose: What a write does to each unit of the board. A unit is changed by what is written to it and
  by nothing that is written elsewhere, but for two ways across: timer and picture unit request
  interrupts, and a block transfer fills the sprite table. A press reaches the joypad and the
  interrupts alone.
Main exports: Board.startTransfer_eq, Board.written, Board.exists_written, Board.press_units
-/
import Handheld.Proofs.Board.Clock

namespace Handheld

namespace Board

/-! ### The block transfer -/

/-- A block transfer writes the sprite table and nothing else. -/
theorem copyToOam_eq (places : List (Fin Picture.oamSize)) (b : Board) (source : UInt16) :
    ∃ oam, b.copyToOam source places = { b with picture := { b.picture with oam } } := by
  induction places generalizing b with
  | nil => exact ⟨b.picture.oam, rfl⟩
  | cons i rest ih =>
      let value := b.read (source + UInt16.ofNat i.val)
      obtain ⟨oam, hrest⟩ := ih { b with picture := b.picture.transferOam i value }
      exact ⟨oam, hrest⟩

theorem startTransfer_eq (b : Board) (page : UInt8) : ∃ oam, b.startTransfer page =
    { b with transfer := page, picture := { b.picture with oam } } :=
  copyToOam_eq (List.finRange Picture.oamSize) { b with transfer := page } (joinBytes page 0)

/-! ### Unit by unit -/

/-- The units of a board after `value` has been written to what `address` names. A block transfer
    leaves `oam` in the sprite table. -/
def written (b : Board) (address : UInt16) (value : UInt8) (oam : Vector UInt8 Picture.oamSize)
    (target : Target) : Board where
  cartridge :=
    match target with
    | .rom => (b.cartridge.writeRom address value).1
    | .cartridgeRam => b.cartridge.writeRam address value
    | _ => b.cartridge
  wram :=
    match target with
    | .wram i => b.wram.set i value i.isLt
    | _ => b.wram
  hram :=
    match target with
    | .hram i => b.hram.set i value i.isLt
    | _ => b.hram
  picture :=
    match target with
    | .vram i => b.picture.writeVram i value
    | .oam i => b.picture.writeOam i value
    | .transfer => { b.picture with oam }
    | .picture register => (b.picture.write register value).1
    | _ => b.picture
  timer :=
    match target with
    | .timer register => (b.timer.write register value).1
    | _ => b.timer
  interrupts :=
    match target with
    | .timer register => b.interrupts.raise (.onlyIf (b.timer.write register value).2 .timer)
    | .picture register => b.interrupts.raise (Picture.linesOf (b.picture.write register value).2)
    | .requests => b.interrupts.writeRequests value
    | .enable => { b.interrupts with enable := value }
    | _ => b.interrupts
  joypad :=
    match target with
    | .joypad => b.joypad.write value
    | _ => b.joypad
  serial :=
    match target with
    | .serial register => b.serial.write register value
    | _ => b.serial
  sound :=
    match target with
    | .sound i => (b.sound.write i value).1
    | _ => b.sound
  transfer :=
    match target with
    | .transfer => value
    | _ => b.transfer

/-- What a write does to each unit. -/
theorem exists_written (b : Board) (address : UInt16) (value : UInt8) (target : Target) :
    ∃ oam, (b.writeTarget address value target).1 = b.written address value oam target := by
  cases target with
  | timer register => exact ⟨b.picture.oam, requestIf_eq _ _ _⟩
  | picture register => exact ⟨b.picture.oam, followAll_eq _ _⟩
  | transfer =>
      obtain ⟨oam, hcopied⟩ := b.startTransfer_eq value
      refine ⟨oam, ?_⟩
      simp only [writeTarget, hcopied]
      rfl
  | _ => exact ⟨b.picture.oam, rfl⟩

/-- A press changes the joypad, and may request an interrupt. -/
theorem press_units (b : Board) (button : Button) :
    ∃ joypad interrupts, (b.press button).1 = { b with joypad, interrupts } := by
  unfold press
  cases b.joypad.press? button with
  | none => exact ⟨b.joypad, b.interrupts, rfl⟩
  | some pressed => exact ⟨pressed.1, _, requestIf_eq _ pressed.2 .joypad⟩

end Board

end Handheld
