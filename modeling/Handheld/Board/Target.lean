/-
Module: Handheld.Board.Target
Purpose: The memory map: which cell or register each of the 65536 addresses names.
Main exports: Target, Target.ofAddress
-/
import Handheld.Picture.Register
import Handheld.Serial
import Handheld.Sound
import Handheld.Timer

namespace Handheld

/-- The size of work RAM. -/
def wramSize : Nat := 0x2000

/-- The size of the RAM inside the processor's chip. -/
def hramSize : Nat := 0x7F

/-- What an address names. -/
inductive Target where
  /-- The ROM area of the cartridge. -/
  | rom
  | vram (i : Fin Picture.vramSize)
  /-- The RAM area of the cartridge. -/
  | cartridgeRam
  /-- Work RAM, which can be seen at two places. -/
  | wram (i : Fin wramSize)
  | oam (i : Fin Picture.oamSize)
  | joypad
  | serial (register : Serial.Register)
  | timer (register : Timer.Register)
  /-- The requested interrupts. -/
  | requests
  | sound (i : Fin soundSize)
  /-- The register that starts a block transfer to the sprite table. -/
  | transfer
  | picture (register : Picture.Register)
  | hram (i : Fin hramSize)
  /-- The enabled interrupts. -/
  | enable
  | nothing
deriving DecidableEq, Repr

namespace Target

/-- The register or cell at a place of the last page, 0xFF00 to 0xFFFF. -/
def ofHighPage (address : UInt16) (i : Nat) : Target :=
  if i = 0x00 then .joypad
  else if i = 0x0F then .requests
  else if h : 0x10 ≤ i ∧ i < 0x10 + soundSize then .sound ⟨i - 0x10, by omega⟩
  else if i = 0x46 then .transfer
  else if h : 0x80 ≤ i ∧ i < 0x80 + hramSize then .hram ⟨i - 0x80, by omega⟩
  else if i = 0xFF then .enable
  else
    match Serial.Register.ofAddress? address, Timer.Register.ofAddress? address,
        Picture.Register.ofAddress? address with
    | some register, _, _ => .serial register
    | none, some register, _ => .timer register
    | none, none, some register => .picture register
    | none, none, none => .nothing

/-- What an address names. Of work RAM all but the end is seen a second time from 0xE000 on. -/
def ofAddress (address : UInt16) : Target :=
  let a := address.toNat
  if a < 0x8000 then .rom
  else if a < 0xA000 then .vram ⟨a % Picture.vramSize, Nat.mod_lt _ (by decide)⟩
  else if a < 0xC000 then .cartridgeRam
  else if a < 0xFE00 then .wram ⟨a % wramSize, Nat.mod_lt _ (by decide)⟩
  else if h : a < 0xFE00 + Picture.oamSize then
    .oam ⟨a - 0xFE00, by simp only [Picture.oamSize] at h ⊢; omega⟩
  else if a < 0xFF00 then .nothing
  else ofHighPage address (a - 0xFF00)

end Target

end Handheld
