/-
Module: Handheld.Sound
Purpose: The register file of the sound unit. No sound is made: the registers hold what is written,
  under the rule that only the wave table can be written while the unit is off.
Main exports: Sound, Sound.Role, Sound.read, Sound.write
-/
import Handheld.Note

namespace Handheld

/-- The number of sound registers, from 0xFF10 to 0xFF3F. -/
def soundSize : Nat := 0x30

/-- The registers as the boot program leaves them; the wave table is empty. -/
def soundAtBoot : Vector UInt8 soundSize :=
  #v[0x80, 0xBF, 0xF3, 0xFF, 0xBF, 0x00, 0x3F, 0x00, 0xFF, 0xBF, 0x7F, 0xFF, 0x9F, 0xFF, 0xBF, 0x00,
    0xFF, 0x00, 0x00, 0xBF, 0x77, 0xF3, 0xF1, 0x00, 0x00, 0x00, 0x00, 0x00, 0x00, 0x00, 0x00, 0x00,
    0x00, 0x00, 0x00, 0x00, 0x00, 0x00, 0x00, 0x00, 0x00, 0x00, 0x00, 0x00, 0x00, 0x00, 0x00, 0x00]

/-- The sound unit. -/
structure Sound where
  regs : Vector UInt8 soundSize := soundAtBoot
deriving DecidableEq, Repr

namespace Sound

/-- What kind of register stands at a place. -/
inductive Role where
  /-- There is no register. -/
  | absent
  /-- A channel or mixer register, which follows the power switch. -/
  | gated
  /-- The power switch. -/
  | power
  /-- A byte of the wave table. -/
  | wave
deriving DecidableEq, Repr

/-- The role of the register at a place. -/
def roleOf (i : Fin soundSize) : Role :=
  if i.val = 0x05 ∨ i.val = 0x0F then .absent
  else if i.val < 0x16 then .gated
  else if i.val = 0x16 then .power
  else if i.val < 0x20 then .absent
  else .wave

/-- The place of the power switch. -/
def powerIndex : Fin soundSize := ⟨0x16, by decide⟩

/-- The stored byte of the power switch: bit 7 says whether the unit is on, and the lower bits are
    the state of the channels. -/
def powerByte (s : Sound) : UInt8 :=
  s.regs[powerIndex]

/-- Whether the unit is on. -/
def powered (s : Sound) : Bool :=
  s.powerByte &&& 0x80 != 0

/-- Replace a register. -/
def put (s : Sound) (i : Fin soundSize) (value : UInt8) : Sound :=
  ⟨s.regs.set i value⟩

/-- Clear every register up to and including the power switch. -/
def clear (s : Sound) : Sound :=
  ⟨Vector.ofFn fun i => if i.val ≤ powerIndex.val then 0 else s.regs[i]⟩

/-- Read a register; the unused bits of the power switch read as ones. -/
def read (s : Sound) (i : Fin soundSize) : UInt8 :=
  match roleOf i with
  | .absent => 0xFF
  | .power => s.powerByte ||| 0x70
  | .gated | .wave => s.regs[i]

/-- Throw the power switch. Switching off clears the registers and the state of the channels. -/
def writePower (s : Sound) (value : UInt8) : Sound × List Note :=
  let off := s.powered && value &&& 0x80 == 0
  let s := if off then s.clear else s
  (s.put powerIndex (s.powerByte &&& 0x7F ||| value &&& 0x80), if off then [.soundOff] else [])

/-- Write a register. -/
def write (s : Sound) (i : Fin soundSize) (value : UInt8) : Sound × List Note :=
  match roleOf i with
  | .absent => (s, [])
  | .power => s.writePower value
  | .wave => (s.put i value, [])
  | .gated => (if s.powered then s.put i value else s, [])

end Sound

end Handheld
