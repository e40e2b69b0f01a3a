/-
Module: Handheld.Cartridge.Basic
Purpose: A cartridge in its slot: the header, the image, the RAM and the bank controller between
  them and the processor.
Main exports: Cartridge, Cartridge.load, Cartridge.readRom, Cartridge.writeRom, Cartridge.readRam,
  Cartridge.writeRam, Cartridge.reset
-/
import Handheld.Cartridge.Banking
import Handheld.Cartridge.Header

namespace Handheld

open Cartridge in
/-- A cartridge. -/
structure Cartridge where
  header : Header
  rom : Array UInt8
  ram : Array UInt8
  banking : Banking
deriving DecidableEq, Repr

namespace Cartridge

/-- What a byte without memory behind it reads. -/
def openByte : UInt8 := 0xFF

/-- The controller of a kind of cartridge, as at power-on. -/
def bankingFor (kind : UInt8) : Option Banking :=
  if kind = 0x00 ∨ kind = 0x08 ∨ kind = 0x09 then some .plain
  else if 0x01 ≤ kind ∧ kind ≤ 0x03 then some (.mbc1 {})
  else if 0x19 ≤ kind ∧ kind ≤ 0x1E then some (.mbc5 {})
  else none

/-- The size of the RAM that is fitted: without a controller only one bank can be reached. -/
def fittedRam (banking : Banking) (declared : Nat) : Nat :=
  match banking with
  | .plain => min declared ramBankSize
  | _ => declared

/-- Make a cartridge of an image, with its RAM filled by 0xFF. A wrong checksum is noted but does no
    harm. -/
def load (rom : Array UInt8) : Except LoadError Cartridge × List Note :=
  match Header.parse rom with
  | .error e => (.error e, [])
  | .ok header =>
    let warning : List Note :=
      if header.checksumOk then []
      else [.checksumMismatch header.storedChecksum header.computedChecksum]
    match bankingFor header.kind with
    | none => (.error (.unsupported header.kind), warning)
    | some banking =>
      let ram := Array.replicate (fittedRam banking header.ramSize) openByte
      (.ok { header, rom, ram, banking },
        warning ++ [.cartridgeAccepted header.title header.kind rom.size header.ramSize])

/-- Return the controller to its power-on registers. RAM survives. -/
def reset (c : Cartridge) : Cartridge :=
  { c with banking := c.banking.reset }

/-- Read from the ROM area; behind the end of the image there is nothing. -/
def readRom (c : Cartridge) (address : UInt16) : UInt8 :=
  c.rom.getD (c.banking.romOffset c.rom.size address) openByte

/-- Write to the ROM area, which sets the controller and not the image. -/
def writeRom (c : Cartridge) (address : UInt16) (value : UInt8) : Cartridge × List Note :=
  let (banking, notes) := c.banking.write c.rom.size address value
  ({ c with banking }, notes)

/-- Read from the RAM area. -/
def readRam (c : Cartridge) (address : UInt16) : UInt8 :=
  match c.banking.ramOffset? c.ram.size address with
  | some i => c.ram.getD i openByte
  | none => openByte

/-- Write to the RAM area. -/
def writeRam (c : Cartridge) (address : UInt16) (value : UInt8) : Cartridge :=
  match c.banking.ramOffset? c.ram.size address with
  | some i => { c with ram := c.ram.setIfInBounds i value }
  | none => c

/-- A byte written to open RAM is read back. -/
theorem readRam_writeRam_self (c : Cartridge) (address : UInt16) (value : UInt8)
    (h : (c.banking.ramOffset? c.ram.size address).isSome) :
    (c.writeRam address value).readRam address = value := by
  obtain ⟨i, hi⟩ := Option.isSome_iff_exists.mp h
  have hlt := Banking.ramOffset?_lt hi
  simp [writeRam, readRam, hi, hlt]

end Cartridge

end Handheld
