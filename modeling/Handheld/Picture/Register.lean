/-
Module: Handheld.Picture.Register
Purpose: The registers of the picture unit as the processor reads and writes them.
Main exports: Picture.Register, Picture.Register.ofAddress?, Picture.read, Picture.write
-/
import Handheld.Picture.Raster

namespace Handheld.Picture

/-- The registers of the picture unit. -/
inductive Register where
  | lcdc
  | stat
  | scy
  | scx
  | ly
  | lyc
  | bgp
  | obp0
  | obp1
  | wy
  | wx
deriving DecidableEq, Repr

/-- The register at an address. The address 0xFF46 among them belongs to the block transfer. -/
def Register.ofAddress? (address : UInt16) : Option Register :=
  match address.toNat with
  | 0xFF40 => some .lcdc
  | 0xFF41 => some .stat
  | 0xFF42 => some .scy
  | 0xFF43 => some .scx
  | 0xFF44 => some .ly
  | 0xFF45 => some .lyc
  | 0xFF47 => some .bgp
  | 0xFF48 => some .obp0
  | 0xFF49 => some .obp1
  | 0xFF4A => some .wy
  | 0xFF4B => some .wx
  | _ => none

/-- The status register: its highest bit is always one, and below the selected sources it tells
    whether the line is the one compared with, and the mode. -/
def statByte (u : Picture) : UInt8 :=
  0x80 ||| u.statSelect ||| (if u.ly == u.lyc then 0x04 else 0) ||| u.visibleMode.code

/-- Read a register. -/
def read (u : Picture) : Register → UInt8
  | .lcdc => u.lcdc
  | .stat => u.statByte
  | .scy => u.scy
  | .scx => u.scx
  | .ly => u.ly
  | .lyc => u.lyc
  | .bgp => u.bgp
  | .obp0 => u.obp0
  | .obp1 => u.obp1
  | .wy => u.wy
  | .wx => u.wx

/-- Read by address; an address of another unit reads 0xFF. -/
def readAt (u : Picture) (address : UInt16) : UInt8 :=
  match Register.ofAddress? address with
  | some register => u.read register
  | none => 0xFF

/-- Write LCDC; a change of its highest bit switches the display. -/
def writeLcdc (u : Picture) (value : UInt8) : Picture × List Signal :=
  let was := u.lcdOn
  let u := { u with lcdc := value }
  if was = u.lcdOn then (u, []) else u.setLcd u.lcdOn

/-- Write a register. The line cannot be written, and of the status register only the selection of
    sources. -/
def write (u : Picture) (register : Register) (value : UInt8) : Picture × List Signal :=
  match register with
  | .lcdc => u.writeLcdc value
  | .stat => { u with statSelect := value &&& 0x78 }.updateStat
  | .scy => ({ u with scy := value }, [])
  | .scx => ({ u with scx := value }, [])
  | .ly => (u, [])
  | .lyc => { u with lyc := value }.updateStat
  | .bgp => ({ u with bgp := value }, [])
  | .obp0 => ({ u with obp0 := value }, [])
  | .obp1 => ({ u with obp1 := value }, [])
  | .wy => ({ u with wy := value }, [])
  | .wx => ({ u with wx := value }, [])

end Handheld.Picture
