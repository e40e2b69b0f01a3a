/-
Module: Handheld.Serial
Purpose: The serial unit's data and control registers. There is no link partner, so nothing is ever
  transferred: the registers only hold what is written.
Main exports: Serial, Serial.Register, Serial.read, Serial.write
-/

namespace Handheld

/-- The serial unit. -/
structure Serial where
  data : UInt8 := 0x00
  control : UInt8 := 0x7E
deriving DecidableEq, Repr, Inhabited

namespace Serial

/-- The two registers of the serial unit. -/
inductive Register where
  | data
  | control
deriving DecidableEq, Repr

/-- The register at an address. -/
def Register.ofAddress? (address : UInt16) : Option Register :=
  if address = 0xFF01 then some .data
  else if address = 0xFF02 then some .control
  else none

/-- Read a register; bits 1 to 6 of the control register are unused and read as ones. -/
def read (s : Serial) : Register → UInt8
  | .data => s.data
  | .control => s.control ||| 0x7E

/-- Write a register. -/
def write (s : Serial) (register : Register) (value : UInt8) : Serial :=
  match register with
  | .data => { s with data := value }
  | .control => { s with control := value }

/-- Read by address; an address of another unit reads 0xFF. -/
def readAt (s : Serial) (address : UInt16) : UInt8 :=
  match Register.ofAddress? address with
  | some register => s.read register
  | none => 0xFF

/-- Write by address; an address of another unit is ignored. -/
def writeAt (s : Serial) (address : UInt16) (value : UInt8) : Serial :=
  match Register.ofAddress? address with
  | some register => s.write register value
  | none => s

end Serial

end Handheld
