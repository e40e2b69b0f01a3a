/-
Module: Handheld.Board.Basic
Purpose: The board around the processor: the cartridge, the RAMs and the units, what a processor
  reads and writes at each address, and how the units follow the clock.
Main exports: Board, Board.powerOn, Board.reset, Board.read, Board.write, Board.advance, Board.press
-/
import Handheld.Board.RamFill
import Handheld.Board.Target
import Handheld.Cartridge.Basic
import Handheld.Joypad

namespace Handheld

/-- The board. -/
structure Board where
  cartridge : Cartridge
  wram : Vector UInt8 wramSize
  hram : Vector UInt8 hramSize
  picture : Picture := {}
  timer : Timer := {}
  /-- At power-on the request of the picture unit is left from the boot program. -/
  interrupts : InterruptController := { requested := .only .vblank }
  joypad : Joypad := {}
  serial : Serial := {}
  sound : Sound := {}
  /-- The last value written to the block transfer register. -/
  transfer : UInt8 := 0xFF
deriving DecidableEq, Repr

namespace Board

/-- The board as the boot program leaves it, with a cartridge in the slot. -/
def powerOn (cartridge : Cartridge) (fill : RamFill) : Board :=
  let (wram, hram) := fill.bytes wramSize hramSize
  { cartridge, wram, hram }

/-- Switch off and on again. Of the old state only the cartridge's RAM survives. -/
def reset (b : Board) (fill : RamFill) : Board :=
  powerOn b.cartridge.reset fill

/-! ### Signals -/

/-- Request an interrupt. -/
def request (b : Board) (line : Interrupt) : Board :=
  { b with interrupts := b.interrupts.raise (.only line) }

/-- Request an interrupt if one is due. -/
def requestIf (b : Board) (due : Bool) (line : Interrupt) : Board :=
  if due then b.request line else b

/-- Follow a signal of the picture unit: a request goes to the interrupt controller, and all else is
    noted. -/
def follow (b : Board) (signal : Picture.Signal) : Board × List Note :=
  match signal with
  | .request line => (b.request line, [])
  | .enteredVBlank last first =>
    (b, [.vblankEntered last first b.interrupts.readRequests])
  | .statRose line mode => (b, [.statRose line mode b.interrupts.readRequests])
  | .lcdOn => (b, [.lcdOn])
  | .lcdOff line => (b, [.lcdOff line])

/-- Follow signals in order. -/
def followAll (b : Board) : List Picture.Signal → Board × List Note
  | [] => (b, [])
  | signal :: rest =>
    let (b, notes) := b.follow signal
    let (b, more) := b.followAll rest
    (b, notes ++ more)

/-! ### The clock -/

/-- Let clock cycles pass in the timer alone. -/
def advanceTimer (b : Board) (cycles : Nat) : Board :=
  let (timer, due) := b.timer.advance cycles
  requestIf { b with timer } due .timer

/-- Let clock cycles pass in the picture unit alone. -/
def advancePicture (b : Board) (cycles : Nat) : Board × List Note :=
  let (picture, signals) := b.picture.advance cycles
  followAll { b with picture } signals

/-- Let clock cycles pass: first in the timer, then in the picture unit. -/
def advance (b : Board) (cycles : Nat) : Board × List Note :=
  (b.advanceTimer cycles).advancePicture cycles

/-! ### Registers of the units -/

/-- Write a timer register. -/
def writeTimer (b : Board) (register : Timer.Register) (value : UInt8) : Board :=
  let (timer, due) := b.timer.write register value
  requestIf { b with timer } due .timer

/-- Write a register of the picture unit. -/
def writePicture (b : Board) (register : Picture.Register) (value : UInt8) : Board × List Note :=
  let (picture, signals) := b.picture.write register value
  followAll { b with picture } signals

/-- Write a timer register by address; an address of another unit is ignored. -/
def writeTimerAt (b : Board) (address : UInt16) (value : UInt8) : Board :=
  match Timer.Register.ofAddress? address with
  | some register => b.writeTimer register value
  | none => b

/-- Write a register of the picture unit by address; an address of another unit is ignored. -/
def writePictureAt (b : Board) (address : UInt16) (value : UInt8) : Board × List Note :=
  match Picture.Register.ofAddress? address with
  | some register => b.writePicture register value
  | none => (b, [])

/-! ### The memory map -/

/-- Read what an address names. -/
def readTarget (b : Board) (address : UInt16) : Target → UInt8
  | .rom => b.cartridge.readRom address
  | .vram i => b.picture.readVram i
  | .cartridgeRam => b.cartridge.readRam address
  | .wram i => b.wram.get i
  | .oam i => b.picture.readOam i
  | .joypad => b.joypad.read
  | .serial register => b.serial.read register
  | .timer register => b.timer.read register
  | .requests => b.interrupts.readRequests
  | .sound i => b.sound.read i
  | .transfer => b.transfer
  | .picture register => b.picture.read register
  | .hram i => b.hram.get i
  | .enable => b.interrupts.enable
  | .nothing => 0xFF

/-- Read a byte. Reading changes nothing. -/
def read (b : Board) (address : UInt16) : UInt8 :=
  b.readTarget address (.ofAddress address)

/-- Copy bytes from `source` on to the places of the sprite table, one after the other. A copied
    byte is in place when the next one is read. -/
def copyToOam (b : Board) (source : UInt16) : List (Fin Picture.oamSize) → Board
  | [] => b
  | i :: rest =>
    let value := b.read (source + UInt16.ofNat i.val)
    copyToOam { b with picture := b.picture.transferOam i value } source rest

/-- Start a block transfer, which is over at once: the sprite table is filled from the page with the
    given number. -/
def startTransfer (b : Board) (page : UInt8) : Board :=
  copyToOam { b with transfer := page } (joinBytes page 0) (List.finRange Picture.oamSize)

/-- Write what an address names. -/
def writeTarget (b : Board) (address : UInt16) (value : UInt8) : Target → Board × List Note
  | .rom =>
    let (cartridge, notes) := b.cartridge.writeRom address value
    ({ b with cartridge }, notes)
  | .vram i => ({ b with picture := b.picture.writeVram i value }, [])
  | .cartridgeRam => ({ b with cartridge := b.cartridge.writeRam address value }, [])
  | .wram i => ({ b with wram := b.wram.set i value i.isLt }, [])
  | .oam i => ({ b with picture := b.picture.writeOam i value }, [])
  | .joypad => ({ b with joypad := b.joypad.write value }, [])
  | .serial register => ({ b with serial := b.serial.write register value }, [])
  | .timer register => (b.writeTimer register value, [])
  | .requests => ({ b with interrupts := b.interrupts.writeRequests value }, [])
  | .sound i =>
    let (sound, notes) := b.sound.write i value
    ({ b with sound }, notes)
  | .transfer => (b.startTransfer value, [])
  | .picture register => b.writePicture register value
  | .hram i => ({ b with hram := b.hram.set i value i.isLt }, [])
  | .enable => ({ b with interrupts := { b.interrupts with enable := value } }, [])
  | .nothing => (b, [])

/-- Write a byte. -/
def write (b : Board) (address : UInt16) (value : UInt8) : Board × List Note :=
  b.writeTarget address value (.ofAddress address)

/-! ### Buttons -/

/-- Press a button. -/
def press (b : Board) (button : Button) : Board × List Note :=
  match b.joypad.press? button with
  | none => (b, [])
  | some (joypad, due) =>
    (requestIf { b with joypad } due .joypad, [.pressed button joypad.read])

/-- Let a button go. -/
def release (b : Board) (button : Button) : Board :=
  { b with joypad := b.joypad.release button }

/-- Take the request to leave STOP, if there is one. -/
def takeWake (b : Board) : Bool × Board :=
  let (wake, joypad) := b.joypad.takeWake
  (wake, { b with joypad })

end Board

end Handheld
