/-
Module: Handheld.Cartridge.Banking
Purpose: Bank controllers. A controller is a few registers, written through the ROM area, that
  decide which part of the image and of the RAM the processor sees.
Main exports: Mbc1, Mbc5, Banking, Banking.romOffset, Banking.ramOffset?, Banking.write
-/
import Handheld.Note
import Handheld.Word

namespace Handheld.Cartridge

/-- The size of a ROM bank. -/
def romBankSize : Nat := 0x4000

/-- The size of a RAM bank. -/
def ramBankSize : Nat := 0x2000

/-- The first address of cartridge RAM. -/
def ramStart : Nat := 0xA000

/-- The value whose low nibble opens cartridge RAM; any other closes it. -/
def opensRam (value : UInt8) : Bool :=
  value &&& 0x0F == 0x0A

/-- The number of whole ROM banks, of which there is always one to show. -/
def bankCount (romSize : Nat) : Nat :=
  max (romSize / romBankSize) 1

/-- The registers of the MBC1 controller. -/
structure Mbc1 where
  /-- Five bits of the bank at 0x4000, never zero. -/
  low : UInt8 := 1
  /-- Two more bits, which in advanced mode also choose the RAM bank and the bank at 0x0000. -/
  high : UInt8 := 0
  ramOpen : Bool := false
  advanced : Bool := false
deriving DecidableEq, Repr

/-- The registers of the MBC5 controller. -/
structure Mbc5 where
  /-- The lower eight bits of the bank at 0x4000. -/
  low : UInt8 := 1
  /-- Its ninth bit. -/
  high : UInt8 := 0
  ramBank : UInt8 := 0
  ramOpen : Bool := false
deriving DecidableEq, Repr

/-- The controller of a cartridge with its registers. -/
inductive Banking where
  /-- No controller: the image is seen as it is, and RAM is always open. -/
  | plain
  | mbc1 (regs : Mbc1)
  | mbc5 (regs : Mbc5)
deriving DecidableEq, Repr

namespace Mbc1

/-- The bank seen at an address of the ROM area. -/
def bank (r : Mbc1) (banks : Nat) (address : UInt16) : Nat :=
  let chosen :=
    if address < 0x4000 then if r.advanced then r.high.toNat * 32 else 0
    else r.high.toNat * 32 + r.low.toNat
  chosen % banks

/-- The RAM bank in use. -/
def ramBank (r : Mbc1) : Nat :=
  if r.advanced then r.high.toNat else 0

/-- Write a register: RAM, low bits, high bits and mode have 0x2000 addresses each. -/
def write (r : Mbc1) (banks : Nat) (address : UInt16) (value : UInt8) : Mbc1 × List Note :=
  if address < 0x2000 then ({ r with ramOpen := opensRam value }, [])
  else if address < 0x4000 then
    let low := value &&& 0x1F
    let r := { r with low := if low = 0 then 1 else low }
    (r, [.mbc1Bank (r.bank banks 0x4000) r.low r.high])
  else if address < 0x6000 then ({ r with high := value &&& 0x03 }, [])
  else if address < 0x8000 then ({ r with advanced := value &&& 0x01 != 0 }, [])
  else (r, [])

end Mbc1

namespace Mbc5

/-- The number of the bank at 0x4000, whether the image has it or not. -/
def romBank (r : Mbc5) : UInt16 :=
  joinBytes r.high r.low

/-- The bank seen at an address of the ROM area. -/
def bank (r : Mbc5) (banks : Nat) (address : UInt16) : Nat :=
  if address < 0x4000 then 0 else r.romBank.toNat % banks

/-- Write a register: the low byte of the ROM bank and its ninth bit have separate addresses, and
    the RAM bank is four bits wide. -/
def write (r : Mbc5) (address : UInt16) (value : UInt8) : Mbc5 × List Note :=
  if address < 0x2000 then ({ r with ramOpen := opensRam value }, [])
  else if address < 0x3000 then
    let r := { r with low := value }
    (r, [.mbc5Bank r.romBank])
  else if address < 0x4000 then
    let r := { r with high := value &&& 0x01 }
    (r, [.mbc5Bank r.romBank])
  else if address < 0x6000 then ({ r with ramBank := value &&& 0x0F }, [])
  else (r, [])

end Mbc5

namespace Banking

/-- The same controller with its registers as at power-on. -/
def reset : Banking → Banking
  | .plain => .plain
  | .mbc1 _ => .mbc1 {}
  | .mbc5 _ => .mbc5 {}

/-- The place in an image of `romSize` bytes that is seen at an address. -/
def romOffset (b : Banking) (romSize : Nat) (address : UInt16) : Nat :=
  let within := address.toNat % romBankSize
  match b with
  | .plain => address.toNat
  | .mbc1 r => r.bank (bankCount romSize) address * romBankSize + within
  | .mbc5 r => r.bank (bankCount romSize) address * romBankSize + within

/-- The RAM bank in use, unless RAM is closed. -/
def ramBank? : Banking → Option Nat
  | .plain => some 0
  | .mbc1 r => if r.ramOpen then some r.ramBank else none
  | .mbc5 r => if r.ramOpen then some r.ramBank.toNat else none

/-- The place in a RAM of `ramSize` bytes that is seen at an address, if there is RAM and it is
    open. Banks behind the end of the RAM wrap around. -/
def ramOffset? (b : Banking) (ramSize : Nat) (address : UInt16) : Option Nat :=
  if ramSize = 0 then none
  else b.ramBank?.map fun bank => (bank * ramBankSize + (address.toNat - ramStart)) % ramSize

/-- Write a controller register. -/
def write (b : Banking) (romSize : Nat) (address : UInt16) (value : UInt8) : Banking × List Note :=
  match b with
  | .plain => (.plain, [])
  | .mbc1 r =>
    let (r, notes) := r.write (bankCount romSize) address value
    (.mbc1 r, notes)
  | .mbc5 r =>
    let (r, notes) := r.write address value
    (.mbc5 r, notes)

/-- A place in RAM is inside it. -/
theorem ramOffset?_lt {b : Banking} {ramSize : Nat} {address : UInt16} {i : Nat}
    (h : b.ramOffset? ramSize address = some i) : i < ramSize := by
  unfold ramOffset? at h
  split at h
  · cases h
  · next hsize =>
    obtain ⟨bank, _, rfl⟩ := Option.map_eq_some_iff.mp h
    exact Nat.mod_lt _ (Nat.pos_of_ne_zero hsize)

end Banking

end Handheld.Cartridge
