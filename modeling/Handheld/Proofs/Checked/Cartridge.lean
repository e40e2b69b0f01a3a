/-
Module: Handheld.Proofs.Checked.Cartridge
Purpose: Access to a cartridge with every division, every address and every place in the RAM
  checked. The image may have any length and the RAM any size, none included, and the registers of
  the controller any values.
Main exports: Cartridge.readRom?_eq, Cartridge.writeRom?_eq, Cartridge.readRam?_eq,
  Cartridge.writeRam?_eq
-/
import Handheld.Cartridge.Basic
import Handheld.Proofs.Checked.Arithmetic

namespace Handheld.Cartridge

variable {address : UInt16}

/-! ### The image -/

/-- The bank seen at an address of the ROM area: the number of banks must not be zero. -/
def Mbc1.bank? (r : Mbc1) (banks : Nat) (address : UInt16) : Option Nat :=
  let chosen :=
    if address < 0x4000 then if r.advanced then r.high.toNat * 32 else 0
    else r.high.toNat * 32 + r.low.toNat
  Checked.rem chosen banks

/-- The bank seen at an address of the ROM area. -/
def Mbc5.bank? (r : Mbc5) (banks : Nat) (address : UInt16) : Option Nat :=
  if address < 0x4000 then some 0 else Checked.rem r.romBank.toNat banks

/-- The place in an image of `romSize` bytes that is seen at an address. -/
def Banking.romPlace? (b : Banking) (romSize : Nat) (address : UInt16) : Option Nat :=
  let inBank (bank : Nat) : Option Nat := do
    let start ← Checked.mul Checked.indexBits bank romBankSize
    Checked.add Checked.indexBits start (address.toNat % romBankSize)
  match b with
  | .plain => some address.toNat
  | .mbc1 r => do inBank (← r.bank? (bankCount romSize) address)
  | .mbc5 r => do inBank (← r.bank? (bankCount romSize) address)

/-- Write a controller register. Of the registers only the lower bank bits of the MBC1 are noted with
    the bank that they lead to. -/
def Banking.write? (b : Banking) (romSize : Nat) (address : UInt16) (value : UInt8) :
    Option (Banking × List Note) :=
  match b with
  | .mbc1 r =>
    if 0x2000 ≤ address ∧ address < 0x4000 then do
      let low := value &&& 0x1F
      let r := { r with low := if low = 0 then 1 else low }
      let bank ← r.bank? (bankCount romSize) 0x4000
      some (.mbc1 r, [.mbc1Bank bank r.low r.high])
    else some (b.write romSize address value)
  | b => some (b.write romSize address value)

/-- Read from the ROM area. Behind the end of the image nothing is read. -/
def readRom? (c : Cartridge) (address : UInt16) : Option UInt8 := do
  let i ← c.banking.romPlace? c.rom.size address
  some (c.rom.getD i openByte)

/-- Write to the ROM area. -/
def writeRom? (c : Cartridge) (address : UInt16) (value : UInt8) :
    Option (Cartridge × List Note) := do
  let (banking, notes) ← c.banking.write? c.rom.size address value
  some ({ c with banking }, notes)

theorem bankCount_ne_zero (romSize : Nat) : bankCount romSize ≠ 0 :=
  Nat.ne_of_gt (Nat.le_max_right _ _)

theorem Mbc1.bank?_eq (r : Mbc1) (romSize : Nat) (address : UInt16) :
    r.bank? (bankCount romSize) address = some (r.bank (bankCount romSize) address) :=
  Checked.rem_eq (bankCount_ne_zero romSize)

theorem Mbc5.bank?_eq (r : Mbc5) (romSize : Nat) (address : UInt16) :
    r.bank? (bankCount romSize) address = some (r.bank (bankCount romSize) address) := by
  unfold bank? bank
  rw [Checked.rem_eq (bankCount_ne_zero romSize), apply_ite some]

/-- No controller names a bank that makes a place too large for an index. -/
theorem Mbc1.bank_lt (r : Mbc1) (banks : Nat) (address : UInt16) :
    r.bank banks address < 0x10000 := by
  have hhigh := r.high.toNat_lt
  have hlow := r.low.toNat_lt
  refine Nat.lt_of_le_of_lt (Nat.mod_le _ _) ?_
  split
  · split <;> omega
  · omega

theorem Mbc5.bank_lt (r : Mbc5) (banks : Nat) (address : UInt16) :
    r.bank banks address < 0x10000 := by
  unfold bank
  split
  · decide
  · exact Nat.lt_of_le_of_lt (Nat.mod_le _ _) r.romBank.toNat_lt

theorem Banking.romPlace?_eq (b : Banking) (romSize : Nat) (address : UInt16) :
    b.romPlace? romSize address = some (b.romOffset romSize address) := by
  have hwithin : address.toNat % romBankSize < romBankSize := Nat.mod_lt _ (by decide)
  have hbank {bank : Nat} (h : bank < 0x10000) :
      Checked.mul Checked.indexBits bank romBankSize = some (bank * romBankSize) ∧
        Checked.add Checked.indexBits (bank * romBankSize) (address.toNat % romBankSize) =
          some (bank * romBankSize + address.toNat % romBankSize) := by
    unfold romBankSize at hwithin ⊢
    exact ⟨Checked.mul_eq (by rw [Checked.indexBits]; omega),
      Checked.add_eq (by rw [Checked.indexBits]; omega)⟩
  cases b with
  | plain => rfl
  | mbc1 r =>
      obtain ⟨hstart, hplace⟩ := hbank (r.bank_lt (bankCount romSize) address)
      simp only [romPlace?, Mbc1.bank?_eq, Option.bind_eq_bind, Option.bind_some, hstart, hplace]
      rfl
  | mbc5 r =>
      obtain ⟨hstart, hplace⟩ := hbank (r.bank_lt (bankCount romSize) address)
      simp only [romPlace?, Mbc5.bank?_eq, Option.bind_eq_bind, Option.bind_some, hstart, hplace]
      rfl

theorem Banking.write?_eq (b : Banking) (romSize : Nat) (address : UInt16) (value : UInt8) :
    b.write? romSize address value = some (b.write romSize address value) := by
  cases b with
  | plain | mbc5 r => rfl
  | mbc1 r =>
      unfold write?
      dsimp only
      split
      · next hbits =>
        simp only [Mbc1.bank?_eq, Option.bind_eq_bind, Option.bind_some]
        have hopen : ¬ address < 0x2000 := UInt16.not_lt.mpr hbits.1
        unfold write Mbc1.write
        dsimp only
        rw [if_neg hopen, if_pos hbits.2]
      · rfl

theorem readRom?_eq (c : Cartridge) (address : UInt16) :
    c.readRom? address = some (c.readRom address) := by
  simp only [readRom?, Banking.romPlace?_eq, Option.bind_eq_bind, Option.bind_some]
  rfl

theorem writeRom?_eq (c : Cartridge) (address : UInt16) (value : UInt8) :
    c.writeRom? address value = some (c.writeRom address value) := by
  simp only [writeRom?, Banking.write?_eq, Option.bind_eq_bind, Option.bind_some]
  rfl

/-! ### The RAM -/

/-- The place in a RAM of `ramSize` bytes at which a bank shows an address of the area that begins at
    `area`. The size of the RAM must not be zero. -/
def placeInBank? (bank area address ramSize : Nat) : Option Nat := do
  let start ← Checked.mul Checked.indexBits bank ramBankSize
  let within ← Checked.sub address area
  let i ← Checked.add Checked.indexBits start within
  Checked.rem i ramSize

/-- The place in a RAM of `ramSize` bytes that is seen at an address. The inner answer says whether
    there is RAM and it is open. -/
def Banking.ramPlace? (b : Banking) (ramSize : Nat) (address : UInt16) : Option (Option Nat) :=
  if ramSize = 0 then some none
  else
    match b.ramBank? with
    | none => some none
    | some bank => (placeInBank? bank ramStart address.toNat ramSize).map some

/-- Read from the RAM area. -/
def readRam? (c : Cartridge) (address : UInt16) : Option UInt8 := do
  match ← c.banking.ramPlace? c.ram.size address with
  | none => some openByte
  | some i => do
    let i ← Checked.place c.ram.size i
    some c.ram[i]

/-- Write to the RAM area. -/
def writeRam? (c : Cartridge) (address : UInt16) (value : UInt8) : Option Cartridge := do
  match ← c.banking.ramPlace? c.ram.size address with
  | none => some c
  | some i => do
    let i ← Checked.place c.ram.size i
    some { c with ram := c.ram.set i value }

theorem Banking.ramBank_lt {b : Banking} {bank : Nat} (h : b.ramBank? = some bank) : bank < 256 := by
  unfold ramBank? at h
  split at h
  · cases h
    decide
  · next r =>
    split at h
    · cases h
      unfold Mbc1.ramBank
      split
      · exact r.high.toNat_lt
      · decide
    · cases h
  · next r =>
    split at h
    · cases h
      exact r.ramBank.toNat_lt
    · cases h

theorem placeInBank?_eq {bank area address ramSize : Nat} (hbank : bank < 256)
    (harea : area ≤ address) (haddress : address < 0x10000) (hsize : ramSize ≠ 0) :
    placeInBank? bank area address ramSize =
      some ((bank * ramBankSize + (address - area)) % ramSize) := by
  have hstart : Checked.mul Checked.indexBits bank ramBankSize = some (bank * ramBankSize) :=
    Checked.mul_eq (by rw [Checked.indexBits, ramBankSize]; omega)
  have hplace : Checked.add Checked.indexBits (bank * ramBankSize) (address - area) =
      some (bank * ramBankSize + (address - area)) :=
    Checked.add_eq (by rw [Checked.indexBits, ramBankSize]; omega)
  simp only [placeInBank?, hstart, Checked.sub_eq harea, hplace, Checked.rem_eq hsize,
    Option.bind_eq_bind, Option.bind_some]

theorem Banking.ramPlace?_eq (b : Banking) (ramSize : Nat) (harea : ramStart ≤ address.toNat) :
    b.ramPlace? ramSize address = some (b.ramOffset? ramSize address) := by
  unfold ramPlace? ramOffset?
  split
  · rfl
  · next hsize =>
    cases hbank : b.ramBank? with
    | none => rfl
    | some bank =>
        dsimp only
        rw [placeInBank?_eq (ramBank_lt hbank) harea address.toNat_lt hsize, Option.map_some,
          Option.map_some]

theorem readRam?_eq (c : Cartridge) (harea : ramStart ≤ address.toNat) :
    c.readRam? address = some (c.readRam address) := by
  unfold readRam? readRam
  rw [Banking.ramPlace?_eq c.banking c.ram.size harea]
  cases hplace : c.banking.ramOffset? c.ram.size address with
  | none => rfl
  | some i =>
      have hlt := Banking.ramOffset?_lt hplace
      simp only [Option.bind_eq_bind, Option.bind_some, Checked.place_eq hlt]
      simp [Array.getD, hlt]

theorem writeRam?_eq (c : Cartridge) (value : UInt8) (harea : ramStart ≤ address.toNat) :
    c.writeRam? address value = some (c.writeRam address value) := by
  unfold writeRam? writeRam
  rw [Banking.ramPlace?_eq c.banking c.ram.size harea]
  cases hplace : c.banking.ramOffset? c.ram.size address with
  | none => rfl
  | some i =>
      have hlt := Banking.ramOffset?_lt hplace
      simp only [Option.bind_eq_bind, Option.bind_some, Checked.place_eq hlt,
        Array.setIfInBounds_def, dif_pos hlt]

end Handheld.Cartridge
