/-
Module: Handheld.Proofs.Cartridge.MotorBit
Purpose: Cartridges with a motor, whose program turns it with bit 3 of the RAM bank number. The
  controller takes the bit as part of the number all the same, so it does no harm only as long as
  banks that are eight apart are the same, that is with all sizes of RAM but the largest.
Main exports: SameButMotor, Mbc5.SameButMotor, Cartridge.Alike, Cartridge.Alike.meet,
  Board.alike_actAll, Cartridge.motorBit_ignored_iff
-/
import Handheld.Proofs.Cartridge.RamCells

namespace Handheld

open Board (Act)

namespace Cartridge

/-! ### Differences in the motor bit -/

/-- Two bytes that differ at most in bit 3. -/
def SameBits (value value' : UInt8) : Prop :=
  value' &&& 0xF7 = value &&& 0xF7

/-- Two acts that differ at most in bit 3 of a RAM bank number that is written. -/
inductive SameButMotor : Act → Act → Prop where
  | same (act : Act) : SameButMotor act act
  | bank {address : UInt16} (low : 0x4000 ≤ address.toNat) (high : address.toNat < 0x6000)
      {value value' : UInt8} (h : SameBits value value') :
      SameButMotor (.write address value) (.write address value')

/-- Registers that agree but for the motor bit. -/
structure Mbc5.SameButMotor (r r' : Mbc5) : Prop where
  low : r'.low = r.low
  high : r'.high = r.high
  ramOpen : r'.ramOpen = r.ramOpen
  ramBank : r'.ramBank.toNat % 8 = r.ramBank.toNat % 8

/-- Bytes that differ at most in bit 3 choose banks that agree modulo eight. -/
theorem SameBits.ramBank {value value' : UInt8} (h : SameBits value value') :
    (value' &&& 0x0F).toNat % 8 = (value &&& 0x0F).toNat % 8 := by
  have hlow (byte : UInt8) : (byte &&& 0x0F).toNat % 8 = (byte &&& 0xF7 &&& 0x07).toNat := by
    calc (byte &&& 0x0F).toNat % 8
      _ = byte.toNat % 16 % 8 := congrArg (· % 8) (toNat_and_mask byte 0x0F (n := 4) rfl)
      _ = byte.toNat % 8 := Nat.mod_mod_of_dvd _ (by decide)
      _ = (byte &&& 0x07).toNat := (toNat_and_mask byte 0x07 (n := 3) rfl).symm
      _ = (byte &&& 0xF7 &&& 0x07).toNat := by
          rw [UInt8.and_assoc]
          rfl
  rw [hlow, hlow, h]

namespace Mbc5.SameButMotor

variable {r r' : Mbc5} (h : r.SameButMotor r')
include h

theorem write (address : UInt16) (value : UInt8) :
    (r.write address value).1.SameButMotor (r'.write address value).1 := by
  obtain ⟨hlow, hhigh, hopen, hbank⟩ := h
  unfold Mbc5.write
  split
  · exact ⟨hlow, hhigh, rfl, hbank⟩
  split
  · exact ⟨rfl, hhigh, hopen, hbank⟩
  split
  · exact ⟨hlow, rfl, hopen, hbank⟩
  split
  · exact ⟨hlow, hhigh, hopen, rfl⟩
  · exact ⟨hlow, hhigh, hopen, hbank⟩

theorem write_bank {address : UInt16} (low : 0x4000 ≤ address.toNat) (high : address.toNat < 0x6000)
    {value value' : UInt8} (hbits : SameBits value value') :
    (r.write address value).1.SameButMotor (r'.write address value').1 := by
  have hwrite (regs : Mbc5) (byte : UInt8) :
      (regs.write address byte).1 = { regs with ramBank := byte &&& 0x0F } := by
    unfold Mbc5.write
    simp only [UInt16.lt_iff_toNat_lt, UInt16.reduceToNat]
    rw [if_neg (by omega), if_neg (by omega), if_neg (by omega), if_pos high]
  rw [hwrite, hwrite]
  exact ⟨h.low, h.high, h.ramOpen, hbits.ramBank⟩

/-- Both show the same place of the image. -/
theorem romOffset (romSize : Nat) (address : UInt16) :
    (Banking.mbc5 r').romOffset romSize address = (Banking.mbc5 r).romOffset romSize address := by
  have hbank : r'.romBank = r.romBank := by
    unfold Mbc5.romBank
    rw [h.low, h.high]
  simp only [Banking.romOffset, Mbc5.bank, hbank]

/-- Both show the same place of a RAM of eight banks or fewer. -/
theorem ramPlace {size : Nat} (hsize : size ∣ 0x10000) (address : UInt16) :
    (Banking.mbc5 r').ramPlace size address = (Banking.mbc5 r).ramPlace size address := by
  have hbanks : r'.ramBank.toNat * 0x2000 ≡ r.ramBank.toNat * 0x2000 [MOD 8 * 0x2000] :=
    Nat.ModEq.mul_right' 0x2000 h.ramBank
  exact Nat.ModEq.add_right _ (hbanks.of_dvd hsize)

end Mbc5.SameButMotor

/-! ### Two runs -/

/-- Two cartridges with RAM of eight banks or fewer that agree but for the motor bit. -/
structure Alike (c c' : Cartridge) : Prop where
  rom : c'.rom = c.rom
  ram : c'.ram = c.ram
  registers : ∃ r r', c.banking = .mbc5 r ∧ c'.banking = .mbc5 r' ∧ r.SameButMotor r'
  banks : c.ram.size ≠ 0 → c.ram.size ∣ 0x10000

namespace Alike

variable {c c' : Cartridge} (h : Alike c c')
include h

theorem readRom (address : UInt16) : c'.readRom address = c.readRom address := by
  obtain ⟨r, r', hr, hr', hsame⟩ := h.registers
  unfold Cartridge.readRom
  rw [h.rom, hr, hr', hsame.romOffset]

theorem ramClosed_iff : c'.RamClosed ↔ c.RamClosed := by
  obtain ⟨r, r', hr, hr', hsame⟩ := h.registers
  have henabled : c'.banking.ramEnabled = c.banking.ramEnabled := by
    rw [hr, hr']
    exact hsame.ramOpen
  unfold RamClosed
  rw [h.ram, henabled]

theorem ramPlace (hopen : ¬ c.RamClosed) (address : UInt16) :
    c'.banking.ramPlace c.ram.size address = c.banking.ramPlace c.ram.size address := by
  obtain ⟨r, r', hr, hr', hsame⟩ := h.registers
  rw [hr, hr', hsame.ramPlace (h.banks (not_ramClosed_iff.mp hopen).1)]

theorem readRam (address : UInt16) : c'.readRam address = c.readRam address := by
  rw [readRam_eq, readRam_eq, h.ram]
  by_cases hclosed : c.RamClosed
  · rw [if_pos hclosed, if_pos (h.ramClosed_iff.mpr hclosed)]
  · rw [if_neg hclosed, if_neg (h.ramClosed_iff.not.mpr hclosed), h.ramPlace hclosed]

theorem writeRam (address : UInt16) (value : UInt8) :
    Alike (c.writeRam address value) (c'.writeRam address value) := by
  refine ⟨?rom, ?ram, ?registers, ?banks⟩
  case rom => rw [rom_writeRam, rom_writeRam, h.rom]
  case ram =>
    rw [writeRam_eq, writeRam_eq, h.ram]
    by_cases hclosed : c.RamClosed
    · rw [if_pos hclosed, if_pos (h.ramClosed_iff.mpr hclosed)]
      exact h.ram
    · rw [if_neg hclosed, if_neg (h.ramClosed_iff.not.mpr hclosed), h.ramPlace hclosed]
  case registers =>
    rw [banking_writeRam, banking_writeRam]
    exact h.registers
  case banks =>
    rw [size_ram_writeRam]
    exact h.banks

/-- New registers that agree but for the motor bit. -/
theorem writeRom {address : UInt16} {value value' : UInt8}
    (hwrite : ∀ {r r' : Mbc5}, r.SameButMotor r' →
      (r.write address value).1.SameButMotor (r'.write address value').1) :
    Alike (c.writeRom address value).1 (c'.writeRom address value').1 := by
  obtain ⟨r, r', hr, hr', hsame⟩ := h.registers
  refine ⟨h.rom, h.ram, ⟨(r.write address value).1, (r'.write address value').1, ?_, ?_,
    hwrite hsame⟩, h.banks⟩
  · rw [banking_writeRom, hr]
    rfl
  · rw [banking_writeRom, hr']
    rfl

theorem reset : Alike c.reset c'.reset := by
  obtain ⟨r, r', hr, hr', -⟩ := h.registers
  refine ⟨h.rom, h.ram, ⟨{}, {}, ?_, ?_, ⟨rfl, rfl, rfl, rfl⟩⟩, h.banks⟩
  · exact congrArg Banking.reset hr
  · exact congrArg Banking.reset hr'

/-- One act in each of the two runs. -/
theorem meet {act act' : Act} (hacts : Cartridge.SameButMotor act act') :
    Alike (c.meet act) (c'.meet act') := by
  cases hacts with
  | bank low high hbits =>
      unfold Cartridge.meet
      dsimp only
      rw [if_pos (by omega), if_pos (by omega)]
      exact h.writeRom fun hsame => hsame.write_bank low high hbits
  | same act =>
      cases act with
      | write address value =>
          unfold Cartridge.meet
          dsimp only
          split
          · exact h.writeRom fun hsame => hsame.write address value
          split
          · exact h.writeRam address value
          · exact h
      | reset fill => exact h.reset
      | _ => exact h

end Alike

end Cartridge

namespace Board

open Cartridge (SameButMotor Alike)

/-- All the acts of two runs. -/
theorem alike_actAll {acts acts' : List Act} (hacts : List.Forall₂ SameButMotor acts acts')
    {b b' : Board} (h : Alike b.cartridge b'.cartridge) :
    Alike (b.actAll acts).cartridge (b'.actAll acts').cartridge := by
  induction hacts generalizing b b' with
  | nil => exact h
  | cons hfirst hrest ih =>
      apply ih
      rw [cartridge_act, cartridge_act]
      exact h.meet hfirst

end Board

namespace Cartridge

variable {rom : Array UInt8} {c : Cartridge} {notes : List Note}

theorem LoadedFrom.ramSizeCode (h : c.LoadedFrom rom) : c.header.ramSizeCode = rom.getD 0x149 0 := by
  obtain ⟨-, hheader⟩ := Header.parse_eq_ok_iff.mp h.header
  exact congrArg Header.ramSizeCode hheader.symm

/-- All sizes of RAM but the largest are whole parts of eight banks, if there is RAM. -/
theorem ramSize_dvd {header : Header} (h : header.ramSizeCode ≠ 0x04) :
    header.ramSize ≠ 0 → header.ramSize ∣ 0x10000 := by
  unfold Header.ramSize
  split
  case h_4 hcode => exact absurd (UInt8.toNat_inj.mp hcode) h
  all_goals decide

/-- The kinds of cartridge with a motor. -/
def HasMotor (kind : UInt8) : Prop :=
  0x1C ≤ kind.toNat ∧ kind.toNat ≤ 0x1E

theorem bankingFor_of_hasMotor {kind : UInt8} (h : HasMotor kind) :
    bankingFor kind = some (.mbc5 {}) :=
  bankingFor_mbc5 ⟨Nat.le_trans (by decide) h.1, h.2⟩

theorem LoadedFrom.banking_of_hasMotor (h : c.LoadedFrom rom) (hkind : HasMotor (rom.getD 0x147 0)) :
    c.banking = .mbc5 {} :=
  h.banking_eq (bankingFor_of_hasMotor hkind)

theorem LoadedFrom.size_ram (h : c.LoadedFrom rom) (hkind : HasMotor (rom.getD 0x147 0)) :
    c.ram.size = c.header.ramSize := by
  rw [h.ram, h.banking_of_hasMotor hkind]
  exact Array.size_replicate

/-- A new cartridge with RAM of eight banks or fewer agrees with itself. -/
theorem LoadedFrom.alike (h : c.LoadedFrom rom) (hkind : HasMotor (rom.getD 0x147 0))
    (hcode : rom.getD 0x149 0 ≠ 0x04) : Alike c c := by
  have hregs := h.banking_of_hasMotor hkind
  refine ⟨rfl, rfl, ⟨{}, {}, hregs, hregs, ⟨rfl, rfl, rfl, rfl⟩⟩, ?_⟩
  rw [h.size_ram hkind]
  apply ramSize_dvd
  rw [h.ramSizeCode]
  exact hcode

/-! ### The largest RAM -/

/-- RAM is opened, a byte is stored in its first bank, and a bank is chosen. -/
def storeThenChoose (bank : UInt8) : List Act :=
  [.write 0x0000 0x0A, .write 0x4000 0x00, .write 0xA000 0x42, .write 0x4000 bank]

theorem sameButMotor_storeThenChoose {bank bank' : UInt8} (h : SameBits bank bank') :
    List.Forall₂ SameButMotor (storeThenChoose bank) (storeThenChoose bank') := by
  refine .cons (.same _) (.cons (.same _) (.cons (.same _) (.cons ?_ .nil)))
  exact .bank (by decide) (by decide) h

section Places

variable (bank : UInt8)

/-- The largest RAM has sixteen banks, each with a place of its own. -/
theorem placeAfter_storeThenChoose :
    (Banking.mbc5 {}).placeAfter 0x20000 (storeThenChoose bank).reverse 0xA000 =
      bank.toNat % 16 * 0x2000 := by
  have hbank : (Banking.mbc5 {}).ramBankAfter (storeThenChoose bank).reverse = bank.toNat % 16 := rfl
  have hfirst : (0xA000 : UInt16).toNat = 0xA000 := rfl
  unfold Banking.placeAfter
  rw [hbank]
  omega

/-- The byte is stored at the first place and at no other. -/
theorem lastStored_storeThenChoose :
    (Banking.mbc5 {}).lastStored 0x20000 (bank.toNat % 16 * 0x2000) (storeThenChoose bank).reverse =
      if bank.toNat % 16 = 0 then some 0x42 else none := by
  have harea : 0xA000 ≤ (0xA000 : UInt16).toNat ∧ (0xA000 : UInt16).toNat < 0xC000 := by decide
  have hopen : (Banking.mbc5 {}).openAfter [.write 0x4000 0x00, .write 0x0000 0x0A] = true := rfl
  have hplace : (Banking.mbc5 {}).placeAfter 0x20000
      [.write 0x4000 0x00, .write 0x0000 0x0A] 0xA000 = 0 := rfl
  have hsame : 0 = bank.toNat % 16 * 0x2000 ↔ bank.toNat % 16 = 0 := by omega
  refine (if_neg fun h => absurd h.1 (by decide)).trans ?_
  refine if_congr ?_ rfl rfl
  rw [hplace, hsame]
  exact ⟨fun h => h.2.2, fun h => ⟨harea, hopen, h⟩⟩

end Places

/-- The byte is seen in the first bank only. -/
theorem read_storeThenChoose (h : c.LoadedFrom rom) (hkind : HasMotor (rom.getD 0x147 0))
    (hcode : rom.getD 0x149 0 = 0x04) (fill : RamFill) (bank : UInt8) :
    ((Board.powerOn c fill).actAll (storeThenChoose bank)).read 0xA000 =
      if bank.toNat % 16 = 0 then 0x42 else 0xFF := by
  have hregs := h.banking_of_hasMotor hkind
  have hsize : c.ram.size = 0x20000 := by
    rw [h.size_ram hkind, Header.ramSize, h.ramSizeCode, hcode]
    rfl
  have hram : c.ram.getD (bank.toNat % 16 * 0x2000) 0xFF = 0xFF := by
    rw [h.eq_made]
    exact getD_ram_made _ _ _ _ _
  have hopen : (Banking.mbc5 {}).openAfter (storeThenChoose bank).reverse = true := rfl
  have harea : Target.ofAddress 0xA000 = .cartridgeRam :=
    Target.ofAddress_eq_cartridgeRam_iff.mpr (by decide)
  have hread := c.readRam_replay (reset_of_bankingFor h.banking) (storeThenChoose bank).reverse 0xA000
  rw [hregs, hsize, if_neg (by simp [hopen])] at hread
  dsimp only at hread
  rw [placeAfter_storeThenChoose, lastStored_storeThenChoose, hram] at hread
  rw [Board.read_cartridgeRam harea, ← List.reverse_reverse (storeThenChoose bank),
    Board.cartridge_actAll_powerOn, hread]
  split <;> rfl

/-! ### Where the bit is ignored -/

/-- The motor bit, for every accepted image of a cartridge with a motor. Whatever is done to two
    boards that differs at most in the bit, they show the same in the areas of ROM and RAM, exactly
    if the header does not declare the largest RAM. -/
theorem motorBit_ignored_iff (h : load rom = (.ok c, notes)) (hkind : HasMotor (rom.getD 0x147 0))
    (fill : RamFill) :
    (∀ acts acts', List.Forall₂ SameButMotor acts acts' → ∀ address : UInt16,
      address.toNat < 0x8000 ∨ 0xA000 ≤ address.toNat ∧ address.toNat < 0xC000 →
        ((Board.powerOn c fill).actAll acts').read address =
          ((Board.powerOn c fill).actAll acts).read address) ↔
      rom.getD 0x149 0 ≠ 0x04 := by
  have hloaded := loadedFrom_of_load h
  constructor
  · -- the bit chooses between the first bank and the ninth, which only the largest RAM has
    intro hignored hcode
    have hbits : SameBits 0x00 0x08 := rfl
    have hacts := sameButMotor_storeThenChoose hbits
    have hsame := hignored _ _ hacts 0xA000 (by decide)
    rw [read_storeThenChoose hloaded hkind hcode, read_storeThenChoose hloaded hkind hcode] at hsame
    exact absurd hsame (by decide)
  · intro hcode acts acts' hacts address harea
    have hstart : Alike (Board.powerOn c fill).cartridge (Board.powerOn c fill).cartridge := by
      rw [Board.cartridge_powerOn]
      exact hloaded.alike hkind hcode
    have halike := Board.alike_actAll hacts hstart
    rcases harea with hrom | hram
    · rw [Board.read_rom _ hrom, Board.read_rom _ hrom]
      exact halike.readRom address
    · have htarget := Target.ofAddress_eq_cartridgeRam_iff.mpr hram
      rw [Board.read_cartridgeRam htarget, Board.read_cartridgeRam htarget]
      exact halike.readRam address

/-- An image with nothing but a header, for a cartridge with a motor and RAM of the size that a code
    stands for. -/
def motorRom (ramSizeCode : UInt8) : Array UInt8 :=
  Array.ofFn fun i : Fin headerEnd =>
    if i.val = 0x147 then 0x1C else if i.val = 0x149 then ramSizeCode else 0

variable (ramSizeCode : UInt8)

theorem getD_motorRom {i : Nat} (h : i < headerEnd) : (motorRom ramSizeCode).getD i 0 =
    if i = 0x147 then 0x1C else if i = 0x149 then ramSizeCode else 0 := by
  simp [motorRom, Array.getD, h]

theorem hasMotor_motorRom : HasMotor ((motorRom ramSizeCode).getD 0x147 0) := by
  rw [getD_motorRom ramSizeCode (by decide), if_pos rfl]
  exact ⟨by decide, by decide⟩

theorem load_motorRom :
    ∃ c notes, load (motorRom ramSizeCode) = (.ok c, notes) := by
  have hsize : ¬ (motorRom ramSizeCode).size < headerEnd := by
    rw [motorRom, Array.size_ofFn]
    exact Nat.lt_irrefl headerEnd
  exact exists_load hsize (bankingFor_of_hasMotor (hasMotor_motorRom ramSizeCode))

/-- With RAM of 32 KiB it makes no difference whether the motor is running. -/
theorem motorBit_ignored_iff_fourBanks :
    ∃ c notes, load (motorRom 0x03) = (.ok c, notes) ∧ HasMotor ((motorRom 0x03).getD 0x147 0) ∧
      ((Board.powerOn c .zeros).actAll (storeThenChoose 0x08)).read 0xA000 =
        ((Board.powerOn c .zeros).actAll (storeThenChoose 0x00)).read 0xA000 := by
  obtain ⟨c, notes, hload⟩ := load_motorRom 0x03
  have hkind := hasMotor_motorRom 0x03
  have hsmall : (motorRom 0x03).getD 0x149 0 ≠ 0x04 := by
    rw [getD_motorRom 0x03 (by decide)]
    decide
  have hbits : SameBits 0x00 0x08 := rfl
  have hacts := sameButMotor_storeThenChoose hbits
  exact ⟨c, notes, hload, hkind,
    (motorBit_ignored_iff hload hkind .zeros).mpr hsmall _ _ hacts 0xA000 (by decide)⟩

/-- With RAM of 128 KiB the stored byte is not seen once the motor is running. -/
theorem motorBit_choosesBank :
    ∃ c notes, load (motorRom 0x04) = (.ok c, notes) ∧ HasMotor ((motorRom 0x04).getD 0x147 0) ∧
      List.Forall₂ SameButMotor (storeThenChoose 0x00) (storeThenChoose 0x08) ∧
      ((Board.powerOn c .zeros).actAll (storeThenChoose 0x00)).read 0xA000 = 0x42 ∧
      ((Board.powerOn c .zeros).actAll (storeThenChoose 0x08)).read 0xA000 = 0xFF := by
  obtain ⟨c, notes, hload⟩ := load_motorRom 0x04
  have hkind := hasMotor_motorRom 0x04
  have hcode : (motorRom 0x04).getD 0x149 0 = 0x04 := getD_motorRom 0x04 (by decide)
  have hread := read_storeThenChoose (loadedFrom_of_load hload) hkind hcode .zeros
  exact ⟨c, notes, hload, hkind, sameButMotor_storeThenChoose rfl, hread 0x00, hread 0x08⟩

end Cartridge

end Handheld
