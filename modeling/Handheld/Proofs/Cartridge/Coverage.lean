/-
Module: Handheld.Proofs.Cartridge.Coverage
Purpose: Every byte of an image can be brought before the processor. For each bank there are writes
  to the controller that show it in one of the two windows of the ROM area, whatever the registers
  were before; and as long as nothing has been written there, the windows show the first two banks.
Main exports: Board.writeAll, Board.Shows, Mbc1.selecting, Mbc5.selecting, Act.selects,
  rom_within_reach
-/
import Handheld.Proofs.Cartridge.RomBanks

namespace Handheld

open Board (Act)

/-! ### Bytes written in order -/

namespace Board

/-- The board after bytes have been written one after the other. -/
def writeAll (b : Board) (writes : List (UInt16 × UInt8)) : Board :=
  b.actAll (writes.map fun write => .write write.1 write.2)

/-- An address of the ROM area is mapped to a place of the image, and the byte there is read. -/
structure Shows (b : Board) (address : UInt16) (place : Nat) : Prop where
  inside : address.toNat < 0x8000
  mapped : b.cartridge.banking.romOffset b.cartridge.rom.size address = place
  byte : b.cartridge.rom[place]? = some (b.read address)

/-- What is mapped to a place inside the image shows the byte there. -/
theorem shows_of_mapped {b : Board} {address : UInt16} {place : Nat}
    (inside : address.toNat < 0x8000)
    (mapped : b.cartridge.banking.romOffset b.cartridge.rom.size address = place)
    (hplace : place < b.cartridge.rom.size) : b.Shows address place where
  inside := inside
  mapped := mapped
  byte := by
    rw [b.read_rom inside, Cartridge.readRom, mapped, Array.getD_eq_getD_getElem?,
      Array.getElem?_eq_getElem hplace, Option.getD_some]

end Board

namespace Cartridge

/-- The controller after bytes have been written to its registers one after the other. -/
def Banking.writeAll (controller : Banking) (romSize : Nat) (writes : List (UInt16 × UInt8)) :
    Banking :=
  writes.foldl (fun controller write => (controller.write romSize write.1 write.2).1) controller

/-- Writes in the ROM area set the registers and leave all else of the cartridge alone. -/
theorem cartridge_writeAll {writes : List (UInt16 × UInt8)}
    (h : ∀ write ∈ writes, write.1.toNat < 0x8000) (b : Board) :
    (b.writeAll writes).cartridge = { b.cartridge with
      banking := b.cartridge.banking.writeAll b.cartridge.rom.size writes } := by
  induction writes generalizing b with
  | nil => rfl
  | cons write rest ih =>
      obtain ⟨hfirst, hrest⟩ := List.forall_mem_cons.mp h
      have hwrite : (b.act (.write write.1 write.2)).cartridge =
          (b.cartridge.writeRom write.1 write.2).1 := by
        rw [Board.cartridge_act, meet, if_pos hfirst]
      refine (ih hrest (b.act (.write write.1 write.2))).trans ?_
      rw [hwrite]
      rfl

/-! ### The two windows -/

section

variable {address : UInt16} {within : Nat} (romSize : Nat)

theorem romOffset_mbc1_low (h : address.toNat < 0x4000) (regs : Mbc1) :
    (Banking.mbc1 regs).romOffset romSize address =
      (if regs.advanced then 32 * regs.high.toNat else 0) % bankCount romSize * 0x4000
        + address.toNat := by
  have hwindow : address < 0x4000 := UInt16.lt_iff_toNat_lt.mpr h
  have hwithin : address.toNat % romBankSize = address.toNat := Nat.mod_eq_of_lt h
  unfold Banking.romOffset Mbc1.bank
  dsimp only
  rw [if_pos hwindow, hwithin, Nat.mul_comm regs.high.toNat]
  rfl

theorem upper_window (h : address.toNat = 0x4000 + within) (hwithin : within < 0x4000) :
    ¬ address < 0x4000 ∧ address.toNat % romBankSize = within := by
  have hbound : (0x4000 : UInt16).toNat = 0x4000 := rfl
  rw [UInt16.lt_iff_toNat_lt, h, hbound, romBankSize]
  omega

theorem romOffset_mbc1_high (h : address.toNat = 0x4000 + within) (hwithin : within < 0x4000)
    (regs : Mbc1) :
    (Banking.mbc1 regs).romOffset romSize address =
      (32 * regs.high.toNat + regs.low.toNat) % bankCount romSize * 0x4000 + within := by
  obtain ⟨hwindow, hrest⟩ := upper_window h hwithin
  unfold Banking.romOffset Mbc1.bank
  dsimp only
  rw [if_neg hwindow, hrest, Nat.mul_comm regs.high.toNat]
  rfl

theorem romOffset_mbc5_low (h : address.toNat < 0x4000) (regs : Mbc5) :
    (Banking.mbc5 regs).romOffset romSize address = address.toNat := by
  have hwindow : address < 0x4000 := UInt16.lt_iff_toNat_lt.mpr h
  have hwithin : address.toNat % romBankSize = address.toNat := Nat.mod_eq_of_lt h
  unfold Banking.romOffset Mbc5.bank
  dsimp only
  rw [if_pos hwindow, hwithin, Nat.zero_mul, Nat.zero_add]

theorem romOffset_mbc5_high (h : address.toNat = 0x4000 + within) (hwithin : within < 0x4000)
    (regs : Mbc5) :
    (Banking.mbc5 regs).romOffset romSize address =
      (256 * regs.high.toNat + regs.low.toNat) % bankCount romSize * 0x4000 + within := by
  obtain ⟨hwindow, hrest⟩ := upper_window h hwithin
  unfold Banking.romOffset Mbc5.bank Mbc5.romBank
  dsimp only
  rw [if_neg hwindow, hrest, toNat_joinBytes]
  rfl

end

/-- An image of whole banks has so many. -/
theorem bankCount_mul {banks : Nat} (h : 0 < banks) : bankCount (banks * 0x4000) = banks := by
  unfold bankCount romBankSize
  omega

/-! ### The banks of an MBC1 controller -/

/-- Writes that bring a bank before the processor. BANK1 cannot be zero, so the banks whose number
    ends in five zero bits are shown in the lower window, where the mode puts BANK2 alone. -/
def Mbc1.selecting (bank : Nat) : List (UInt16 × UInt8) :=
  if bank % 32 = 0 then [(0x4000, UInt8.ofNat (bank / 32)), (0x6000, 1)]
  else [(0x2000, UInt8.ofNat (bank % 32)), (0x4000, UInt8.ofNat (bank / 32))]

/-- The window that shows the bank then. -/
def Mbc1.windowOf (bank : Nat) : Nat :=
  if bank % 32 = 0 then 0 else 0x4000

theorem Mbc1.selecting_inside (bank : Nat) :
    ∀ write ∈ selecting bank, write.1.toNat < 0x8000 := by
  unfold selecting
  split <;> simp

section

variable (regs : Mbc1) (banks : Nat)

theorem Mbc1.write_bank1 {value : UInt8} (h : value &&& 0x1F ≠ 0) :
    (regs.write banks 0x2000 value).1 = { regs with low := value &&& 0x1F } := by
  unfold write
  rw [if_neg (by decide), if_pos (by decide)]
  dsimp only
  rw [if_neg h]

theorem Mbc1.write_bank2 (value : UInt8) :
    (regs.write banks 0x4000 value).1 = { regs with high := value &&& 0x03 } := by
  unfold write
  rw [if_neg (by decide), if_neg (by decide), if_pos (by decide)]

theorem Mbc1.write_mode : (regs.write banks 0x6000 1).1 = { regs with advanced := true } := by
  unfold write
  rw [if_neg (by decide), if_neg (by decide), if_neg (by decide), if_pos (by decide)]
  rfl

end

theorem writeAll_mbc1 (regs : Mbc1) (romSize : Nat) (first second : UInt16 × UInt8) :
    (Banking.mbc1 regs).writeAll romSize [first, second] =
      .mbc1 (((regs.write (bankCount romSize) first.1 first.2).1.write (bankCount romSize)
        second.1 second.2).1) := rfl

/-- The chosen bank stands in its window, whatever the registers were before. -/
theorem Mbc1.romOffset_selecting {banks bank within : Nat} (hbanks : banks ≤ 128)
    (hbank : bank < banks) (hwithin : within < 0x4000) (regs : Mbc1) :
    ((Banking.mbc1 regs).writeAll (banks * 0x4000) (selecting bank)).romOffset (banks * 0x4000)
      (UInt16.ofNat (windowOf bank + within)) = bank * 0x4000 + within := by
  have hcount : bankCount (banks * 0x4000) = banks := bankCount_mul (by omega)
  have hhigh : (UInt8.ofNat (bank / 32) &&& 0x03).toNat = bank / 32 := by
    rw [toNat_and_mask _ 0x03 (n := 2) rfl, UInt8.toNat_ofNat']
    omega
  unfold selecting windowOf
  split
  · next hlow =>
    have haddress : (UInt16.ofNat (0 + within)).toNat = within := by
      rw [UInt16.toNat_ofNat']
      omega
    have hshown : 32 * (bank / 32) % banks = bank := by
      rw [Nat.mod_eq_of_lt] <;> omega
    have hwindow : (UInt16.ofNat (0 + within)).toNat < 0x4000 := haddress.trans_lt hwithin
    rw [writeAll_mbc1, Mbc1.write_bank2, Mbc1.write_mode, romOffset_mbc1_low _ hwindow, if_pos rfl,
      hcount, hhigh, hshown, haddress]
  · next hlow =>
    have haddress : (UInt16.ofNat (0x4000 + within)).toNat = 0x4000 + within := by
      rw [UInt16.toNat_ofNat']
      omega
    have hfive : (UInt8.ofNat (bank % 32) &&& 0x1F).toNat = bank % 32 := by
      rw [toNat_and_mask _ 0x1F (n := 5) rfl, UInt8.toNat_ofNat']
      omega
    have hsome : UInt8.ofNat (bank % 32) &&& 0x1F ≠ 0 := fun hzero =>
      hlow (hfive.symm.trans (congrArg UInt8.toNat hzero))
    have hshown : (32 * (bank / 32) + bank % 32) % banks = bank := by
      rw [Nat.div_add_mod, Nat.mod_eq_of_lt hbank]
    rw [writeAll_mbc1, Mbc1.write_bank1 _ _ hsome, Mbc1.write_bank2,
      romOffset_mbc1_high _ haddress hwithin, hcount, hhigh, hfive, hshown]

/-! ### The banks of an MBC5 controller -/

/-- Writes that bring a bank before the processor: its lower eight bits and its ninth. -/
def Mbc5.selecting (bank : Nat) : List (UInt16 × UInt8) :=
  [(0x2000, UInt8.ofNat (bank % 256)), (0x3000, UInt8.ofNat (bank / 256))]

theorem Mbc5.selecting_inside (bank : Nat) :
    ∀ write ∈ selecting bank, write.1.toNat < 0x8000 := by
  simp [selecting]

/-- The chosen bank stands in the upper window, bank 0 not excepted. -/
theorem Mbc5.romOffset_selecting {banks bank within : Nat} (hbanks : banks ≤ 512)
    (hbank : bank < banks) (hwithin : within < 0x4000) (regs : Mbc5) :
    ((Banking.mbc5 regs).writeAll (banks * 0x4000) (selecting bank)).romOffset (banks * 0x4000)
      (UInt16.ofNat (0x4000 + within)) = bank * 0x4000 + within := by
  have hcount : bankCount (banks * 0x4000) = banks := bankCount_mul (by omega)
  have haddress : (UInt16.ofNat (0x4000 + within)).toNat = 0x4000 + within := by
    rw [UInt16.toNat_ofNat']
    omega
  have height : (UInt8.ofNat (bank % 256)).toNat = bank % 256 := by
    rw [UInt8.toNat_ofNat', Nat.mod_mod]
  have hninth : (UInt8.ofNat (bank / 256) &&& 0x01).toNat = bank / 256 := by
    rw [toNat_and_mask _ 0x01 (n := 1) rfl, UInt8.toNat_ofNat']
    omega
  have hwrite : (Banking.mbc5 regs).writeAll (banks * 0x4000) (selecting bank) =
      .mbc5 { regs with
        low := UInt8.ofNat (bank % 256), high := UInt8.ofNat (bank / 256) &&& 0x01 } := rfl
  have hshown : (256 * (bank / 256) + bank % 256) % banks = bank := by
    rw [Nat.div_add_mod, Nat.mod_eq_of_lt hbank]
  rw [hwrite, romOffset_mbc5_high _ haddress hwithin, hcount, hninth, height, hshown]

/-! ### Before the first choice -/

/-- Whether an act reaches the registers of the controller. -/
def selects : Act → Bool
  | .write address _ => address.toNat < 0x8000
  | _ => false

/-- Histories, the latest act first, in which the registers have not been reached since power-on or
    since the last reset. -/
inductive Unselected : (history : List Act) → Prop where
  | powerOn : Unselected []
  | reset (fill : RamFill) (earlier : List Act) : Unselected (.reset fill :: earlier)
  | act {act : Act} {earlier : List Act} (h : selects act = false) (before : Unselected earlier) :
      Unselected (act :: earlier)

/-- Such a history leaves the registers as they are at power-on. -/
theorem Unselected.ofHistory_eq {history : List Act} (h : Unselected history)
    (controller : Banking) : controller.ofHistory history = controller.reset := by
  induction h with
  | powerOn => exact controller.ofHistory_nil
  | reset fill earlier => exact controller.ofHistory_reset fill earlier
  | @act act earlier hact before ih =>
      cases act with
      | write address value =>
          have habove : 0x8000 ≤ address.toNat := by simpa [selects] using hact
          exact (controller.ofHistory_write_above habove).trans ih
      | reset fill => exact controller.ofHistory_reset fill earlier
      | _ => cases controller <;> exact ih

/-- With its first registers a controller shows the first two banks in order. -/
theorem romOffset_reset {controller : Banking} {romSize : Nat} {address : UInt16}
    (hsize : controller = .plain ∨ 0x8000 ≤ romSize) (haddress : address.toNat < 0x8000) :
    controller.reset.romOffset romSize address = address.toNat := by
  have htwo (hlong : 0x8000 ≤ romSize) : 1 % bankCount romSize = 1 := by
    apply Nat.mod_eq_of_lt
    unfold bankCount romBankSize
    omega
  cases controller with
  | plain => rfl
  | mbc1 regs =>
      by_cases hlow : address.toNat < 0x4000
      · rw [Banking.reset, romOffset_mbc1_low _ hlow, if_neg Bool.false_ne_true, Nat.zero_mod,
          Nat.zero_mul, Nat.zero_add]
      · have hupper : address.toNat = 0x4000 + (address.toNat - 0x4000) := by omega
        have hfirst : (32 * (0 : UInt8).toNat + (1 : UInt8).toNat) % bankCount romSize = 1 :=
          htwo (hsize.resolve_left Banking.noConfusion)
        rw [Banking.reset, romOffset_mbc1_high _ hupper (by omega), hfirst]
        exact hupper.symm
  | mbc5 regs =>
      by_cases hlow : address.toNat < 0x4000
      · rw [Banking.reset, romOffset_mbc5_low _ hlow]
      · have hupper : address.toNat = 0x4000 + (address.toNat - 0x4000) := by omega
        have hfirst : (256 * (0 : UInt8).toNat + (1 : UInt8).toNat) % bankCount romSize = 1 :=
          htwo (hsize.resolve_left Banking.noConfusion)
        rw [Banking.reset, romOffset_mbc5_high _ hupper (by omega), hfirst]
        exact hupper.symm

/-- The ROM area before the first choice: the image from its beginning. -/
theorem read_unselected {rom : Array UInt8} {c : Cartridge} (h : c.LoadedFrom rom)
    (hsize : c.banking = .plain ∨ 0x8000 ≤ rom.size) (fill : RamFill) {history : List Act}
    (hhistory : Unselected history) {address : UInt16} (haddress : address.toNat < 0x8000) :
    ((Board.powerOn c fill).actAll history.reverse).read address = rom.getD address.toNat 0xFF := by
  rw [Board.read_rom_actAll h fill history haddress, hhistory.ofHistory_eq,
    romOffset_reset hsize haddress]

/-! ### Every byte -/

/-- Writes in the ROM area bring a place of an image of `romSize` bytes to an address there, one and
    the same whatever the registers of the controller were before. -/
def WithinReach {Regs : Type} (controller : Regs → Banking) (romSize place : Nat) : Prop :=
  ∃ (writes : List (UInt16 × UInt8)) (address : UInt16),
    (∀ write ∈ writes, write.1.toNat < 0x8000) ∧
    ∀ (b : Board) (regs : Regs), b.cartridge.banking = controller regs →
      b.cartridge.rom.size = romSize →
      (b.writeAll writes).Shows address place ∧ (b.writeAll writes).cartridge.rom = b.cartridge.rom

/-- It is enough that the registers come to map the address to the place. -/
theorem withinReach_of_mapped {Regs : Type} {controller : Regs → Banking} {romSize place : Nat}
    {writes : List (UInt16 × UInt8)} {address : UInt16}
    (hwrites : ∀ write ∈ writes, write.1.toNat < 0x8000) (haddress : address.toNat < 0x8000)
    (hplace : place < romSize)
    (hmapped : ∀ regs,
      ((controller regs).writeAll romSize writes).romOffset romSize address = place) :
    WithinReach controller romSize place := by
  refine ⟨writes, address, hwrites, ?_⟩
  intro b regs hregs hsize
  have hafter := cartridge_writeAll hwrites b
  have hrom : (b.writeAll writes).cartridge.rom = b.cartridge.rom := by rw [hafter]
  have hbanking : (b.writeAll writes).cartridge.banking =
      (controller regs).writeAll romSize writes := by
    rw [hafter, hregs, hsize]
  refine ⟨Board.shows_of_mapped haddress ?_ ?_, hrom⟩
  · rw [hbanking, hrom, hsize, hmapped]
  · rw [hrom, hsize]
    exact hplace

theorem withinReach_mbc1 {banks place : Nat} (hbanks : banks ≤ 128)
    (hplace : place < banks * 0x4000) :
    WithinReach .mbc1 (banks * 0x4000) place := by
  have hwithin : place % 0x4000 < 0x4000 := Nat.mod_lt _ (by decide)
  have hwindow : Mbc1.windowOf (place / 0x4000) ≤ 0x4000 := by
    unfold Mbc1.windowOf
    split <;> decide
  have hinside :
      (UInt16.ofNat (Mbc1.windowOf (place / 0x4000) + place % 0x4000)).toNat < 0x8000 := by
    rw [UInt16.toNat_ofNat']
    omega
  refine withinReach_of_mapped (Mbc1.selecting_inside (place / 0x4000)) hinside hplace ?_
  intro regs
  rw [Mbc1.romOffset_selecting hbanks (by omega) hwithin, Nat.div_add_mod']

theorem withinReach_mbc5 {banks place : Nat} (hbanks : banks ≤ 512)
    (hplace : place < banks * 0x4000) :
    WithinReach .mbc5 (banks * 0x4000) place := by
  have hwithin : place % 0x4000 < 0x4000 := Nat.mod_lt _ (by decide)
  have hinside : (UInt16.ofNat (0x4000 + place % 0x4000)).toNat < 0x8000 := by
    rw [UInt16.toNat_ofNat']
    omega
  refine withinReach_of_mapped (Mbc5.selecting_inside (place / 0x4000)) hinside hplace ?_
  intro regs
  rw [Mbc5.romOffset_selecting hbanks (by omega) hwithin, Nat.div_add_mod']

/-- Every byte of an image can be read. With an MBC1 controller and up to 128 whole banks, or an
    MBC5 controller and up to 512, writes in the ROM area bring every place of the image to an
    address there, from all states of the registers and whatever the number of banks. And as long as
    the registers have not been reached since power-on or a reset, the ROM area shows the image from
    its beginning: without a controller in any case, with one if the image fills the area. -/
theorem rom_within_reach :
    (∀ banks place : Nat, banks ≤ 128 → place < banks * 0x4000 →
      WithinReach .mbc1 (banks * 0x4000) place) ∧
    (∀ banks place : Nat, banks ≤ 512 → place < banks * 0x4000 →
      WithinReach .mbc5 (banks * 0x4000) place) ∧
    (∀ (rom : Array UInt8) (c : Cartridge) (notes : List Note), load rom = (.ok c, notes) →
      c.banking = .plain ∨ 0x8000 ≤ rom.size → ∀ (fill : RamFill) (history : List Act),
      Unselected history → ∀ address : UInt16, address.toNat < 0x8000 →
      ((Board.powerOn c fill).actAll history.reverse).read address =
        rom.getD address.toNat 0xFF) := by
  refine ⟨?mbc1, ?mbc5, ?first⟩
  case mbc1 => exact fun banks place hbanks hplace => withinReach_mbc1 hbanks hplace
  case mbc5 => exact fun banks place hbanks hplace => withinReach_mbc5 hbanks hplace
  case first =>
    intro rom c notes hload hsize fill history hhistory address haddress
    exact read_unselected (loadedFrom_of_load hload) hsize fill hhistory haddress

/-- Bank 0x20 of 33 with an MBC1 controller, bank 0 of 300 with an MBC5 controller, and an image of
    three banks after a reset and a write in work RAM. -/
theorem rom_within_reach_bank32 :
    (33 ≤ 128 ∧ 0x20 * 0x4000 + 5 < 33 * 0x4000 ∧
      WithinReach .mbc1 (33 * 0x4000) (0x20 * 0x4000 + 5)) ∧
    (300 ≤ 512 ∧ 7 < 300 * 0x4000 ∧ WithinReach .mbc5 (300 * 0x4000) 7) ∧
    ∃ c notes, load threeBankRom = (.ok c, notes) ∧
      (c.banking = .plain ∨ 0x8000 ≤ threeBankRom.size) ∧
      Unselected [.write 0xC000 1, .reset .zeros, .write 0x2000 2] ∧
      ((Board.powerOn c .standard).actAll
        [.write 0x2000 2, .reset .zeros, .write 0xC000 1]).read 0x4000 = 1 := by
  obtain ⟨hmbc1, hmbc5, hfirst⟩ := rom_within_reach
  obtain ⟨c, notes, hload⟩ := load_threeBankRom
  have hsize : 0x8000 ≤ threeBankRom.size := by
    rw [size_threeBankRom]
    decide
  have hhistory : Unselected [.write 0xC000 1, .reset .zeros, .write 0x2000 2] :=
    .act (by decide) (.reset .zeros [.write 0x2000 2])
  refine ⟨⟨by decide, by decide, hmbc1 33 _ (by decide) (by decide)⟩,
    ⟨by decide, by decide, hmbc5 300 _ (by decide) (by decide)⟩,
    c, notes, hload, .inr hsize, hhistory, ?_⟩
  refine (hfirst _ c notes hload (.inr hsize) .standard _ hhistory 0x4000 (by decide)).trans ?_
  rw [getD_threeBankRom (by decide)]
  decide

end Cartridge

end Handheld
