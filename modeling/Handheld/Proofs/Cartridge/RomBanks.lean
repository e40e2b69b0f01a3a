/-
Module: Handheld.Proofs.Cartridge.RomBanks
Purpose: Which bytes of the image the ROM area shows, for every image that is accepted and whatever
  has happened to the board since. The bank is a number made of the last bytes written to the
  controller, taken modulo the number of whole banks that the image has.
Main exports: LoadedFrom, loadedFrom_of_load, Mbc1.bank1, Mbc1.bank2, Mbc1.mode, Mbc5.romBankAfter,
  rom_of_history
-/
import Handheld.Proofs.Cartridge.History
import Handheld.Proofs.Checked.Arithmetic

namespace Handheld

open Board (Act)

namespace Cartridge

/-! ### Accepted images -/

/-- The cartridge is made of an image, and nothing has happened to it yet. -/
structure LoadedFrom (c : Cartridge) (rom : Array UInt8) : Prop where
  image : c.rom = rom
  header : Header.parse rom = .ok c.header
  kind : c.header.kind = rom.getD 0x147 0
  banking : bankingFor c.header.kind = some c.banking
  ram : c.ram = Array.replicate (fittedRam c.banking c.header.ramSize) 0xFF

variable {rom : Array UInt8} {c : Cartridge} {notes : List Note}

theorem loadedFrom_of_load (h : load rom = (.ok c, notes)) : LoadedFrom c rom := by
  unfold load at h
  split at h
  · cases h
  · next header hparse =>
    dsimp only at h
    split at h
    · cases h
    · next banking hbanking =>
      cases h
      obtain ⟨-, hheader⟩ := Header.parse_eq_ok_iff.mp hparse
      exact ⟨rfl, hparse, congrArg Header.kind hheader.symm, hbanking, rfl⟩

/-- An image of sufficient size with a known kind is accepted. -/
theorem exists_load {banking : Banking} (hsize : ¬ rom.size < headerEnd)
    (hkind : bankingFor (rom.getD 0x147 0) = some banking) :
    ∃ c notes, load rom = (.ok c, notes) := by
  have hheader : Header.parse rom = .ok (.ofImage rom) := if_neg hsize
  have hbanking : bankingFor (Header.ofImage rom).kind = some banking := hkind
  unfold load
  rw [hheader]
  dsimp only
  rw [hbanking]
  exact ⟨_, _, rfl⟩

theorem bankingFor_plain {kind : UInt8} (h : kind = 0x00 ∨ kind = 0x08 ∨ kind = 0x09) :
    bankingFor kind = some .plain :=
  if_pos h

theorem bankingFor_mbc1 {kind : UInt8} (h : 0x01 ≤ kind.toNat ∧ kind.toNat ≤ 0x03) :
    bankingFor kind = some (.mbc1 {}) := by
  unfold bankingFor
  simp only [← UInt8.toNat_inj, UInt8.le_iff_toNat_le, UInt8.reduceToNat]
  rw [if_neg (by omega), if_pos h]

theorem bankingFor_mbc5 {kind : UInt8} (h : 0x19 ≤ kind.toNat ∧ kind.toNat ≤ 0x1E) :
    bankingFor kind = some (.mbc5 {}) := by
  unfold bankingFor
  simp only [← UInt8.toNat_inj, UInt8.le_iff_toNat_le, UInt8.reduceToNat]
  rw [if_neg (by omega), if_neg (by omega), if_pos h]

/-- Only these kinds have a controller that is known. -/
theorem kind_of_bankingFor {kind : UInt8} {banking : Banking} (h : bankingFor kind = some banking) :
    (0x01 ≤ kind.toNat ∧ kind.toNat ≤ 0x03) ∨ (0x19 ≤ kind.toNat ∧ kind.toNat ≤ 0x1E) ∨
      (kind = 0x00 ∨ kind = 0x08 ∨ kind = 0x09) := by
  unfold bankingFor at h
  simp only [UInt8.le_iff_toNat_le, UInt8.reduceToNat] at h
  split at h
  · next hplain => exact .inr (.inr hplain)
  · split at h
    · next hmbc1 => exact .inl hmbc1
    · split at h
      · next hmbc5 => exact .inr (.inl hmbc5)
      · cases h

/-- A new controller has its first registers. -/
theorem reset_of_bankingFor {kind : UInt8} {banking : Banking} (h : bankingFor kind = some banking) :
    banking.reset = banking := by
  unfold bankingFor at h
  repeat' split at h
  all_goals cases h
  all_goals rfl

/-- The kind of the image chooses the controller. -/
theorem LoadedFrom.banking_eq (h : c.LoadedFrom rom) {banking : Banking}
    (hkind : bankingFor (rom.getD 0x147 0) = some banking) : c.banking = banking := by
  rw [← h.kind, h.banking] at hkind
  exact Option.some.inj hkind

/-! ### The numbers that the registers stand for -/

/-- BANK1: five bits, of which 0 stands for 1. -/
def Mbc1.bank1 (history : List Act) : Nat :=
  max 1 (lastNumber 0x2000 0x3FFF 1 history % 32)

/-- BANK2: two bits. -/
def Mbc1.bank2 (history : List Act) : Nat :=
  lastNumber 0x4000 0x5FFF 0 history % 4

/-- The banking mode: one bit. -/
def Mbc1.mode (history : List Act) : Nat :=
  lastNumber 0x6000 0x7FFF 0 history % 2

/-- The nine bits of the ROM bank, written in two parts. -/
def Mbc5.romBankAfter (history : List Act) : Nat :=
  256 * (lastNumber 0x3000 0x3FFF 0 history % 2) + lastNumber 0x2000 0x2FFF 1 history

theorem Mbc1.toNat_low (history : List Act) : (Mbc1.ofHistory history).low.toNat = bank1 history := by
  have hmask := toNat_and_mask ((lastWrite 0x2000 0x3FFF history).getD 1) 0x1F (n := 5) rfl
  unfold ofHistory bank1 lastNumber
  dsimp only
  split
  · next hzero =>
    have hnone : ((lastWrite 0x2000 0x3FFF history).getD 1).toNat % 32 = 0 :=
      hmask.symm.trans (congrArg UInt8.toNat hzero)
    rw [hnone]
    rfl
  · next hne =>
    have hsome : ((lastWrite 0x2000 0x3FFF history).getD 1 &&& 0x1F).toNat ≠ 0 :=
      fun h => hne (UInt8.toNat_inj.mp h)
    omega

theorem Mbc1.toNat_high (history : List Act) :
    (Mbc1.ofHistory history).high.toNat = bank2 history :=
  toNat_and_mask _ 0x03 (n := 2) rfl

theorem Mbc1.advanced_iff (history : List Act) :
    (Mbc1.ofHistory history).advanced = true ↔ mode history = 1 := by
  have hmask := toNat_and_mask ((lastWrite 0x6000 0x7FFF history).getD 0) 0x01 (n := 1) rfl
  unfold ofHistory mode lastNumber
  dsimp only
  rw [bne_iff_ne, ne_eq, ← UInt8.toNat_inj, hmask]
  have hzero : (0 : UInt8).toNat = 0 := rfl
  omega

theorem Mbc5.toNat_romBank (history : List Act) :
    (Mbc5.ofHistory history).romBank.toNat = romBankAfter history := by
  have hmask : (Mbc5.ofHistory history).high.toNat = lastNumber 0x3000 0x3FFF 0 history % 2 :=
    toNat_and_mask _ 0x01 (n := 1) rfl
  unfold romBank romBankAfter
  rw [toNat_joinBytes, hmask]
  rfl

/-! ### The places in the image -/

theorem romOffset_mbc1 (history : List Act) (romSize : Nat) {address : UInt16}
    (h : address.toNat < 0x8000) :
    (Banking.mbc1 (Mbc1.ofHistory history)).romOffset romSize address =
      if address.toNat < 0x4000 then
        (if Mbc1.mode history = 1 then 32 * Mbc1.bank2 history else 0) %
          max 1 (romSize / 0x4000) * 0x4000 + address.toNat
      else
        (32 * Mbc1.bank2 history + Mbc1.bank1 history) %
          max 1 (romSize / 0x4000) * 0x4000 + (address.toNat - 0x4000) := by
  have hbanks : bankCount romSize = max 1 (romSize / 0x4000) := Nat.max_comm _ _
  have hsize : romBankSize = 0x4000 := rfl
  unfold Banking.romOffset Mbc1.bank
  dsimp only
  simp only [UInt16.lt_iff_toNat_lt, UInt16.reduceToNat, Mbc1.toNat_high, Mbc1.toNat_low,
    Mbc1.advanced_iff, Nat.mul_comm _ 32, hbanks, hsize]
  split
  · next hlow => rw [Nat.mod_eq_of_lt hlow]
  · next hlow =>
    have hwithin : address.toNat % 0x4000 = address.toNat - 0x4000 := by omega
    rw [hwithin]

theorem romOffset_mbc5 (history : List Act) (romSize : Nat) {address : UInt16}
    (h : address.toNat < 0x8000) :
    (Banking.mbc5 (Mbc5.ofHistory history)).romOffset romSize address =
      if address.toNat < 0x4000 then address.toNat
      else
        Mbc5.romBankAfter history % max 1 (romSize / 0x4000) * 0x4000 + (address.toNat - 0x4000) := by
  have hbanks : bankCount romSize = max 1 (romSize / 0x4000) := Nat.max_comm _ _
  have hsize : romBankSize = 0x4000 := rfl
  unfold Banking.romOffset Mbc5.bank
  dsimp only
  simp only [UInt16.lt_iff_toNat_lt, UInt16.reduceToNat, Mbc5.toNat_romBank, hbanks, hsize]
  split
  · next hlow => rw [Nat.zero_mul, Nat.zero_add, Nat.mod_eq_of_lt hlow]
  · next hlow =>
    have hwithin : address.toNat % 0x4000 = address.toNat - 0x4000 := by omega
    rw [hwithin]

end Cartridge

/-! ### The ROM area of a board -/

namespace Board

variable {address : UInt16}

theorem read_rom (b : Board) (h : address.toNat < 0x8000) :
    b.read address = b.cartridge.readRom address := by
  unfold read
  rw [Target.ofAddress_eq_rom_iff.mpr h]
  rfl

theorem write_rom (b : Board) (h : address.toNat < 0x8000) (value : UInt8) :
    b.write address value =
      ({ b with cartridge := (b.cartridge.writeRom address value).1 },
        (b.cartridge.writeRom address value).2) := by
  unfold write
  rw [Target.ofAddress_eq_rom_iff.mpr h]
  rfl

/-- Without a controller nothing comes of a write in the ROM area. -/
theorem write_rom_of_plain {b : Board} (h : address.toNat < 0x8000)
    (hplain : b.cartridge.banking = .plain) (value : UInt8) : b.write address value = (b, []) := by
  have hsame : b.cartridge.writeRom address value = (b.cartridge, []) := by
    unfold Cartridge.writeRom
    rw [hplain, Cartridge.Banking.write, ← hplain]
  rw [b.write_rom h, hsame]

/-- A board that has a cartridge made of an image in its slot shows the image through the registers
    that the history tells. -/
theorem read_rom_actAll {rom : Array UInt8} {c : Cartridge} (h : c.LoadedFrom rom) (fill : RamFill)
    (history : List Act) (haddress : address.toNat < 0x8000) :
    ((powerOn c fill).actAll history.reverse).read address =
      rom.getD ((c.banking.ofHistory history).romOffset rom.size address) 0xFF := by
  rw [read_rom _ haddress, cartridge_actAll_powerOn]
  unfold Cartridge.readRom
  rw [Cartridge.banking_replay (Cartridge.reset_of_bankingFor h.banking),
    (c.fixed_replay history).1, h.image]
  rfl

end Board

namespace Cartridge

/-- ROM banking, for every image that is accepted and everything that can happen to the board. The
    image and what was read of its header stay, and there is no fourth kind of image. An MBC1
    controller shows the bank that BANK1, BANK2 and the mode make up, an MBC5 controller the one
    with the nine-bit number, both modulo the number of whole banks; without a controller the image
    is seen as it is, and writes change nothing. -/
theorem rom_of_history {rom : Array UInt8} {c : Cartridge} {notes : List Note}
    (h : load rom = (.ok c, notes)) (fill : RamFill) (history : List Act) :
    let b := (Board.powerOn c fill).actAll history.reverse
    let kind := rom.getD 0x147 0
    let banks := max 1 (rom.size / 0x4000)
    (b.cartridge.rom = rom ∧ Header.parse rom = .ok b.cartridge.header) ∧
      ((0x01 ≤ kind.toNat ∧ kind.toNat ≤ 0x03) ∨ (0x19 ≤ kind.toNat ∧ kind.toNat ≤ 0x1E) ∨
        (kind = 0x00 ∨ kind = 0x08 ∨ kind = 0x09)) ∧
      (0x01 ≤ kind.toNat ∧ kind.toNat ≤ 0x03 → ∀ address : UInt16,
        (address.toNat < 0x4000 → b.read address =
          rom.getD ((if Mbc1.mode history = 1 then 32 * Mbc1.bank2 history else 0) % banks * 0x4000
            + address.toNat) 0xFF) ∧
        (0x4000 ≤ address.toNat ∧ address.toNat < 0x8000 → b.read address =
          rom.getD ((32 * Mbc1.bank2 history + Mbc1.bank1 history) % banks * 0x4000
            + (address.toNat - 0x4000)) 0xFF)) ∧
      (0x19 ≤ kind.toNat ∧ kind.toNat ≤ 0x1E → ∀ address : UInt16,
        (address.toNat < 0x4000 → b.read address = rom.getD address.toNat 0xFF) ∧
        (0x4000 ≤ address.toNat ∧ address.toNat < 0x8000 → b.read address =
          rom.getD (Mbc5.romBankAfter history % banks * 0x4000 + (address.toNat - 0x4000)) 0xFF)) ∧
      (kind = 0x00 ∨ kind = 0x08 ∨ kind = 0x09 → ∀ address : UInt16, address.toNat < 0x8000 →
        b.read address = rom.getD address.toNat 0xFF ∧
          ∀ value, b.write address value = (b, [])) := by
  intro b kind banks
  have hloaded := loadedFrom_of_load h
  have hcartridge : b.cartridge = c.replay history :=
    Board.cartridge_actAll_powerOn c fill history
  have hread {address : UInt16} (haddress : address.toNat < 0x8000) : b.read address =
      rom.getD ((c.banking.ofHistory history).romOffset rom.size address) 0xFF :=
    Board.read_rom_actAll hloaded fill history haddress
  refine ⟨?image, ?kinds, ?mbc1, ?mbc5, ?plain⟩
  case image =>
    rcases c.fixed_replay history with ⟨hrom, hheader, -⟩
    rw [hcartridge, hrom, hheader]
    exact ⟨hloaded.image, hloaded.header⟩
  case kinds => exact kind_of_bankingFor (hloaded.kind ▸ hloaded.banking)
  case mbc1 =>
    intro hkind address
    have hregs : c.banking = .mbc1 {} := hloaded.banking_eq (bankingFor_mbc1 hkind)
    constructor
    · intro hlow
      rw [hread (by omega), hregs, Banking.ofHistory, romOffset_mbc1 _ _ (by omega), if_pos hlow]
    · rintro ⟨hlow, hhigh⟩
      rw [hread hhigh, hregs, Banking.ofHistory, romOffset_mbc1 _ _ hhigh,
        if_neg (Nat.not_lt.mpr hlow)]
  case mbc5 =>
    intro hkind address
    have hregs : c.banking = .mbc5 {} := hloaded.banking_eq (bankingFor_mbc5 hkind)
    constructor
    · intro hlow
      rw [hread (by omega), hregs, Banking.ofHistory, romOffset_mbc5 _ _ (by omega), if_pos hlow]
    · rintro ⟨hlow, hhigh⟩
      rw [hread hhigh, hregs, Banking.ofHistory, romOffset_mbc5 _ _ hhigh,
        if_neg (Nat.not_lt.mpr hlow)]
  case plain =>
    intro hkind address haddress
    have hregs : c.banking = .plain := hloaded.banking_eq (bankingFor_plain hkind)
    have hnow : b.cartridge.banking = .plain := by
      rw [hcartridge, banking_replay (reset_of_bankingFor hloaded.banking), hregs]
      rfl
    constructor
    · rw [hread haddress, hregs]
      rfl
    · intro value
      exact Board.write_rom_of_plain haddress hnow value

/-- An image of three banks for an MBC1 controller, in which nearly every byte tells its bank. -/
def threeBankRom : Array UInt8 :=
  Array.ofFn fun i : Fin 0xC000 => if i.val = 0x147 then 0x01 else UInt8.ofNat (i.val / 0x4000)

theorem getD_threeBankRom {i : Nat} (h : i < 0xC000) (other : UInt8) :
    threeBankRom.getD i other = if i = 0x147 then 0x01 else UInt8.ofNat (i / 0x4000) := by
  simp [threeBankRom, Array.getD, h]

theorem size_threeBankRom : threeBankRom.size = 0xC000 := Array.size_ofFn

theorem load_threeBankRom : ∃ c notes, load threeBankRom = (.ok c, notes) := by
  have hsize : ¬ threeBankRom.size < headerEnd := by
    rw [size_threeBankRom]
    decide
  have hkind : bankingFor (threeBankRom.getD 0x147 0) = some (.mbc1 {}) := by
    rw [getD_threeBankRom (by decide)]
    exact bankingFor_mbc1 (by decide)
  exact exists_load hsize hkind

/-- With BANK1 = 5, BANK2 = 1 and the mode set, that image shows bank 32 modulo 3 below 0x4000 and
    bank 37 modulo 3 above. -/
theorem rom_of_history_threeBankRom :
    ∃ c notes, load threeBankRom = (.ok c, notes) ∧
      let b := (Board.powerOn c .standard).actAll
        [.write 0x2000 0x05, .write 0x4000 0x01, .write 0x6000 0x01]
      b.cartridge.rom = threeBankRom ∧ b.read 0x0000 = 2 ∧ b.read 0x7FFF = 1 := by
  rcases load_threeBankRom with ⟨c, notes, hload⟩
  have hkind : threeBankRom.getD 0x147 0 = 0x01 := getD_threeBankRom (by decide) 0
  have hreverse : [Act.write 0x6000 0x01, .write 0x4000 0x01, .write 0x2000 0x05].reverse =
    [.write 0x2000 0x05, .write 0x4000 0x01, .write 0x6000 0x01] := rfl
  have hall := rom_of_history hload .standard
    [.write 0x6000 0x01, .write 0x4000 0x01, .write 0x2000 0x05]
  rw [hkind, size_threeBankRom, hreverse] at hall
  rcases hall with ⟨⟨hrom, -⟩, -, hmbc1, -⟩
  refine ⟨c, notes, hload, hrom, ?_, ?_⟩
  · refine ((hmbc1 (by decide) 0x0000).1 (by decide)).trans ?_
    rw [getD_threeBankRom (by decide)]
    decide
  · refine ((hmbc1 (by decide) 0x7FFF).2 (by decide)).trans ?_
    rw [getD_threeBankRom (by decide)]
    decide

end Cartridge

end Handheld
