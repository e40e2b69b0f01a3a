/-
Module: Handheld.Proofs.Cartridge.RamCells
Purpose: What the RAM of a cartridge holds after everything that has happened to the board. Each
  place keeps the last byte that was written to it while RAM was open, through whatever address and
  bank, and a reset takes nothing away.
Main exports: Cartridge.made, Banking.openAfter, Banking.ramBankAfter, Banking.placeAfter,
  Banking.lastStored, Cartridge.ram_replay, Cartridge.ram_of_history
-/
import Handheld.Proofs.Board.Store
import Handheld.Proofs.Cartridge.RomBanks

namespace Handheld

open Board (Act)

namespace Cartridge

/-! ### New cartridges -/

/-- A cartridge as it leaves the factory, with RAM of the declared size, or less where the
    controller cannot reach all of it. -/
def made (header : Header) (rom : Array UInt8) (controller : Banking) (declared : Nat) : Cartridge where
  header := header
  rom := rom
  ram := Array.replicate (fittedRam controller declared) 0xFF
  banking := controller

theorem LoadedFrom.eq_made {rom : Array UInt8} {c : Cartridge} (h : c.LoadedFrom rom) :
    c = made c.header rom c.banking c.header.ramSize := by
  rcases c with ⟨header, image, ram, banking⟩
  have himage : image = rom := h.image
  have hram : ram = Array.replicate (fittedRam banking header.ramSize) 0xFF := h.ram
  rw [made, himage, hram]

/-! ### What the controller allows -/

namespace Banking

/-- RAM is open: a controller opens it for a byte whose low four bits are 0xA. -/
def openAfter (controller : Banking) (history : List Act) : Bool :=
  match controller with
  | .plain => true
  | .mbc1 _ | .mbc5 _ => lastNumber 0x0000 0x1FFF 0 history % 16 == 0x0A

/-- The RAM bank that the registers choose. -/
def ramBankAfter (controller : Banking) (history : List Act) : Nat :=
  match controller with
  | .plain => 0
  | .mbc1 _ => if Mbc1.mode history = 1 then Mbc1.bank2 history else 0
  | .mbc5 _ => lastNumber 0x4000 0x5FFF 0 history % 16

/-- The place that an address of the RAM area means. -/
def placeAfter (controller : Banking) (size : Nat) (history : List Act) (address : UInt16) : Nat :=
  (controller.ramBankAfter history * 0x2000 + (address.toNat - 0xA000)) % size

/-- The last byte that was written to a place in a RAM of `size` bytes while RAM was open. -/
def lastStored (controller : Banking) (size place : Nat) : (history : List Act) → Option UInt8
  | [] => none
  | .write address value :: earlier =>
    if (0xA000 ≤ address.toNat ∧ address.toNat < 0xC000) ∧ controller.openAfter earlier = true ∧
        controller.placeAfter size earlier address = place then
      some value
    else lastStored controller size place earlier
  | _ :: earlier => lastStored controller size place earlier

variable (controller : Banking) (history : List Act)

theorem opensRam_eq (value : UInt8) : opensRam value = (value.toNat % 16 == 0x0A) := by
  have hmask : (value &&& 0x0F).toNat = value.toNat % 16 := toNat_and_mask value 0x0F (n := 4) rfl
  have hten : (0x0A : UInt8).toNat = 0x0A := rfl
  unfold opensRam
  rw [Bool.eq_iff_iff, beq_iff_eq, beq_iff_eq, ← UInt8.toNat_inj, hmask, hten]

theorem ramEnabled_ofHistory :
    (controller.ofHistory history).ramEnabled = controller.openAfter history := by
  cases controller with
  | plain => rfl
  | mbc1 regs => exact opensRam_eq _
  | mbc5 regs => exact opensRam_eq _

theorem chosenRamBank_ofHistory :
    (controller.ofHistory history).chosenRamBank = controller.ramBankAfter history := by
  cases controller with
  | plain => rfl
  | mbc1 regs =>
      unfold ofHistory chosenRamBank ramBankAfter Mbc1.ramBank
      dsimp only
      rw [Mbc1.toNat_high]
      simp only [Mbc1.advanced_iff]
  | mbc5 regs => exact toNat_and_mask _ 0x0F (n := 4) rfl

theorem ramPlace_ofHistory (size : Nat) (address : UInt16) :
    (controller.ofHistory history).ramPlace size address =
      controller.placeAfter size history address := by
  unfold ramPlace placeAfter
  rw [chosenRamBank_ofHistory]

end Banking

/-! ### What the places hold -/

variable {c : Cartridge}

/-- Each place holds the last byte stored there, and what it held at first if there was none. -/
theorem ram_replay (hstart : c.banking.reset = c.banking) {place : Nat} (hplace : place < c.ram.size)
    (history : List Act) :
    (c.replay history).ram.getD place 0xFF =
      (c.banking.lastStored c.ram.size place history).getD (c.ram.getD place 0xFF) := by
  induction history with
  | nil => rfl
  | cons act earlier ih =>
      cases act with
      | write address value =>
          have hbanking := banking_replay hstart earlier
          have hsize := (c.fixed_replay earlier).2.2
          by_cases harea : 0xA000 ≤ address.toNat ∧ address.toNat < 0xC000
          · rw [replay, meet, if_neg (by omega), if_pos harea,
              getD_writeRam (hsize.symm ▸ hplace), hsize, hbanking, Banking.ramEnabled_ofHistory,
              Banking.ramPlace_ofHistory, ih, Banking.lastStored]
            by_cases hreached : c.banking.openAfter earlier = true ∧
                c.banking.placeAfter c.ram.size earlier address = place
            · rw [if_pos hreached, if_pos ⟨harea, hreached⟩]
              rfl
            · rw [if_neg hreached, if_neg (fun h => hreached h.2)]
          · have hsame : (c.replay (.write address value :: earlier)).ram = (c.replay earlier).ram := by
              rw [replay, meet, if_neg harea]
              split <;> rfl
            rw [hsame, ih, Banking.lastStored, if_neg (fun h => harea h.1)]
      | _ => exact ih

/-- What is seen through an address of the RAM area. -/
theorem readRam_replay (hstart : c.banking.reset = c.banking) (history : List Act)
    (address : UInt16) : (c.replay history).readRam address =
      if c.ram.size = 0 ∨ c.banking.openAfter history = false then 0xFF
      else
        let place := c.banking.placeAfter c.ram.size history address
        (c.banking.lastStored c.ram.size place history).getD (c.ram.getD place 0xFF) := by
  have hsize := (c.fixed_replay history).2.2
  have hclosed : (c.replay history).RamClosed ↔
      c.ram.size = 0 ∨ c.banking.openAfter history = false := by
    unfold RamClosed
    rw [hsize, banking_replay hstart, Banking.ramEnabled_ofHistory]
  rw [readRam_eq, hsize, banking_replay hstart, Banking.ramPlace_ofHistory]
  simp only [hclosed]
  split
  · rfl
  · next hopen =>
    have hplace : c.banking.placeAfter c.ram.size history address < c.ram.size :=
      Nat.mod_lt _ (Nat.pos_of_ne_zero (not_or.mp hopen).1)
    exact ram_replay hstart hplace history

theorem getD_ram_made (header : Header) (rom : Array UInt8) (controller : Banking)
    (declared place : Nat) : (made header rom controller declared).ram.getD place 0xFF = 0xFF := by
  unfold made
  rw [Array.getD_eq_getD_getElem?, Array.getElem?_replicate]
  split <;> rfl

/-- The RAM of a cartridge loses nothing and mixes nothing up, for every kind of cartridge, every
    size and everything that can happen to the board. Every accepted image is such a cartridge. -/
theorem ram_of_history :
    (∀ rom c notes, load rom = (.ok c, notes) → bankingFor c.header.kind = some c.banking ∧
      c = made c.header rom c.banking c.header.ramSize) ∧
    ∀ kind controller, bankingFor kind = some controller →
      (controller = .plain → ∀ declared, fittedRam controller declared ≤ 0x2000) ∧
      ∀ (header : Header) (rom : Array UInt8) (declared : Nat) (fill : RamFill)
        (history : List Act) (address : UInt16),
        0xA000 ≤ address.toNat ∧ address.toNat < 0xC000 →
          let b := (Board.powerOn (made header rom controller declared) fill).actAll history.reverse
          let size := fittedRam controller declared
          b.read address =
            if size = 0 ∨ controller.openAfter history = false then 0xFF
            else
              let place := controller.placeAfter size history address
              (controller.lastStored size place history).getD 0xFF := by
  refine ⟨?accepted, ?held⟩
  case accepted =>
    intro rom c notes h
    have hloaded := loadedFrom_of_load h
    exact ⟨hloaded.banking, hloaded.eq_made⟩
  case held =>
    intro kind controller hkind
    constructor
    · rintro rfl declared
      exact Nat.min_le_right _ _
    · intro header rom declared fill history address harea b size
      let c := made header rom controller declared
      have hsize : c.ram.size = size := Array.size_replicate
      have hread := c.readRam_replay (reset_of_bankingFor hkind) history address
      rw [hsize] at hread
      rw [Board.read_cartridgeRam (Target.ofAddress_eq_cartridgeRam_iff.mpr harea),
        Board.cartridge_actAll_powerOn, hread]
      simp only [c, getD_ram_made]
      rfl

/-- RAM of 2 KiB keeps a byte over a reset, shows it once it is open again, also 2 KiB further up,
    and shows nothing before. -/
theorem ram_of_history_smallRam :
    (∃ c notes, load threeBankRom = (.ok c, notes) ∧
      c = made c.header threeBankRom c.banking c.header.ramSize) ∧
    bankingFor 0x03 = some (.mbc1 {}) ∧
      let b := Board.powerOn (made default #[] (.mbc1 {}) 0x800) .standard
      let stored := [Act.write 0x0000 0x0A, .write 0xA000 0x42, .reset .standard]
      (b.actAll stored).read 0xB800 = 0xFF ∧
        (b.actAll (stored ++ [.write 0x1FFF 0x0A])).read 0xB800 = 0x42 := by
  have hkind : bankingFor 0x03 = some (.mbc1 {}) := by decide
  refine ⟨?_, hkind, ?_, ?_⟩
  · rcases load_threeBankRom with ⟨c, notes, hload⟩
    exact ⟨c, notes, hload, (ram_of_history.1 _ c notes hload).2⟩
  · exact (ram_of_history.2 0x03 _ hkind).2 default #[] 0x800 .standard
      [.reset .standard, .write 0xA000 0x42, .write 0x0000 0x0A] 0xB800 (by decide)
  · exact (ram_of_history.2 0x03 _ hkind).2 default #[] 0x800 .standard
      [.write 0x1FFF 0x0A, .reset .standard, .write 0xA000 0x42, .write 0x0000 0x0A] 0xB800 (by decide)

end Cartridge

end Handheld
