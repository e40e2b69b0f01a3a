/-
Module: Handheld.Proofs.Cartridge.Ram
Purpose: Access to the RAM of a cartridge. It is closed, or every address of its area means one
  place in it, and a byte stored at a place is read back through all the addresses that mean it.
Main exports: Banking.ramEnabled, Banking.chosenRamBank, Banking.ramPlace, Cartridge.RamClosed,
  Cartridge.readRam_eq, Cartridge.writeRam_eq, Cartridge.readRam_writeRam
-/
import Handheld.Cartridge.Basic
import Mathlib.Data.Nat.ModEq

namespace Handheld

namespace Cartridge

namespace Banking

/-- The controller lets the processor at RAM. -/
def ramEnabled : Banking → Bool
  | .plain => true
  | .mbc1 r => r.ramOpen
  | .mbc5 r => r.ramOpen

/-- The RAM bank that the registers choose, whether RAM is open or not. -/
def chosenRamBank : Banking → Nat
  | .plain => 0
  | .mbc1 r => r.ramBank
  | .mbc5 r => r.ramBank.toNat

/-- The place in a RAM of `ramSize` bytes that an address of its area means. -/
def ramPlace (b : Banking) (ramSize : Nat) (address : UInt16) : Nat :=
  (b.chosenRamBank * 0x2000 + (address.toNat - 0xA000)) % ramSize

theorem ramBank?_eq (b : Banking) :
    b.ramBank? = if b.ramEnabled then some b.chosenRamBank else none := by
  cases b <;> rfl

/-- Two addresses mean the same place, whatever the bank, if they are a multiple of the
    size apart. -/
theorem ramPlace_eq_iff (b : Banking) (ramSize : Nat) (address other : UInt16) :
    b.ramPlace ramSize other = b.ramPlace ramSize address ↔
      (other.toNat - 0xA000) % ramSize = (address.toNat - 0xA000) % ramSize :=
  ⟨Nat.ModEq.add_left_cancel' _, Nat.ModEq.add_left _⟩

end Banking

/-- There is no RAM to be seen: none is fitted, or the controller keeps it closed. -/
def RamClosed (c : Cartridge) : Prop :=
  c.ram.size = 0 ∨ c.banking.ramEnabled = false

instance (c : Cartridge) : Decidable c.RamClosed :=
  inferInstanceAs (Decidable (_ ∨ _))

variable {c : Cartridge}

theorem not_ramClosed_iff : ¬ c.RamClosed ↔ c.ram.size ≠ 0 ∧ c.banking.ramEnabled = true := by
  unfold RamClosed
  rw [not_or, Bool.not_eq_false]

theorem ramOffset?_of_closed (h : c.RamClosed) (address : UInt16) :
    c.banking.ramOffset? c.ram.size address = none := by
  unfold Banking.ramOffset?
  rw [Banking.ramBank?_eq]
  rcases h with hsize | hclosed
  · rw [if_pos hsize]
  · rw [hclosed]
    exact ite_self _

theorem ramOffset?_of_open (h : ¬ c.RamClosed) (address : UInt16) :
    c.banking.ramOffset? c.ram.size address = some (c.banking.ramPlace c.ram.size address) := by
  rcases not_ramClosed_iff.mp h with ⟨hsize, henabled⟩
  unfold Banking.ramOffset?
  rw [Banking.ramBank?_eq, if_neg hsize, if_pos henabled]
  rfl

/-- What is seen through an address of the RAM area. -/
theorem readRam_eq (c : Cartridge) (address : UInt16) : c.readRam address =
    if c.RamClosed then 0xFF else c.ram.getD (c.banking.ramPlace c.ram.size address) 0xFF := by
  unfold readRam
  split
  · next hplace =>
    by_cases hclosed : c.RamClosed
    · rw [ramOffset?_of_closed hclosed] at hplace
      cases hplace
    · rw [ramOffset?_of_open hclosed] at hplace
      rw [if_neg hclosed, Option.some.inj hplace]
      rfl
  · next hnone =>
    by_cases hclosed : c.RamClosed
    · rw [if_pos hclosed]
      rfl
    · rw [ramOffset?_of_open hclosed] at hnone
      cases hnone

/-- What a write to the RAM area does. -/
theorem writeRam_eq (c : Cartridge) (address : UInt16) (value : UInt8) : c.writeRam address value =
    if c.RamClosed then c
    else { c with ram := c.ram.setIfInBounds (c.banking.ramPlace c.ram.size address) value } := by
  unfold writeRam
  by_cases hclosed : c.RamClosed
  · rw [ramOffset?_of_closed hclosed, if_pos hclosed]
  · rw [ramOffset?_of_open hclosed, if_neg hclosed]

theorem banking_writeRam (c : Cartridge) (address : UInt16) (value : UInt8) :
    (c.writeRam address value).banking = c.banking := by
  rw [writeRam_eq]
  split <;> rfl

theorem size_ram_writeRam (c : Cartridge) (address : UInt16) (value : UInt8) :
    (c.writeRam address value).ram.size = c.ram.size := by
  rw [writeRam_eq]
  split
  · rfl
  · exact Array.size_setIfInBounds

theorem rom_writeRam (c : Cartridge) (address : UInt16) (value : UInt8) :
    (c.writeRam address value).rom = c.rom := by
  rw [writeRam_eq]
  split <;> rfl

theorem header_writeRam (c : Cartridge) (address : UInt16) (value : UInt8) :
    (c.writeRam address value).header = c.header := by
  rw [writeRam_eq]
  split <;> rfl

theorem readRom_writeRam (c : Cartridge) (address : UInt16) (value : UInt8) (other : UInt16) :
    (c.writeRam address value).readRom other = c.readRom other := by
  unfold readRom
  rw [rom_writeRam, banking_writeRam]

/-- A write to the RAM area reaches the place that its address means, if RAM is open. -/
theorem getD_writeRam {place : Nat} (hplace : place < c.ram.size) (address : UInt16) (value : UInt8) :
    (c.writeRam address value).ram.getD place 0xFF =
      if c.banking.ramEnabled = true ∧ c.banking.ramPlace c.ram.size address = place then value
      else c.ram.getD place 0xFF := by
  have hfitted : c.ram.size ≠ 0 := by omega
  rw [writeRam_eq]
  by_cases henabled : c.banking.ramEnabled = true
  · rw [if_neg (not_ramClosed_iff.mpr ⟨hfitted, henabled⟩)]
    simp only [Array.getD_eq_getD_getElem?, Array.getElem?_setIfInBounds, henabled, true_and]
    by_cases hsame : c.banking.ramPlace c.ram.size address = place
    · rw [if_pos hsame, if_pos (hsame ▸ hplace), if_pos hsame]
      rfl
    · rw [if_neg hsame, if_neg hsame]
  · have hclosed : c.RamClosed := .inr ((Bool.not_eq_true _).mp henabled)
    rw [if_pos hclosed, if_neg (fun h => henabled h.1)]

/-- A byte written to open RAM is read back through every address that means its place, and through
    the others what was there before. -/
theorem readRam_writeRam (hopen : ¬ c.RamClosed) (address other : UInt16) (value : UInt8) :
    (c.writeRam address value).readRam other =
      if c.banking.ramPlace c.ram.size other = c.banking.ramPlace c.ram.size address then value
      else c.readRam other := by
  have hstill : ¬ (c.writeRam address value).RamClosed := by
    unfold RamClosed
    rw [size_ram_writeRam, banking_writeRam]
    exact hopen
  rcases not_ramClosed_iff.mp hopen with ⟨hfitted, henabled⟩
  have hplace : c.banking.ramPlace c.ram.size other < c.ram.size :=
    Nat.mod_lt _ (Nat.pos_of_ne_zero hfitted)
  rw [readRam_eq, if_neg hstill, size_ram_writeRam, banking_writeRam, readRam_eq c, if_neg hopen,
    getD_writeRam hplace]
  simp only [henabled, true_and, eq_comm]

end Cartridge

end Handheld
