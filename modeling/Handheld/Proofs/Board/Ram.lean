/-
Module: Handheld.Proofs.Board.Ram
Purpose: Work RAM and the RAM of the processor's chip keep what is written to them, and a write to
  them changes nothing else. Addresses that follow each other name different cells.
Main exports: Target.isRam, Target.ofAddress_sub_one_ne, Board.read_write_ram,
  Board.read_write_requests
-/
import Handheld.Board.Basic
import Handheld.Proofs.Processor.StepDialogue

namespace Handheld

namespace Target

/-- A cell of work RAM, or of the RAM of the processor's chip. -/
def isRam : Target → Bool
  | .wram _ | .hram _ => true
  | _ => false

theorem ofAddress_requestAddress : ofAddress requestAddress = .requests := by decide +kernel

theorem ofAddress_enableAddress : ofAddress enableAddress = .enable := by decide +kernel

variable {address : UInt16}

theorem ofHighPage_ne_wram {place : Nat} (i : Fin wramSize) : ofHighPage address place ≠ .wram i := by
  intro h
  unfold ofHighPage at h
  repeat' split at h
  all_goals cases h

theorem ofHighPage_eq_hram {place : Nat} {i : Fin hramSize}
    (h : ofHighPage address place = .hram i) : place = 0x80 + i.val := by
  unfold ofHighPage at h
  repeat' split at h
  case isFalse.isFalse.isFalse.isFalse.isTrue hplace =>
    have hcell := congrArg Fin.val (Target.hram.inj h)
    dsimp only at hcell
    omega
  all_goals cases h

theorem ofAddress_eq_wram {i : Fin wramSize} (h : ofAddress address = .wram i) :
    0xC000 ≤ address.toNat ∧ i.val = address.toNat % wramSize := by
  unfold ofAddress at h
  dsimp only at h
  repeat' split at h
  case isFalse.isFalse.isFalse.isTrue hstart hend =>
    have hcell : address.toNat % wramSize = i.val := congrArg Fin.val (Target.wram.inj h)
    exact ⟨Nat.not_lt.mp hstart, hcell.symm⟩
  all_goals first
    | exact absurd h (ofHighPage_ne_wram i)
    | cases h

theorem ofAddress_eq_hram {i : Fin hramSize} (h : ofAddress address = .hram i) :
    address.toNat = 0xFF80 + i.val := by
  unfold ofAddress at h
  dsimp only at h
  repeat' split at h
  case isFalse.isFalse.isFalse.isFalse.isFalse.isFalse hhigh =>
    have hplace := ofHighPage_eq_hram h
    omega
  all_goals cases h

/-- A cell of RAM is not named by the address below its own. -/
theorem ofAddress_sub_one_ne (h : (ofAddress address).isRam = true) :
    ofAddress (address - 1) ≠ ofAddress address := by
  intro heq
  cases hplace : ofAddress address with
  | wram i =>
      rw [hplace] at heq
      rcases ofAddress_eq_wram hplace with ⟨hstart, hcell⟩
      rcases ofAddress_eq_wram heq with ⟨-, hcell'⟩
      have hone : (1 : UInt16) ≤ address := by
        rw [UInt16.le_iff_toNat_le]
        exact Nat.le_trans (by decide) hstart
      rw [UInt16.toNat_sub_of_le _ _ hone] at hcell'
      unfold wramSize at hcell hcell'
      have hnat : (1 : UInt16).toNat = 1 := rfl
      omega
  | hram i =>
      rw [hplace] at heq
      have hcell := ofAddress_eq_hram hplace
      have hcell' := ofAddress_eq_hram heq
      exact Core.sub_one_ne address (UInt16.toNat_inj.mp (hcell'.trans hcell.symm))
  | _ =>
      rw [hplace] at h
      cases h

end Target

namespace Board

theorem get_set {size : Nat} (cells : Vector UInt8 size) (i j : Fin size) (value : UInt8) :
    (cells.set i value i.isLt).get j = if j = i then value else cells.get j := by
  by_cases hij : j = i
  · subst hij
    rw [if_pos rfl]
    exact Vector.getElem_set_self j.isLt
  · rw [if_neg hij]
    exact Vector.getElem_set_ne _ _ fun h => hij (Fin.ext h.symm)

/-- What is written to RAM is read back where it was written, and all else reads as before. -/
theorem read_write_ram (b : Board) {address : UInt16} (h : (Target.ofAddress address).isRam = true)
    (value : UInt8) (other : UInt16) :
    (b.write address value).1.read other =
      if Target.ofAddress other = Target.ofAddress address then value else b.read other := by
  unfold write read
  generalize Target.ofAddress other = target
  cases hplace : Target.ofAddress address with
  | wram i =>
      cases target with
      | wram j =>
          simp only [writeTarget, readTarget, Target.wram.injEq]
          exact get_set b.wram i j value
      | _ => exact (if_neg (by simp)).symm
  | hram i =>
      cases target with
      | hram j =>
          simp only [writeTarget, readTarget, Target.hram.injEq]
          exact get_set b.hram i j value
      | _ => exact (if_neg (by simp)).symm
  | _ =>
      rw [hplace] at h
      cases h

/-- Registers do not notice writes to RAM. -/
theorem read_write_ram_of_not_isRam (b : Board) {address other : UInt16}
    (h : (Target.ofAddress address).isRam = true) (hother : (Target.ofAddress other).isRam = false)
    (value : UInt8) : (b.write address value).1.read other = b.read other := by
  rw [read_write_ram b h, if_neg]
  intro heq
  rw [heq, h] at hother
  cases hother

theorem write_requests (b : Board) (value : UInt8) : b.write requestAddress value =
    ({ b with interrupts := b.interrupts.writeRequests value }, []) := by
  unfold write
  rw [Target.ofAddress_requestAddress]
  rfl

theorem read_requests (b : Board) : b.read requestAddress = b.interrupts.readRequests := by
  unfold read
  rw [Target.ofAddress_requestAddress]
  rfl

theorem read_enable (b : Board) : b.read enableAddress = b.interrupts.enable := by
  unfold read
  rw [Target.ofAddress_enableAddress]
  rfl

theorem write_enable (b : Board) (value : UInt8) : b.write enableAddress value =
    ({ b with interrupts := { b.interrupts with enable := value } }, []) := by
  unfold write
  rw [Target.ofAddress_enableAddress]
  rfl

/-- What is written to the request byte is read back with ones in the bits that name no line. -/
theorem read_write_requests (b : Board) (value : UInt8) (other : UInt16) :
    (b.write requestAddress value).1.read other =
      if Target.ofAddress other = .requests then value &&& 0x1F ||| 0xE0 else b.read other := by
  rw [write_requests]
  unfold read
  cases Target.ofAddress other with
  | requests => exact (if_pos rfl).symm
  | _ => exact (if_neg (by simp)).symm

end Board

end Handheld
