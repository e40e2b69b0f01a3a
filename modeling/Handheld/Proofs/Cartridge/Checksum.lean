/-
Module: Handheld.Proofs.Cartridge.Checksum
Purpose: What the header checksum protects. The stored byte balances the bytes in front of it, so the
  checksum holds if and only if the protected bytes, the stored one among them, come to a multiple of
  256 together with their number. A change of one byte upsets the balance; the header does not hang on
  any byte outside the protected ones.
Main exports: Cartridge.protectedSum, Cartridge.checksum_balance, Cartridge.protectedSum_set,
  Cartridge.Header.checksumOk_ofImage_iff, Cartridge.Header.ofImage_congr,
  Cartridge.Header.checksum_protects
-/
import Handheld.Cartridge.Header
import Mathlib.Algebra.BigOperators.Intervals

namespace Handheld.Cartridge

/-- The sum of the bytes from the title to the stored checksum, as a number. -/
def protectedSum (rom : Array UInt8) : Nat :=
  ∑ i ∈ Finset.Icc 0x134 0x14D, (rom.getD i 0).toNat

variable {rom other : Array UInt8} {start count i : Nat} {value : UInt8}

/-- Each byte takes itself and one more from the sum so far. -/
theorem foldl_balance (bytes : List UInt8) (sum : UInt8) :
    ((bytes.foldl (fun sum b => sum - b - 1) sum).toNat + (bytes.map UInt8.toNat).sum +
      bytes.length) % 256 = sum.toNat := by
  induction bytes generalizing sum with
  | nil => exact Nat.mod_eq_of_lt sum.toNat_lt
  | cons b rest ih =>
      have hone : (1 : UInt8).toNat = 1 := rfl
      have hstep : (sum - b - 1).toNat = (256 - 1 + (256 - b.toNat + sum.toNat) % 256) % 256 := by
        rw [UInt8.toNat_sub, UInt8.toNat_sub, hone]
      have hrest := ih (sum - b - 1)
      have hb := b.toNat_lt
      have hsum := sum.toNat_lt
      simp only [List.foldl_cons, List.map_cons, List.sum_cons, List.length_cons]
      omega

/-- The checksum of some bytes, the bytes and their number come to a multiple of 256. -/
theorem checksum_balance (bytes : List UInt8) :
    ((checksum bytes).toNat + (bytes.map UInt8.toNat).sum + bytes.length) % 256 = 0 :=
  foldl_balance bytes 0

theorem sum_bytesFrom : ((bytesFrom rom start count).map UInt8.toNat).sum =
    ∑ i ∈ Finset.Ico start (start + count), (rom.getD i 0).toNat := by
  rw [Finset.sum_Ico_eq_sum_range, Nat.add_sub_cancel_left]
  unfold bytesFrom
  rw [List.map_map]
  rfl

theorem length_bytesFrom : (bytesFrom rom start count).length = count := by
  simp [bytesFrom]

/-- The protected bytes are those that the checksum is computed of and the stored one behind them. -/
theorem protectedSum_eq : protectedSum rom =
    ((bytesFrom rom 0x134 25).map UInt8.toNat).sum + (rom.getD 0x14D 0).toNat := by
  have hlast : Finset.Icc 0x134 0x14D = Finset.Ico 0x134 (0x14D + 1) := rfl
  rw [sum_bytesFrom, protectedSum, hlast, Finset.sum_Ico_succ_top (by decide)]

theorem getD_setIfInBounds (hi : i < rom.size) (j : Nat) :
    (rom.setIfInBounds i value).getD j 0 = if i = j then value else rom.getD j 0 := by
  simp only [Array.getD_eq_getD_getElem?, Array.getElem?_setIfInBounds, hi, if_true]
  split <;> rfl

/-- One byte is exchanged for another. -/
theorem protectedSum_set (hi : i < rom.size) (low : 0x134 ≤ i) (high : i ≤ 0x14D) :
    protectedSum (rom.setIfInBounds i value) + (rom.getD i 0).toNat =
      protectedSum rom + value.toNat := by
  have hmem : i ∈ Finset.Icc 0x134 0x14D := Finset.mem_Icc.mpr ⟨low, high⟩
  have hrest : ∀ j ∈ (Finset.Icc 0x134 0x14D).erase i,
      ((rom.setIfInBounds i value).getD j 0).toNat = (rom.getD j 0).toNat := by
    intro j hj
    rw [getD_setIfInBounds hi, if_neg (Finset.ne_of_mem_erase hj).symm]
  unfold protectedSum
  rw [← Finset.add_sum_erase _ _ hmem, ← Finset.add_sum_erase _ _ hmem, Finset.sum_congr rfl hrest,
    getD_setIfInBounds hi, if_pos rfl]
  omega

namespace Header

theorem parse_eq (hsize : headerEnd ≤ rom.size) : parse rom = .ok (ofImage rom) :=
  parse_eq_ok_iff.mpr ⟨hsize, rfl⟩

/-- The checksum holds if and only if the protected bytes balance. -/
theorem checksumOk_ofImage_iff :
    (ofImage rom).checksumOk = true ↔ (protectedSum rom + 25) % 256 = 0 := by
  have hbalance := checksum_balance (bytesFrom rom 0x134 25)
  have hstored := (rom.getD 0x14D 0).toNat_lt
  have hcomputed := (checksum (bytesFrom rom 0x134 25)).toNat_lt
  have hok : (ofImage rom).checksumOk = true ↔
      (rom.getD 0x14D 0).toNat = (checksum (bytesFrom rom 0x134 25)).toNat :=
    beq_iff_eq.trans UInt8.toNat_inj.symm
  rw [length_bytesFrom] at hbalance
  rw [hok, protectedSum_eq]
  omega

/-- The header hangs on the protected bytes alone. -/
theorem ofImage_congr (h : ∀ i, 0x134 ≤ i → i ≤ 0x14D → other.getD i 0 = rom.getD i 0) :
    ofImage other = ofImage rom := by
  have hbytes {count : Nat} (hcount : count ≤ 25) :
      bytesFrom other 0x134 count = bytesFrom rom 0x134 count := by
    apply List.map_congr_left
    intro i hi
    have hlt := List.mem_range.mp hi
    exact h (0x134 + i) (by omega) (by omega)
  unfold ofImage
  rw [hbytes (by decide), hbytes (by decide), h 0x147 (by decide) (by decide),
    h 0x148 (by decide) (by decide), h 0x149 (by decide) (by decide), h 0x14D (by decide) (by decide)]

/-- The checksum of every image that has a header. It holds if and only if the bytes from 0x134 to
    0x14D and 25 come to a multiple of 256. If it holds, it does no longer when any single one of
    these bytes is exchanged for another; and whatever is changed elsewhere, the header stays the
    same. -/
theorem checksum_protects (rom : Array UInt8) (hsize : headerEnd ≤ rom.size) :
    ∃ header, parse rom = .ok header ∧
      (header.checksumOk = true ↔
        ((∑ i ∈ Finset.Icc 0x134 0x14D, (rom.getD i 0).toNat) + 25) % 256 = 0) ∧
      (header.checksumOk = true →
        ∀ i value, 0x134 ≤ i → i ≤ 0x14D → value ≠ rom.getD i 0 →
          ∃ changed, parse (rom.setIfInBounds i value) = .ok changed ∧ changed.checksumOk = false) ∧
      (∀ other : Array UInt8, other.size = rom.size →
        (∀ i, 0x134 ≤ i → i ≤ 0x14D → other.getD i 0 = rom.getD i 0) →
          parse other = .ok header) := by
  refine ⟨ofImage rom, parse_eq hsize, checksumOk_ofImage_iff, ?changed, ?elsewhere⟩
  case changed =>
    intro hok i value low high hother
    have hi : i < rom.size := by
      unfold headerEnd at hsize
      omega
    have hsize' : headerEnd ≤ (rom.setIfInBounds i value).size := by
      rwa [Array.size_setIfInBounds]
    refine ⟨ofImage (rom.setIfInBounds i value), parse_eq hsize', ?_⟩
    have hbalanced := checksumOk_ofImage_iff.mp hok
    have hexchange : protectedSum (rom.setIfInBounds i value) + (rom.getD i 0).toNat =
        protectedSum rom + value.toNat := protectedSum_set hi low high
    have hdiffer : value.toNat ≠ (rom.getD i 0).toNat := fun heq => hother (UInt8.toNat_inj.mp heq)
    have hnew := value.toNat_lt
    have hold := (rom.getD i 0).toNat_lt
    rw [← Bool.not_eq_true, checksumOk_ofImage_iff]
    omega
  case elsewhere =>
    intro other hother hsame
    rw [parse_eq (hother.symm ▸ hsize), ofImage_congr hsame]

/-- An image without a title that has its checksum: 0xE7 and 25 come to 256. -/
def untitledRom : Array UInt8 :=
  (Array.replicate headerEnd 0).setIfInBounds 0x14D 0xE7

/-- The first and the last of the protected bytes are exchanged, and the bytes on either side. -/
theorem checksum_protects_untitled : headerEnd ≤ untitledRom.size ∧
    ∃ header, parse untitledRom = .ok header ∧ header.checksumOk = true ∧
      (∃ changed, parse (untitledRom.setIfInBounds 0x134 0x41) = .ok changed ∧
        changed.checksumOk = false) ∧
      (∃ changed, parse (untitledRom.setIfInBounds 0x14D 0xE8) = .ok changed ∧
        changed.checksumOk = false) ∧
      parse ((untitledRom.setIfInBounds 0x133 0x41).setIfInBounds 0x14E 0x41) = .ok header := by
  have hsize : headerEnd ≤ untitledRom.size := by
    unfold untitledRom
    rw [Array.size_setIfInBounds, Array.size_replicate]
  obtain ⟨header, hparse, hiff, hchanged, helsewhere⟩ := checksum_protects untitledRom hsize
  have hok : header.checksumOk = true := hiff.mpr (by decide +kernel)
  have hlast : (0xE8 : UInt8) ≠ untitledRom.getD 0x14D 0 := by decide +kernel
  have hfirst : (0x41 : UInt8) ≠ untitledRom.getD 0x134 0 := by decide +kernel
  refine ⟨hsize, header, hparse, hok, hchanged hok 0x134 0x41 (by decide) (by decide) hfirst,
    hchanged hok 0x14D 0xE8 (by decide) (by decide) hlast, helsewhere _ ?size fun i low high => ?same⟩
  case size =>
    rw [Array.size_setIfInBounds, Array.size_setIfInBounds]
  case same =>
    have hbehind : 0x14E < (untitledRom.setIfInBounds 0x133 0x41).size := by
      rw [Array.size_setIfInBounds]
      exact hsize.trans_lt' (by decide)
    rw [getD_setIfInBounds hbehind, if_neg (by omega),
      getD_setIfInBounds (hsize.trans_lt' (by decide)), if_neg (by omega)]

end Header

end Handheld.Cartridge
