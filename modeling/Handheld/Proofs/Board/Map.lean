/-
Module: Handheld.Proofs.Board.Map
Purpose: The memory map read backwards. What stands at an address is said once, as a relation with
  one rule for each area and each unit; which addresses name a given cell of memory follows from it
  by cases.
Main exports: Target.StandsAt, Target.standsAt, Target.isMemory, Target.SameCell,
  Target.sameCell_iff_of_isMemory
-/
import Handheld.Proofs.Board.Ram

namespace Handheld

/-! ### The registers of the units -/

theorem Serial.Register.isSome_ofAddress?_iff {address : UInt16} :
    (Serial.Register.ofAddress? address).isSome = true ↔
      0xFF01 ≤ address.toNat ∧ address.toNat ≤ 0xFF02 := by
  unfold Serial.Register.ofAddress?
  simp only [← UInt16.toNat_inj, UInt16.reduceToNat]
  repeat' split
  all_goals simp only [Option.isSome_some, Option.isSome_none, true_iff, Bool.false_eq_true, false_iff]
  all_goals omega

theorem Timer.Register.isSome_ofAddress?_iff {address : UInt16} :
    (Timer.Register.ofAddress? address).isSome = true ↔
      0xFF04 ≤ address.toNat ∧ address.toNat ≤ 0xFF07 := by
  unfold Timer.Register.ofAddress?
  simp only [← UInt16.toNat_inj, UInt16.reduceToNat]
  repeat' split
  all_goals simp only [Option.isSome_some, Option.isSome_none, true_iff, Bool.false_eq_true, false_iff]
  all_goals omega

theorem Picture.Register.isSome_ofAddress?_iff {address : UInt16} :
    (Picture.Register.ofAddress? address).isSome = true ↔
      0xFF40 ≤ address.toNat ∧ address.toNat ≤ 0xFF4B ∧ address.toNat ≠ 0xFF46 := by
  unfold Picture.Register.ofAddress?
  split
  all_goals simp only [Option.isSome_some, Option.isSome_none, true_iff, Bool.false_eq_true,
    false_iff, imp_false] at *
  all_goals omega

namespace Target

variable {address other : UInt16} {target : Target} {ramSize : Nat}

/-! ### The areas -/

/-- What stands at an address, area by area. -/
inductive StandsAt (address : UInt16) : Target → Prop where
  | rom (high : address.toNat < 0x8000) : StandsAt address .rom
  | vram (i : Fin Picture.vramSize) (high : address.toNat < 0xA000)
      (h : address.toNat = 0x8000 + i.val) : StandsAt address (.vram i)
  | cartridgeRam (low : 0xA000 ≤ address.toNat) (high : address.toNat < 0xC000) :
      StandsAt address .cartridgeRam
  | wram (i : Fin wramSize) (low : 0xC000 ≤ address.toNat) (high : address.toNat < 0xFE00)
      (h : address.toNat % wramSize = i.val) : StandsAt address (.wram i)
  | oam (i : Fin Picture.oamSize) (high : address.toNat < 0xFEA0)
      (h : address.toNat = 0xFE00 + i.val) : StandsAt address (.oam i)
  | joypad (h : address.toNat = 0xFF00) : StandsAt address .joypad
  | serial (register : Serial.Register) (low : 0xFF01 ≤ address.toNat)
      (high : address.toNat ≤ 0xFF02) (h : Serial.Register.ofAddress? address = some register) :
      StandsAt address (.serial register)
  | timer (register : Timer.Register) (low : 0xFF04 ≤ address.toNat) (high : address.toNat ≤ 0xFF07)
      (h : Timer.Register.ofAddress? address = some register) : StandsAt address (.timer register)
  | requests (h : address.toNat = 0xFF0F) : StandsAt address .requests
  | sound (i : Fin soundSize) (high : address.toNat < 0xFF40) (h : address.toNat = 0xFF10 + i.val) :
      StandsAt address (.sound i)
  | transfer (h : address.toNat = 0xFF46) : StandsAt address .transfer
  | picture (register : Picture.Register) (low : 0xFF40 ≤ address.toNat)
      (high : address.toNat ≤ 0xFF4B) (hother : address.toNat ≠ 0xFF46)
      (h : Picture.Register.ofAddress? address = some register) :
      StandsAt address (.picture register)
  | hram (i : Fin hramSize) (high : address.toNat < 0xFFFF) (h : address.toNat = 0xFF80 + i.val) :
      StandsAt address (.hram i)
  | enable (h : address.toNat = 0xFFFF) : StandsAt address .enable
  | nothing (h : 0xFEA0 ≤ address.toNat ∧ address.toNat ≤ 0xFEFF ∨ address.toNat = 0xFF03 ∨
      0xFF08 ≤ address.toNat ∧ address.toNat ≤ 0xFF0E ∨
      0xFF4C ≤ address.toNat ∧ address.toNat ≤ 0xFF7F) : StandsAt address .nothing

/-- The last page, as the units have it. -/
theorem standsAt_ofHighPage (low : 0xFF00 ≤ address.toNat) :
    StandsAt address (ofHighPage address (address.toNat - 0xFF00)) := by
  have hlt : address.toNat < 0x10000 := address.toNat_lt
  have hsound : soundSize = 0x30 := rfl
  have hsize : hramSize = 0x7F := rfl
  unfold ofHighPage
  split
  · exact .joypad (by omega)
  split
  · exact .requests (by omega)
  split
  · exact .sound _ (by omega) (by dsimp only; omega)
  split
  · exact .transfer (by omega)
  split
  · exact .hram _ (by omega) (by dsimp only; omega)
  split
  · exact .enable (by omega)
  -- what is left are the registers that each unit tells by address, and the gaps between them
  have hserial := @Serial.Register.isSome_ofAddress?_iff address
  have htimer := @Timer.Register.isSome_ofAddress?_iff address
  have hpicture := @Picture.Register.isSome_ofAddress?_iff address
  split
  · next register hregister =>
    rw [hregister] at hserial
    rcases hserial.mp rfl with ⟨hlow, hhigh⟩
    exact .serial register hlow hhigh hregister
  · next register _ hregister =>
    rw [hregister] at htimer
    rcases htimer.mp rfl with ⟨hlow, hhigh⟩
    exact .timer register hlow hhigh hregister
  · next register _ _ hregister =>
    rw [hregister] at hpicture
    rcases hpicture.mp rfl with ⟨hlow, hhigh, hother⟩
    exact .picture register hlow hhigh hother hregister
  · next hnone hnone' hnone'' =>
    simp only [hnone, hnone', hnone'', Option.isSome_none, Bool.false_eq_true, false_iff] at *
    exact .nothing (by omega)

/-- The memory map, as the areas have it. -/
theorem standsAt (address : UInt16) : StandsAt address (ofAddress address) := by
  unfold ofAddress
  dsimp only
  split
  · next hrom => exact .rom hrom
  split
  · next hvram =>
    apply StandsAt.vram _ hvram
    simp only [Picture.vramSize]
    omega
  split
  · next hram => exact .cartridgeRam (by omega) hram
  split
  · next hwork => exact .wram _ (by omega) hwork rfl
  split
  · next hoam => exact .oam _ hoam (by dsimp only; omega)
  have hgap : 0xFEA0 ≤ address.toNat := by
    simp only [Picture.oamSize] at *
    omega
  split
  · exact .nothing (.inl ⟨hgap, by omega⟩)
  · exact standsAt_ofHighPage (by omega)

theorem standsAt_of_eq (h : ofAddress address = target) : StandsAt address target :=
  h ▸ standsAt address

/-- The ROM area of the cartridge. -/
theorem ofAddress_eq_rom_iff : ofAddress address = .rom ↔ address.toNat < 0x8000 := by
  constructor
  · intro h
    cases standsAt_of_eq h with
    | rom high => exact high
  · intro high
    unfold ofAddress
    exact if_pos high

/-- The RAM area of the cartridge. -/
theorem ofAddress_eq_cartridgeRam_iff :
    ofAddress address = .cartridgeRam ↔ 0xA000 ≤ address.toNat ∧ address.toNat < 0xC000 := by
  constructor
  · intro h
    cases standsAt_of_eq h with
    | cartridgeRam low high => exact ⟨low, high⟩
  · rintro ⟨low, high⟩
    generalize htarget : ofAddress address = target
    cases standsAt_of_eq htarget with
    | cartridgeRam => rfl
    | _ => omega

/-- Video memory. -/
theorem ofAddress_eq_vram_iff {i : Fin Picture.vramSize} :
    ofAddress address = .vram i ↔ address.toNat = 0x8000 + i.val := by
  have hi : i.val < 0x2000 := i.isLt
  constructor
  · intro h
    cases standsAt_of_eq h with
    | vram _ high h => exact h
  · intro h
    generalize htarget : ofAddress address = target
    cases standsAt_of_eq htarget with
    | vram j _ hj =>
        obtain rfl : j = i := Fin.ext (by omega)
        rfl
    | _ => omega

/-- The sprite table. -/
theorem ofAddress_eq_oam_iff {i : Fin Picture.oamSize} :
    ofAddress address = .oam i ↔ address.toNat = 0xFE00 + i.val := by
  have hi : i.val < 0xA0 := i.isLt
  constructor
  · intro h
    cases standsAt_of_eq h with
    | oam _ high h => exact h
  · intro h
    generalize htarget : ofAddress address = target
    cases standsAt_of_eq htarget with
    | oam j _ hj =>
        obtain rfl : j = i := Fin.ext (by omega)
        rfl
    | _ => omega

/-- Work RAM, at both of its places. -/
theorem ofAddress_eq_wram_iff {i : Fin wramSize} : ofAddress address = .wram i ↔
    0xC000 ≤ address.toNat ∧ address.toNat < 0xFE00 ∧ address.toNat % wramSize = i.val := by
  constructor
  · intro h
    cases standsAt_of_eq h with
    | wram _ low high h => exact ⟨low, high, h⟩
  · rintro ⟨low, high, h⟩
    generalize htarget : ofAddress address = target
    cases standsAt_of_eq htarget with
    | wram j _ _ hj =>
        obtain rfl : j = i := Fin.ext (hj.symm.trans h)
        rfl
    | _ => omega

/-- The RAM of the processor's chip. -/
theorem ofAddress_eq_hram_iff {i : Fin hramSize} :
    ofAddress address = .hram i ↔ address.toNat = 0xFF80 + i.val := by
  have hi : i.val < 0x7F := i.isLt
  constructor
  · exact ofAddress_eq_hram
  · intro h
    generalize htarget : ofAddress address = target
    cases standsAt_of_eq htarget with
    | hram j _ hj =>
        obtain rfl : j = i := Fin.ext (by omega)
        rfl
    | _ => omega

theorem exists_vram (low : 0x8000 ≤ address.toNat) (high : address.toNat < 0xA000) :
    ∃ i, ofAddress address = .vram i := by
  have hcell : address.toNat - 0x8000 < Picture.vramSize := by
    simp only [Picture.vramSize]
    omega
  exact ⟨⟨_, hcell⟩, ofAddress_eq_vram_iff.mpr (by dsimp only; omega)⟩

theorem exists_oam (low : 0xFE00 ≤ address.toNat) (high : address.toNat < 0xFEA0) :
    ∃ i, ofAddress address = .oam i := by
  have hcell : address.toNat - 0xFE00 < Picture.oamSize := by
    simp only [Picture.oamSize]
    omega
  exact ⟨⟨_, hcell⟩, ofAddress_eq_oam_iff.mpr (by dsimp only; omega)⟩

theorem exists_wram (low : 0xC000 ≤ address.toNat) (high : address.toNat < 0xFE00) :
    ∃ i, ofAddress address = .wram i :=
  ⟨⟨_, Nat.mod_lt _ (by decide)⟩, ofAddress_eq_wram_iff.mpr ⟨low, high, rfl⟩⟩

theorem exists_hram (low : 0xFF80 ≤ address.toNat) (high : address.toNat < 0xFFFF) :
    ∃ i, ofAddress address = .hram i := by
  have hcell : address.toNat - 0xFF80 < hramSize := by
    simp only [hramSize]
    omega
  exact ⟨⟨_, hcell⟩, ofAddress_eq_hram_iff.mpr (by dsimp only; omega)⟩

/-! ### Cells with more than one address -/

/-- A cell of one of the board's own memories. -/
def isMemory : Target → Bool
  | .vram _ | .wram _ | .oam _ | .hram _ => true
  | _ => false

/-- Two addresses name the same cell, on a board with `ramSize` bytes of cartridge RAM. -/
inductive SameCell (ramSize : Nat) : UInt16 → UInt16 → Prop where
  | refl (address : UInt16) : SameCell ramSize address address
  /-- All but the end of work RAM is seen a second time further up. -/
  | echo {address : UInt16} (low : 0xC000 ≤ address.toNat) (high : address.toNat < 0xDE00) :
      SameCell ramSize address (address + 0x2000)
  | echoed {address : UInt16} (low : 0xC000 ≤ address.toNat) (high : address.toNat < 0xDE00) :
      SameCell ramSize (address + 0x2000) address
  /-- A small cartridge RAM is seen again and again within its area. -/
  | cartridgeRam {address other : UInt16}
      (low : 0xA000 ≤ address.toNat) (high : address.toNat < 0xC000)
      (low' : 0xA000 ≤ other.toNat) (high' : other.toNat < 0xC000)
      (h : (other.toNat - 0xA000) % ramSize = (address.toNat - 0xA000) % ramSize) :
      SameCell ramSize address other

theorem toNat_add_echo (high : address.toNat < 0xDE00) :
    (address + 0x2000).toNat = address.toNat + 0x2000 := by
  have hecho : (0x2000 : UInt16).toNat = 0x2000 := rfl
  rw [UInt16.toNat_add, hecho]
  exact Nat.mod_eq_of_lt (by omega)

/-- Within the RAM area of the cartridge the offset counts, modulo the size of the RAM. -/
theorem sameCell_iff_of_cartridgeRam (low : 0xA000 ≤ address.toNat) (high : address.toNat < 0xC000) :
    SameCell ramSize address other ↔ 0xA000 ≤ other.toNat ∧ other.toNat < 0xC000 ∧
      (other.toNat - 0xA000) % ramSize = (address.toNat - 0xA000) % ramSize := by
  constructor
  · intro hsame
    cases hsame with
    | refl => exact ⟨low, high, rfl⟩
    | echo low' high' => omega
    | echoed low' high' =>
        rw [toNat_add_echo high'] at high
        omega
    | cartridgeRam _ _ low' high' h => exact ⟨low', high', h⟩
  · rintro ⟨low', high', h⟩
    exact .cartridgeRam low high low' high' h

/-- Outside work RAM and cartridge RAM every cell has one address. -/
theorem sameCell_iff_eq (h : address.toNat < 0xA000 ∨ 0xFE00 ≤ address.toNat) :
    SameCell ramSize address other ↔ other = address := by
  constructor
  · intro hsame
    cases hsame with
    | refl => rfl
    | echo low high => omega
    | echoed low high =>
        rw [toNat_add_echo high] at h
        omega
    | cartridgeRam low high => omega
  · rintro rfl
    exact .refl other

theorem sameCell_iff_of_wram (low : 0xC000 ≤ address.toNat) (high : address.toNat < 0xFE00) :
    SameCell ramSize address other ↔
      0xC000 ≤ other.toNat ∧ other.toNat < 0xFE00 ∧
        other.toNat % wramSize = address.toNat % wramSize := by
  unfold wramSize
  constructor
  · intro hsame
    cases hsame with
    | refl => exact ⟨low, high, rfl⟩
    | echo low high =>
        rw [toNat_add_echo high]
        omega
    | echoed low' high' =>
        rw [toNat_add_echo high']
        omega
    | cartridgeRam low' high' => omega
  · rintro ⟨low', high', hcell⟩
    by_cases hbelow : address.toNat < other.toNat
    · obtain rfl : other = address + 0x2000 := by
        apply UInt16.toNat_inj.mp
        rw [toNat_add_echo (by omega)]
        omega
      exact .echo low (by omega)
    · by_cases habove : other.toNat < address.toNat
      · obtain rfl : address = other + 0x2000 := by
          apply UInt16.toNat_inj.mp
          rw [toNat_add_echo (by omega)]
          omega
        exact .echoed low' (by omega)
      · obtain rfl : other = address := UInt16.toNat_inj.mp (by omega)
        exact .refl other

/-- Two addresses name the same cell of a memory if the memory map has the same target for them. -/
theorem sameCell_iff_of_isMemory (h : (ofAddress address).isMemory = true) :
    SameCell ramSize address other ↔ ofAddress other = ofAddress address := by
  cases hplace : ofAddress address with
  | vram i =>
      have haddress := ofAddress_eq_vram_iff.mp hplace
      have hi : i.val < 0x2000 := i.isLt
      rw [sameCell_iff_eq (.inl (by omega)), ofAddress_eq_vram_iff, ← haddress, UInt16.toNat_inj]
  | wram i =>
      rcases ofAddress_eq_wram_iff.mp hplace with ⟨low, high, hcell⟩
      rw [sameCell_iff_of_wram low high, ofAddress_eq_wram_iff, hcell]
  | oam i =>
      have haddress := ofAddress_eq_oam_iff.mp hplace
      rw [sameCell_iff_eq (.inr (by omega)), ofAddress_eq_oam_iff, ← haddress, UInt16.toNat_inj]
  | hram i =>
      have haddress := ofAddress_eq_hram_iff.mp hplace
      rw [sameCell_iff_eq (.inr (by omega)), ofAddress_eq_hram_iff, ← haddress, UInt16.toNat_inj]
  | _ =>
      rw [hplace] at h
      cases h

end Target

end Handheld
