/-
Module: Handheld.Proofs.Board.Store
Purpose: Memory as the processor sees it. What is written to a cell that is open is read back at
  every address of the cell, and everything else reads as before; a write to a cell that is closed,
  or to an address where nothing stands, changes nothing at all.
Main exports: Picture.SelectsSources, Board.modeBits, Board.Stores, Board.Ignores, Target.Vacant,
  Board.read_after_write
-/
import Handheld.Proofs.Board.Map
import Handheld.Proofs.Cartridge.Ram
import Handheld.Proofs.Console.Units

namespace Handheld

theorem or_and_distrib (a b mask : UInt8) : (a ||| b) &&& mask = a &&& mask ||| b &&& mask := by
  apply UInt8.toNat_inj.mp
  simp only [UInt8.toNat_and, UInt8.toNat_or]
  exact Nat.and_or_distrib_right _ _ _

/-! ### Memories of the picture unit -/

namespace Picture

variable {u : Picture}

theorem readVram_writeVram (hopen : u.vramOpen = true) (i j : Fin vramSize) (value : UInt8) :
    (u.writeVram i value).readVram j = if j = i then value else u.readVram j := by
  have hstill : ({ u with vram := u.vram.set i value } : Picture).vramOpen = true := hopen
  unfold writeVram readVram
  rw [if_pos hopen, if_pos hstill, if_pos hopen]
  exact Board.get_set u.vram i j value

theorem writeVram_of_closed (hclosed : ¬ u.vramOpen = true) (i : Fin vramSize) (value : UInt8) :
    u.writeVram i value = u :=
  if_neg hclosed

theorem readVram_of_closed (hclosed : ¬ u.vramOpen = true) (i : Fin vramSize) :
    u.readVram i = 0xFF :=
  if_neg hclosed

theorem writeOam_of_closed (hclosed : ¬ u.oamOpen = true) (i : Fin oamSize) (value : UInt8) :
    u.writeOam i value = u :=
  if_neg hclosed

theorem readOam_of_closed (hclosed : ¬ u.oamOpen = true) (i : Fin oamSize) :
    u.readOam i = 0xFF :=
  if_neg hclosed

theorem readOam_writeOam (hopen : u.oamOpen = true) (i j : Fin oamSize) (value : UInt8) :
    (u.writeOam i value).readOam j = if j = i then value else u.readOam j := by
  have hstill : ({ u with oam := u.oam.set i value } : Picture).oamOpen = true := hopen
  unfold writeOam readOam
  rw [if_pos hopen, if_pos hstill, if_pos hopen]
  exact Board.get_set u.oam i j value

/-- The stored selection of status sources has none of the bits of STAT that cannot be written. -/
def SelectsSources (u : Picture) : Prop :=
  u.statSelect &&& 0x78 = u.statSelect

theorem statSelect_nextDot (u : Picture) : u.nextDot.1.statSelect = u.statSelect := by
  unfold nextDot nextLine enterVBlank
  dsimp only
  repeat' split
  all_goals rfl

theorem statSelect_dot (u : Picture) : (u.play .dot).1.statSelect = u.statSelect := by
  cases hon : u.lcdOn with
  | true =>
      rw [play, advance_one hon]
      exact statSelect_nextDot u
  | false =>
      rw [play, advance_of_off hon]
      rfl

/-- A write to STAT replaces the selection, and nothing else touches it. -/
theorem statSelect_play (u : Picture) (beat : Beat) :
    (u.play beat).1.statSelect = u.statSelect ∨
      ∃ value, (u.play beat).1.statSelect = value &&& 0x78 := by
  cases beat with
  | dot => exact .inl (statSelect_dot u)
  | write register value =>
      cases register with
      | stat => exact .inr ⟨value, rfl⟩
      | lcdc =>
          left
          simp only [play, write, writeLcdc, setLcd]
          repeat' split
          all_goals rfl
      | _ => exact .inl rfl
  | writeVram i value =>
      left
      simp only [play, writeVram]
      split <;> rfl
  | writeOam i value =>
      left
      simp only [play, writeOam]
      split <;> rfl
  | _ => exact .inl rfl

theorem selectsSources_of_reachable (h : Reachable u) : u.SelectsSources := by
  apply h.keeps
  · rfl
  · intro u beat _ hu
    rcases statSelect_play u beat with hsame | ⟨value, hvalue⟩
    · unfold SelectsSources
      rw [hsame]
      exact hu
    · unfold SelectsSources
      rw [hvalue, UInt8.and_assoc]
      rfl

/-- The two lowest bits of STAT are the mode that the processor is shown. -/
theorem statByte_and_three (h : u.SelectsSources) : u.statByte &&& 3 = u.visibleMode.code := by
  have hselect : u.statSelect &&& 3 = 0 := by
    rw [← h, UInt8.and_assoc]
    exact UInt8.and_zero
  have hcompare : (if u.ly == u.lyc then 0x04 else 0 : UInt8) &&& 3 = 0 := by
    split <;> rfl
  have hcode : u.visibleMode.code &&& 3 = u.visibleMode.code := by
    cases u.visibleMode <;> rfl
  have hfirst : (0x80 : UInt8) &&& 3 = 0 := rfl
  unfold statByte
  rw [or_and_distrib, or_and_distrib, or_and_distrib, hfirst, hselect, hcompare, hcode]
  simp

end Picture

/-! ### Addresses without anything behind them -/

namespace Target

/-- The addresses that no cell and no register stands at. -/
def Vacant (address : UInt16) : Prop :=
  0xFEA0 ≤ address.toNat ∧ address.toNat ≤ 0xFEFF ∨ address.toNat = 0xFF03 ∨
    0xFF08 ≤ address.toNat ∧ address.toNat ≤ 0xFF0E ∨ address.toNat = 0xFF15 ∨
    address.toNat = 0xFF1F ∨ 0xFF27 ≤ address.toNat ∧ address.toNat ≤ 0xFF2F ∨
    0xFF4C ≤ address.toNat ∧ address.toNat ≤ 0xFF7F

/-- No unit answers, or the sound unit has no register there. -/
def isEmpty : Target → Bool
  | .nothing => true
  | .sound i => Sound.roleOf i == .absent
  | _ => false

theorem isEmpty_of_vacant {address : UInt16} (h : Vacant address) :
    (ofAddress address).isEmpty = true := by
  unfold Vacant at h
  generalize htarget : ofAddress address = target
  cases standsAt_of_eq htarget with
  | nothing => rfl
  | sound i =>
      have hrole : Sound.roleOf i = .absent := by
        unfold Sound.roleOf
        split
        · rfl
        · rw [if_neg (by omega), if_neg (by omega), if_pos (by omega)]
      exact beq_iff_eq.mpr hrole
  | _ => omega

end Target

namespace Board

variable {b : Board} {address : UInt16}

theorem write_of_isEmpty (h : (Target.ofAddress address).isEmpty = true) (value : UInt8) :
    b.write address value = (b, []) ∧ b.read address = 0xFF := by
  unfold write read
  cases hplace : Target.ofAddress address with
  | nothing => exact ⟨rfl, rfl⟩
  | sound i =>
      rw [hplace] at h
      have hrole : Sound.roleOf i = .absent := beq_iff_eq.mp h
      simp [writeTarget, readTarget, Sound.write, Sound.read, hrole]
  | _ =>
      rw [hplace] at h
      cases h

/-! ### Open and closed memory -/

/-- The mode of the picture unit, as the processor reads it in STAT. -/
def modeBits (b : Board) : UInt8 :=
  b.read 0xFF41 &&& 3

theorem modeBits_eq (h : b.picture.SelectsSources) : b.modeBits = b.picture.visibleMode.code := by
  have htarget : Target.ofAddress 0xFF41 = .picture .stat := by decide +kernel
  unfold modeBits read
  rw [htarget]
  exact Picture.statByte_and_three h

theorem vramOpen_iff (h : b.picture.SelectsSources) :
    b.picture.vramOpen = true ↔ b.modeBits ≠ 3 := by
  rw [modeBits_eq h]
  unfold Picture.vramOpen
  cases b.picture.visibleMode <;> decide

theorem oamOpen_iff (h : b.picture.SelectsSources) :
    b.picture.oamOpen = true ↔ b.modeBits = 0 ∨ b.modeBits = 1 := by
  rw [modeBits_eq h]
  unfold Picture.oamOpen
  cases b.picture.visibleMode <;> decide

/-- The addresses at which what is written is kept. -/
inductive Stores (b : Board) (address : UInt16) : Prop where
  | wram (low : 0xC000 ≤ address.toNat) (high : address.toNat ≤ 0xFDFF)
  | hram (low : 0xFF80 ≤ address.toNat) (high : address.toNat ≤ 0xFFFE)
  | vram (low : 0x8000 ≤ address.toNat) (high : address.toNat ≤ 0x9FFF) (hmode : b.modeBits ≠ 3)
  | oam (low : 0xFE00 ≤ address.toNat) (high : address.toNat ≤ 0xFE9F)
      (hmode : b.modeBits = 0 ∨ b.modeBits = 1)
  | cartridgeRam (low : 0xA000 ≤ address.toNat) (high : address.toNat ≤ 0xBFFF)
      (hfitted : b.cartridge.ram.size ≠ 0) (henabled : b.cartridge.banking.ramEnabled = true)

/-- The addresses at which a write comes to nothing. -/
inductive Ignores (b : Board) (address : UInt16) : Prop where
  | vram (low : 0x8000 ≤ address.toNat) (high : address.toNat ≤ 0x9FFF) (hmode : b.modeBits = 3)
  | oam (low : 0xFE00 ≤ address.toNat) (high : address.toNat ≤ 0xFE9F)
      (hmode : b.modeBits = 2 ∨ b.modeBits = 3)
  | cartridgeRam (low : 0xA000 ≤ address.toNat) (high : address.toNat ≤ 0xBFFF)
      (hclosed : b.cartridge.ram.size = 0 ∨ b.cartridge.banking.ramEnabled = false)
  | vacant (h : Target.Vacant address)

/-- A cell of one of the board's memories, while the processor can get at it. -/
def keeps (b : Board) : Target → Bool
  | .wram _ | .hram _ => true
  | .vram _ => b.picture.vramOpen
  | .oam _ => b.picture.oamOpen
  | _ => false

theorem isMemory_of_keeps {target : Target} (h : b.keeps target = true) :
    target.isMemory = true := by
  cases target with
  | vram | wram | oam | hram => rfl
  | _ => cases h

/-- What is written to an open cell is read back where it was written, and all else reads as
    before. -/
theorem read_write_of_keeps (h : b.keeps (Target.ofAddress address) = true) (value : UInt8)
    (other : UInt16) : (b.write address value).1.read other =
      if Target.ofAddress other = Target.ofAddress address then value else b.read other := by
  by_cases hram : (Target.ofAddress address).isRam = true
  · exact read_write_ram b hram value other
  unfold write read
  generalize Target.ofAddress other = target
  cases hplace : Target.ofAddress address with
  | vram i =>
      have hopen : b.picture.vramOpen = true := by
        rw [hplace] at h
        exact h
      cases target with
      | vram j =>
          simp only [writeTarget, readTarget, Target.vram.injEq]
          exact Picture.readVram_writeVram hopen i j value
      | _ =>
          simp only [writeTarget, Picture.writeVram, hopen, if_true]
          exact (if_neg (by simp)).symm
  | oam i =>
      have hopen : b.picture.oamOpen = true := by
        rw [hplace] at h
        exact h
      cases target with
      | oam j =>
          simp only [writeTarget, readTarget, Target.oam.injEq]
          exact Picture.readOam_writeOam hopen i j value
      | _ =>
          simp only [writeTarget, Picture.writeOam, hopen, if_true]
          exact (if_neg (by simp)).symm
  | wram i => exact absurd (hplace ▸ rfl) hram
  | hram i => exact absurd (hplace ▸ rfl) hram
  | _ =>
      rw [hplace] at h
      cases h

/-! ### Cartridge RAM -/

theorem write_cartridgeRam (hplace : Target.ofAddress address = .cartridgeRam) (value : UInt8) :
    b.write address value = ({ b with cartridge := b.cartridge.writeRam address value }, []) := by
  unfold write
  rw [hplace]
  rfl

theorem read_cartridgeRam (hplace : Target.ofAddress address = .cartridgeRam) :
    b.read address = b.cartridge.readRam address := by
  unfold read
  rw [hplace]
  rfl

/-- Outside its area nobody sees what is written to cartridge RAM. -/
theorem read_write_cartridgeRam_of_ne (hplace : Target.ofAddress address = .cartridgeRam)
    {other : UInt16} (hother : Target.ofAddress other ≠ .cartridgeRam) (value : UInt8) :
    (b.write address value).1.read other = b.read other := by
  rw [write_cartridgeRam hplace]
  unfold read
  cases htarget : Target.ofAddress other with
  | rom => exact b.cartridge.readRom_writeRam address value other
  | cartridgeRam => exact absurd htarget hother
  | _ => rfl

theorem read_write_cartridgeRam (hplace : Target.ofAddress address = .cartridgeRam)
    (hopen : ¬ b.cartridge.RamClosed) {other : UInt16}
    (hother : Target.ofAddress other = .cartridgeRam) (value : UInt8) :
    (b.write address value).1.read other =
      if (other.toNat - 0xA000) % b.cartridge.ram.size =
        (address.toNat - 0xA000) % b.cartridge.ram.size then value else b.read other := by
  rw [write_cartridgeRam hplace, read_cartridgeRam hother, read_cartridgeRam hother]
  dsimp only
  rw [Cartridge.readRam_writeRam hopen]
  simp only [Cartridge.Banking.ramPlace_eq_iff]

/-! ### The law of stores -/

theorem read_stored (hselect : b.picture.SelectsSources) (h : b.Stores address) (value : UInt8)
    (other : UInt16) :
    (Target.SameCell b.cartridge.ram.size address other →
        (b.write address value).1.read other = value) ∧
      (¬ Target.SameCell b.cartridge.ram.size address other →
        (b.write address value).1.read other = b.read other) := by
  have hmemory : b.keeps (Target.ofAddress address) = true →
      (Target.SameCell b.cartridge.ram.size address other →
          (b.write address value).1.read other = value) ∧
        (¬ Target.SameCell b.cartridge.ram.size address other →
          (b.write address value).1.read other = b.read other) := by
    intro hkeeps
    rw [Target.sameCell_iff_of_isMemory (isMemory_of_keeps hkeeps), read_write_of_keeps hkeeps]
    exact ⟨fun hsame => if_pos hsame, fun hne => if_neg hne⟩
  cases h with
  | wram low high =>
      apply hmemory
      rcases Target.exists_wram low (Nat.lt_succ_of_le high) with ⟨i, hplace⟩
      rw [hplace]
      rfl
  | hram low high =>
      apply hmemory
      rcases Target.exists_hram low (Nat.lt_succ_of_le high) with ⟨i, hplace⟩
      rw [hplace]
      rfl
  | vram low high hmode =>
      apply hmemory
      rcases Target.exists_vram low (Nat.lt_succ_of_le high) with ⟨i, hplace⟩
      rw [hplace]
      exact (vramOpen_iff hselect).mpr hmode
  | oam low high hmode =>
      apply hmemory
      rcases Target.exists_oam low (Nat.lt_succ_of_le high) with ⟨i, hplace⟩
      rw [hplace]
      exact (oamOpen_iff hselect).mpr hmode
  | cartridgeRam low high hfitted henabled =>
      have hplace := Target.ofAddress_eq_cartridgeRam_iff.mpr ⟨low, Nat.lt_succ_of_le high⟩
      have hopen := Cartridge.not_ramClosed_iff.mpr ⟨hfitted, henabled⟩
      rw [Target.sameCell_iff_of_cartridgeRam low (by omega)]
      by_cases harea : Target.ofAddress other = .cartridgeRam
      · rw [read_write_cartridgeRam hplace hopen harea]
        rcases Target.ofAddress_eq_cartridgeRam_iff.mp harea with ⟨low', high'⟩
        refine ⟨fun hsame => if_pos hsame.2.2, fun hne => if_neg ?_⟩
        intro hoffset
        exact hne ⟨low', high', hoffset⟩
      · rw [read_write_cartridgeRam_of_ne hplace harea]
        refine ⟨fun hsame => absurd ?_ harea, fun _ => rfl⟩
        exact Target.ofAddress_eq_cartridgeRam_iff.mpr ⟨hsame.1, hsame.2.1⟩

theorem write_ignored (hselect : b.picture.SelectsSources) (h : b.Ignores address) (value : UInt8) :
    b.write address value = (b, []) ∧ b.read address = 0xFF := by
  cases h with
  | vram low high hmode =>
      rcases Target.exists_vram low (Nat.lt_succ_of_le high) with ⟨i, hplace⟩
      have hclosed : ¬ b.picture.vramOpen = true :=
        fun hopen => (vramOpen_iff hselect).mp hopen hmode
      unfold write read
      rw [hplace, writeTarget, Picture.writeVram_of_closed hclosed]
      exact ⟨rfl, Picture.readVram_of_closed hclosed i⟩
  | oam low high hmode =>
      rcases Target.exists_oam low (Nat.lt_succ_of_le high) with ⟨i, hplace⟩
      have hclosed : ¬ b.picture.oamOpen = true := by
        rw [oamOpen_iff hselect]
        rcases hmode with hmode | hmode
        all_goals
          rw [hmode]
          decide
      unfold write read
      rw [hplace, writeTarget, Picture.writeOam_of_closed hclosed]
      exact ⟨rfl, Picture.readOam_of_closed hclosed i⟩
  | cartridgeRam low high hclosed =>
      have hplace := Target.ofAddress_eq_cartridgeRam_iff.mpr ⟨low, Nat.lt_succ_of_le high⟩
      have hram : b.cartridge.RamClosed := hclosed
      rw [write_cartridgeRam hplace, read_cartridgeRam hplace, Cartridge.writeRam_eq,
        Cartridge.readRam_eq, if_pos hram, if_pos hram]
      exact ⟨rfl, rfl⟩
  | vacant h => exact write_of_isEmpty (Target.isEmpty_of_vacant h) value

/-- The law of stores, for every board, address and value. Where the board stores, the value is read
    back through all addresses of the cell, and through all others what was read before. Where it
    ignores, the write changes nothing and the address reads 0xFF. What is asked of the picture unit
    holds on every board, whatever has been done to it. -/
theorem read_after_write :
    (∀ cartridge fill acts, ((powerOn cartridge fill).actAll acts).picture.SelectsSources) ∧
      ∀ b : Board, b.picture.SelectsSources → ∀ address value,
        (b.Stores address → ∀ other,
            (Target.SameCell b.cartridge.ram.size address other →
                (b.write address value).1.read other = value) ∧
              (¬ Target.SameCell b.cartridge.ram.size address other →
                (b.write address value).1.read other = b.read other)) ∧
          (b.Ignores address → b.write address value = (b, []) ∧ b.read address = 0xFF) := by
  constructor
  · intro cartridge fill acts
    exact Picture.selectsSources_of_reachable
      (reachable_actAll (reachable_powerOn cartridge fill) acts)
  · intro b hselect address value
    constructor
    · intro hstores other
      exact read_stored hselect hstores value other
    · intro hignores
      exact write_ignored hselect hignores value

/-- A board at power-on but for its open cartridge RAM of 0x800 bytes, a quarter of its area. -/
def smallRamBoard : Board :=
  powerOn ⟨default, #[], Array.replicate 0x800 0, .mbc1 { ramOpen := true }⟩ .zeros

/-- The small RAM is seen again at the end of its area, but not at the next address; and the sprite
    table is closed, since the raster is at the start of a line. -/
theorem read_after_write_smallRamBoard :
    smallRamBoard.picture.SelectsSources ∧
      (smallRamBoard.Stores 0xA000 ∧ Target.SameCell 0x800 0xA000 0xB800 ∧
        (smallRamBoard.write 0xA000 0x42).1.read 0xB800 = 0x42) ∧
      (¬ Target.SameCell 0x800 0xA000 0xA001 ∧
        (smallRamBoard.write 0xA000 0x42).1.read 0xA001 = smallRamBoard.read 0xA001) ∧
      (smallRamBoard.Ignores 0xFE00 ∧ smallRamBoard.write 0xFE00 0x42 = (smallRamBoard, []) ∧
        smallRamBoard.read 0xFE00 = 0xFF) := by
  have hselect : smallRamBoard.picture.SelectsSources := rfl
  have hsize : smallRamBoard.cartridge.ram.size = 0x800 := Array.size_replicate
  have hstores : smallRamBoard.Stores 0xA000 := by
    refine .cartridgeRam (by decide) (by decide) ?_ rfl
    rw [hsize]
    decide
  have hmode : smallRamBoard.modeBits = 2 := modeBits_eq hselect
  have hignores : smallRamBoard.Ignores 0xFE00 := .oam (by decide) (by decide) (.inl hmode)
  have hsame : Target.SameCell 0x800 0xA000 0xB800 :=
    .cartridgeRam (by decide) (by decide) (by decide) (by decide) (by decide)
  have hother : ¬ Target.SameCell 0x800 0xA000 0xA001 := by
    rw [Target.sameCell_iff_of_cartridgeRam (by decide) (by decide)]
    decide
  have hkept := (read_after_write.2 smallRamBoard hselect 0xA000 0x42).1 hstores
  have hlost := (read_after_write.2 smallRamBoard hselect 0xFE00 0x42).2 hignores
  rw [hsize] at hkept
  exact ⟨hselect, ⟨hstores, hsame, (hkept 0xB800).1 hsame⟩, ⟨hother, (hkept 0xA001).2 hother⟩,
    hignores, hlost⟩

end Board

end Handheld
