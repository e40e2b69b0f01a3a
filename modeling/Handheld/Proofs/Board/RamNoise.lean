/-
Module: Handheld.Proofs.Board.RamNoise
Purpose: What noise in RAM tells of its seed. The generator respects the exclusive or of words, so what
  it does is known from the words with a single bit, and so is how to undo it: the first five bytes
  of noise tell the seed. Noise is therefore blank for no seed but zero, which the generator never
  leaves.
Main exports: IsXorLinear, IsXorLinear.ext, noiseByte, seedOf, seedOf_noiseByte, RamFill.bytes_noise,
  Board.RamBlank, Board.noise_blank_iff, Board.noise_blank_zero
-/
import Handheld.Proofs.Board.Map
import Handheld.Proofs.Cartridge.RomBanks
import Mathlib.Logic.Function.Iterate

namespace Handheld

/-! ### Maps of words that respect the exclusive or -/

def IsXorLinear (f : UInt32 → UInt32) : Prop :=
  ∀ x y, f (x ^^^ y) = f x ^^^ f y

/-- The exclusive or of those among the first `n` words of a table that stand at the set bits of a
    word. -/
def combine (table : Nat → UInt32) : (n : Nat) → UInt32 → UInt32
  | 0, _ => 0
  | n + 1, x => combine table n x ^^^ if x.toBitVec.getLsbD n then table n else 0

/-- The word with a single bit. -/
def bitWord (i : Nat) : UInt32 :=
  UInt32.ofBitVec (BitVec.twoPow 32 i)

theorem xor_xor_xor_comm (a b c d : UInt32) : a ^^^ b ^^^ (c ^^^ d) = a ^^^ c ^^^ (b ^^^ d) := by
  rw [UInt32.xor_assoc, UInt32.xor_assoc, ← UInt32.xor_assoc b, ← UInt32.xor_assoc c,
    UInt32.xor_comm b]

theorem isXorLinear_combine (table : Nat → UInt32) (n : Nat) : IsXorLinear (combine table n) := by
  intro x y
  induction n with
  | zero => exact (UInt32.xor_self (a := 0)).symm
  | succ n ih =>
      have hword : (if (x ^^^ y).toBitVec.getLsbD n then table n else 0) =
          (if x.toBitVec.getLsbD n then table n else 0) ^^^
            if y.toBitVec.getLsbD n then table n else 0 := by
        rw [UInt32.toBitVec_xor, BitVec.getLsbD_xor]
        cases x.toBitVec.getLsbD n <;> cases y.toBitVec.getLsbD n <;> simp
      rw [combine, combine, combine, ih, hword, xor_xor_xor_comm]

namespace IsXorLinear

variable {f g : UInt32 → UInt32}

theorem comp (hg : IsXorLinear g) (hf : IsXorLinear f) : IsXorLinear fun x => g (f x) := by
  intro x y
  dsimp only
  rw [hf, hg]

theorem xor (hf : IsXorLinear f) (hg : IsXorLinear g) : IsXorLinear fun x => f x ^^^ g x := by
  intro x y
  dsimp only
  rw [hf, hg, xor_xor_xor_comm]

variable (hf : IsXorLinear f)
include hf

theorem map_zero : f 0 = 0 := by
  have hself := hf 0 0
  rwa [UInt32.xor_self, UInt32.xor_self] at hself

theorem map_combine (table : Nat → UInt32) (n : Nat) (x : UInt32) :
    f (combine table n x) = combine (f ∘ table) n x := by
  induction n with
  | zero => exact hf.map_zero
  | succ n ih =>
      rw [combine, hf, ih, combine]
      split
      · rfl
      · rw [hf.map_zero]

end IsXorLinear

/-- Every word is the exclusive or of its bits. -/
theorem combine_bitWord (x : UInt32) : combine bitWord 32 x = x := by
  have hbits (n : Nat) (hn : n ≤ 32) (j : Nat) :
      (combine bitWord n x).toBitVec.getLsbD j = (decide (j < n) && x.toBitVec.getLsbD j) := by
    induction n with
    | zero => simp [combine]
    | succ n ih =>
        have hword : (if x.toBitVec.getLsbD n then bitWord n else 0).toBitVec.getLsbD j =
            (decide (n = j) && x.toBitVec.getLsbD j) := by
          have htwo : (bitWord n).toBitVec.getLsbD j = decide (n = j) := by
            rw [bitWord, UInt32.toBitVec_ofBitVec, BitVec.getLsbD_twoPow,
              decide_eq_true (Nat.lt_of_succ_le hn), Bool.true_and]
          by_cases hplace : n = j
          · subst hplace
            cases hbit : x.toBitVec.getLsbD n <;> simp [htwo]
          · cases hbit : x.toBitVec.getLsbD n <;> simp [htwo, hplace]
        rw [combine, UInt32.toBitVec_xor, BitVec.getLsbD_xor, ih (Nat.le_of_succ_le hn), hword]
        -- the bit is one of the earlier ones, the new one or none of them
        rcases Nat.lt_trichotomy j n with hearlier | rfl | hlater
        · simp [hearlier, Nat.lt_succ_of_lt hearlier, Nat.ne_of_gt hearlier]
        · simp
        · simp [Nat.not_lt_of_gt hlater, Nat.not_lt.mpr (Nat.succ_le_of_lt hlater),
            Nat.ne_of_lt hlater]
  apply UInt32.toBitVec_inj.mp
  apply BitVec.eq_of_getLsbD_eq
  intro j hj
  rw [hbits 32 (Nat.le_refl 32), decide_eq_true hj, Bool.true_and]

/-- A map that respects the exclusive or is known from the words with a single bit. -/
theorem IsXorLinear.ext {f g : UInt32 → UInt32} (hf : IsXorLinear f) (hg : IsXorLinear g)
    (h : ∀ i < 32, f (bitWord i) = g (bitWord i)) (x : UInt32) : f x = g x := by
  have hsame (n : Nat) (hn : n ≤ 32) :
      combine (f ∘ bitWord) n x = combine (g ∘ bitWord) n x := by
    induction n with
    | zero => rfl
    | succ n ih =>
        have hword : (f ∘ bitWord) n = (g ∘ bitWord) n := h n hn
        rw [combine, combine, ih (Nat.le_of_succ_le hn), hword]
  calc f x = f (combine bitWord 32 x) := by rw [combine_bitWord]
    _ = combine (f ∘ bitWord) 32 x := hf.map_combine _ _ _
    _ = combine (g ∘ bitWord) 32 x := hsame 32 (Nat.le_refl 32)
    _ = g (combine bitWord 32 x) := (hg.map_combine _ _ _).symm
    _ = g x := by rw [combine_bitWord]

/-! ### Noise -/

/-- A byte of the noise that comes of a seed. -/
def noiseByte (seed : UInt32) (i : Nat) : UInt8 :=
  (noiseStep^[i + 1] seed).toUInt8

theorem isXorLinear_noiseStep : IsXorLinear noiseStep := by
  have hleft (k : UInt32) : IsXorLinear fun x => x ^^^ x <<< k :=
    .xor (fun _ _ => rfl) fun _ _ => UInt32.shiftLeft_xor
  have hright (k : UInt32) : IsXorLinear fun x => x ^^^ x >>> k :=
    .xor (fun _ _ => rfl) fun _ _ => UInt32.shiftRight_xor
  exact (hleft 5).comp ((hright 17).comp (hleft 13))

theorem noiseStep_iterate_xor (n : Nat) (x y : UInt32) :
    noiseStep^[n] (x ^^^ y) = noiseStep^[n] x ^^^ noiseStep^[n] y := by
  induction n with
  | zero => rfl
  | succ n ih =>
      rw [Function.iterate_succ_apply', Function.iterate_succ_apply',
        Function.iterate_succ_apply', ih, isXorLinear_noiseStep]

theorem noiseByte_xor (x y : UInt32) (i : Nat) :
    noiseByte (x ^^^ y) i = noiseByte x i ^^^ noiseByte y i := by
  unfold noiseByte
  rw [noiseStep_iterate_xor, UInt32.toUInt8_xor]

/-- The generator does not leave zero. -/
theorem noiseByte_zero (i : Nat) : noiseByte 0 i = 0 := by
  have hfixed : noiseStep 0 = 0 := rfl
  unfold noiseByte
  rw [Function.iterate_fixed hfixed]
  rfl

/-- Five bytes as one word, the last of them added to the second. Four would not do: of noise they
    leave one bit of the seed open. -/
def digest (bytes : Nat → UInt8) : UInt32 :=
  (bytes 0).toUInt32 <<< 0 ^^^ (bytes 1).toUInt32 <<< 8 ^^^ (bytes 2).toUInt32 <<< 16 ^^^
    (bytes 3).toUInt32 <<< 24 ^^^ (bytes 4).toUInt32 <<< 8

/-- For each bit of the digest of noise, the bits of the seed that it stands for: the columns of the
    inverse of the map from seeds to digests. -/
def seedTable : Vector UInt32 32 :=
  #v[0x0CA72613, 0xF964C877, 0x6ECE4A47, 0x9B78F38C, 0x4DE2F867, 0x3617646D, 0xEF35C582, 0x7F9B29D0,
    0xE4C37601, 0x5D4B7A05, 0x2AB318D4, 0xB118780C, 0x343C4DC2, 0xD5AA8F27, 0x5CA90140, 0x77B11F2A,
    0x7F073F74, 0x02EE1616, 0x4BA6EA74, 0xDE095337, 0x85B113E6, 0x978DA7BD, 0x9E033776, 0xAF490E40,
    0x1B7C3386, 0x03C553DF, 0x3D1773B0, 0x867238B2, 0x734BF936, 0x85A67B65, 0x83A3D6BA, 0x6B3E9E78]

/-- The seed that noise comes of, told from its first five bytes. -/
def seedOf (bytes : Nat → UInt8) : UInt32 :=
  combine (fun i => seedTable.toArray.getD i 0) 32 (digest bytes)

theorem isXorLinear_noiseByte (i : Nat) (k : UInt32) :
    IsXorLinear fun seed => (noiseByte seed i).toUInt32 <<< k := by
  intro x y
  dsimp only
  rw [noiseByte_xor, UInt8.toUInt32_xor, UInt32.shiftLeft_xor]

theorem isXorLinear_seedOf_noiseByte : IsXorLinear fun seed => seedOf (noiseByte seed) :=
  (isXorLinear_combine _ 32).comp <| .xor (.xor (.xor (.xor (isXorLinear_noiseByte 0 0)
    (isXorLinear_noiseByte 1 8)) (isXorLinear_noiseByte 2 16)) (isXorLinear_noiseByte 3 24))
    (isXorLinear_noiseByte 4 8)

/-- The first five bytes of noise tell the seed. -/
theorem seedOf_noiseByte (seed : UInt32) : seedOf (noiseByte seed) = seed := by
  have hid : IsXorLinear id := fun x y => rfl
  refine isXorLinear_seedOf_noiseByte.ext hid ?_ seed
  -- what is left is one equation for each of the 32 words with a single bit
  decide +kernel

/-- Of the bytes only the first five are looked at. -/
theorem seedOf_congr {bytes other : Nat → UInt8} (h : ∀ i < 5, bytes i = other i) :
    seedOf bytes = seedOf other := by
  rw [seedOf, seedOf, digest, digest, h 0 (by decide), h 1 (by decide), h 2 (by decide),
    h 3 (by decide), h 4 (by decide)]

/-- Noise of a seed that is not zero is not blank for five bytes. -/
theorem exists_noiseByte_ne_zero {seed : UInt32} (h : seed ≠ 0) : ∃ i < 5, noiseByte seed i ≠ 0 := by
  by_contra hblank
  have hsame (i : Nat) (hi : i < 5) : noiseByte seed i = noiseByte 0 i := by
    rw [noiseByte_zero]
    by_contra hne
    exact hblank ⟨i, hi, hne⟩
  apply h
  calc seed = seedOf (noiseByte seed) := (seedOf_noiseByte seed).symm
    _ = seedOf (noiseByte 0) := seedOf_congr hsame
    _ = 0 := seedOf_noiseByte 0

/-! ### RAM at power-on -/

theorem noiseBytes_eq (n : Nat) (seed : UInt32) :
    noiseBytes n seed = (Vector.ofFn fun i => noiseByte seed i, noiseStep^[n] seed) := by
  induction n with
  | zero => rfl
  | succ n ih =>
      have hlast : noiseStep (noiseStep^[n] seed) = noiseStep^[n + 1] seed :=
        (Function.iterate_succ_apply' noiseStep n seed).symm
      rw [noiseBytes, ih]
      dsimp only
      rw [hlast, Vector.ofFn_succ]
      rfl

/-- The second area goes on where the first ends. -/
theorem RamFill.bytes_noise (m n : Nat) (seed : UInt32) : (RamFill.noise seed).bytes m n =
    (Vector.ofFn fun i => noiseByte seed i, Vector.ofFn fun i => noiseByte seed (m + i)) := by
  have hlater (i : Nat) : noiseByte (noiseStep^[m] seed) i = noiseByte seed (m + i) := by
    unfold noiseByte
    rw [← Function.iterate_add_apply, Nat.add_comm m, Nat.add_right_comm]
  unfold bytes
  dsimp only
  rw [noiseBytes_eq, noiseBytes_eq]
  simp only [hlater]

/-- Noise of the seed zero is blank. -/
theorem RamFill.bytes_noise_zero (m n : Nat) :
    (RamFill.noise 0).bytes m n = RamFill.zeros.bytes m n := by
  have hblank (k : Nat) : (Vector.ofFn fun _ : Fin k => (0 : UInt8)) = Vector.replicate k 0 :=
    Vector.ext fun i hi => by simp
  rw [bytes_noise, bytes]
  simp only [noiseByte_zero, hblank]

namespace Board

/-- Every byte of RAM is zero as the processor reads it, work RAM from 0xC000 to 0xDFFF and the RAM
    of its own chip from 0xFF80 to 0xFFFE. -/
def RamBlank (b : Board) : Prop :=
  ∀ address : UInt16,
    0xC000 ≤ address.toNat ∧ address.toNat ≤ 0xDFFF ∨
      0xFF80 ≤ address.toNat ∧ address.toNat ≤ 0xFFFE → b.read address = 0

section Cells

variable (b : Board)

theorem toNat_place {start size : Nat} (h : start + size ≤ 0x10000) (i : Fin size) :
    (UInt16.ofNat (start + i.val)).toNat = start + i.val :=
  UInt16.toNat_ofNat_of_lt' (Nat.lt_of_lt_of_le (Nat.add_lt_add_left i.isLt start) h)

theorem toNat_workAddress (i : Fin wramSize) :
    (UInt16.ofNat (0xC000 + i.val)).toNat = 0xC000 + i.val :=
  toNat_place (by decide) i

theorem toNat_highAddress (i : Fin hramSize) :
    (UInt16.ofNat (0xFF80 + i.val)).toNat = 0xFF80 + i.val :=
  toNat_place (by decide) i

theorem read_workAddress (i : Fin wramSize) :
    b.read (UInt16.ofNat (0xC000 + i.val)) = b.wram.get i := by
  have hi : i.val < 0x2000 := i.isLt
  have hplace : Target.ofAddress (UInt16.ofNat (0xC000 + i.val)) = .wram i := by
    rw [Target.ofAddress_eq_wram_iff, toNat_workAddress]
    simp only [wramSize]
    omega
  rw [read, hplace]
  rfl

theorem read_highAddress (i : Fin hramSize) :
    b.read (UInt16.ofNat (0xFF80 + i.val)) = b.hram.get i := by
  rw [read, Target.ofAddress_eq_hram_iff.mpr (toNat_highAddress i)]
  rfl

theorem ramBlank_iff : b.RamBlank ↔ (∀ i, b.wram.get i = 0) ∧ ∀ i, b.hram.get i = 0 := by
  constructor
  · intro h
    constructor
    · intro i
      have hi : i.val < 0x2000 := i.isLt
      rw [← read_workAddress]
      apply h
      rw [toNat_workAddress]
      omega
    · intro i
      have hi : i.val < 0x7F := i.isLt
      rw [← read_highAddress]
      apply h
      rw [toNat_highAddress]
      omega
  · rintro ⟨hwork, hhigh⟩ address (⟨low, high⟩ | ⟨low, high⟩)
    · obtain ⟨i, hi⟩ := Target.exists_wram low (Nat.lt_of_le_of_lt high (by decide))
      rw [read, hi]
      exact hwork i
    · obtain ⟨i, hi⟩ := Target.exists_hram low (Nat.lt_succ_of_le high)
      rw [read, hi]
      exact hhigh i

theorem not_ramBlank_of_read {i : Nat} (hi : i < wramSize)
    (h : b.read (UInt16.ofNat (0xC000 + i)) ≠ 0) : ¬ b.RamBlank := by
  rw [ramBlank_iff]
  rintro ⟨hwork, -⟩
  apply h
  rw [read_workAddress b ⟨i, hi⟩]
  exact hwork _

end Cells

variable (cartridge : Cartridge) (seed : UInt32)

theorem powerOn_eq (fill : RamFill) : powerOn cartridge fill =
    { cartridge, wram := (fill.bytes wramSize hramSize).1,
      hram := (fill.bytes wramSize hramSize).2 } := rfl

theorem get_wram_noise (i : Fin wramSize) :
    (powerOn cartridge (.noise seed)).wram.get i = noiseByte seed i := by
  rw [powerOn_eq, RamFill.bytes_noise]
  exact Vector.getElem_ofFn i.isLt

theorem get_hram_noise (i : Fin hramSize) :
    (powerOn cartridge (.noise seed)).hram.get i = noiseByte seed (wramSize + i) := by
  rw [powerOn_eq, RamFill.bytes_noise]
  exact Vector.getElem_ofFn i.isLt

theorem powerOn_noise_zero : powerOn cartridge (.noise 0) = powerOn cartridge .zeros := by
  rw [powerOn_eq, RamFill.bytes_noise_zero, powerOn_eq]

theorem ramBlank_noise_zero : (powerOn cartridge (.noise 0)).RamBlank := by
  rw [ramBlank_iff]
  constructor
  · intro i
    rw [get_wram_noise, noiseByte_zero]
  · intro i
    rw [get_hram_noise, noiseByte_zero]

/-- Noise of a seed that is not zero shows at one of the first five addresses of work RAM. -/
theorem exists_read_noise_ne_zero {seed : UInt32} (h : seed ≠ 0) :
    ∃ i < 5, (powerOn cartridge (.noise seed)).read (UInt16.ofNat (0xC000 + i)) ≠ 0 := by
  obtain ⟨i, hi, hbyte⟩ := exists_noiseByte_ne_zero h
  have hcell : i < wramSize := Nat.lt_trans hi (by decide)
  refine ⟨i, hi, ?_⟩
  rw [read_workAddress _ ⟨i, hcell⟩, get_wram_noise]
  exact hbyte

/-- Noise in RAM, for every seed. Some byte is not zero, and then one of the first five, exactly if
    the seed is not zero, and exactly then the board differs from one that starts with zeros. -/
theorem noise_blank_iff (cartridge : Cartridge) (seed : UInt32) :
    (¬ (powerOn cartridge (.noise seed)).RamBlank ↔ seed ≠ 0) ∧
      ((∃ i < 5, (powerOn cartridge (.noise seed)).read (UInt16.ofNat (0xC000 + i)) ≠ 0) ↔
        seed ≠ 0) ∧
      (powerOn cartridge (.noise seed) ≠ powerOn cartridge .zeros ↔ seed ≠ 0) := by
  have hshown {b : Board} (h : ∃ i < 5, b.read (UInt16.ofNat (0xC000 + i)) ≠ 0) : ¬ b.RamBlank := by
    obtain ⟨i, hi, hbyte⟩ := h
    exact b.not_ramBlank_of_read (Nat.lt_trans hi (by decide)) hbyte
  have hzero (h : ¬ (powerOn cartridge (.noise seed)).RamBlank) : seed ≠ 0 := by
    rintro rfl
    exact h (ramBlank_noise_zero cartridge)
  have hnoisy (h : seed ≠ 0) := exists_read_noise_ne_zero cartridge h
  refine ⟨⟨hzero, fun h => hshown (hnoisy h)⟩, ⟨fun h => hzero (hshown h), hnoisy⟩, ?_, ?_⟩
  · rintro hdiffers rfl
    exact hdiffers (powerOn_noise_zero cartridge)
  · intro h hsame
    apply hshown (hnoisy h)
    rw [hsame, ← powerOn_noise_zero]
    exact ramBlank_noise_zero cartridge

/-- The image of a cartridge that holds zeros only. -/
def blankRom : Array UInt8 :=
  Array.replicate Cartridge.headerEnd 0

theorem load_blankRom : ∃ c notes, Cartridge.load blankRom = (.ok c, notes) := by
  have hsize : ¬ blankRom.size < Cartridge.headerEnd := by
    rw [blankRom, Array.size_replicate]
    exact Nat.lt_irrefl Cartridge.headerEnd
  have hkind : blankRom.getD 0x147 0 = 0 := by
    simp [blankRom, Array.getD]
  exact Cartridge.exists_load hsize (Cartridge.bankingFor_plain (.inl hkind))

/-- Noise of the seed zero leaves all of RAM zero. -/
theorem noise_blank_zero : ∃ c notes, Cartridge.load blankRom = (.ok c, notes) ∧
    (powerOn c (.noise 0)).RamBlank ∧ powerOn c (.noise 0) = powerOn c .zeros := by
  obtain ⟨c, notes, hload⟩ := load_blankRom
  exact ⟨c, notes, hload, ramBlank_noise_zero c, powerOn_noise_zero c⟩

end Board

end Handheld
