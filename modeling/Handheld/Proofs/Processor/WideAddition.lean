/-
Module: Handheld.Proofs.Processor.WideAddition
Purpose: Sums of words as sums of bytes. What ADD HL does could be done with A, byte after byte, by
  ADD and ADC, and it leaves the half carry and the carry of the high byte. A signed byte added to SP
  leaves those of adding it, as it is written, to the low byte.
Main exports: addWords_by_bytes, toNat_addOffset, addOffset_by_byte, Core.combine, wide_addition
-/
import Handheld.Proofs.Processor.LongArithmetic

namespace Handheld

/-! ### Words -/

theorem toNat_eq_bytes (w : UInt16) :
    w.toNat = 256 * (highByte w).toNat + (lowByte w).toNat := by
  rw [← toNat_joinBytes, joinBytes_highByte_lowByte]

/-- The low bytes are added first, and their carry goes into the sum of the high bytes. Bit 11 of a
    word is bit 3 of its high byte, and bit 15 is bit 7. -/
theorem addWords_by_bytes (x y : UInt16) (zero : Bool) :
    let low := addBytes (lowByte x) (lowByte y) false
    let high := addBytes (highByte x) (highByte y) low.flags.carry
    (addWords x y zero).value = joinBytes high.value low.value ∧
      (addWords x y zero).flags.halfCarry = high.flags.halfCarry ∧
      (addWords x y zero).flags.carry = high.flags.carry := by
  intro low high
  have hx := toNat_eq_bytes x
  have hy := toNat_eq_bytes y
  have hxlow := (lowByte x).toNat_lt
  have hylow := (lowByte y).toNat_lt
  have hlow : low.value.toNat + 256 * carryValue low.flags.carry =
      (lowByte x).toNat + (lowByte y).toNat := addBytes_balance _ _ false
  have hhigh : high.value.toNat + 256 * carryValue high.flags.carry =
      (highByte x).toNat + (highByte y).toNat + carryValue low.flags.carry :=
    addBytes_balance _ _ _
  have hlowRange := low.value.toNat_lt
  have hcarry := carryValue_le low.flags.carry
  refine ⟨?value, ?half, ?carry⟩
  case value =>
    apply UInt16.toNat_inj.mp
    have hhighRange := high.value.toNat_lt
    change (x + y).toNat = _
    rw [UInt16.toNat_add, toNat_joinBytes]
    omega
  case half =>
    change decide (0x0FFF < x.toNat % 0x1000 + y.toNat % 0x1000) =
      decide (15 < (highByte x).toNat % 16 + (highByte y).toNat % 16 + carryValue low.flags.carry)
    rw [decide_eq_decide]
    omega
  case carry =>
    change decide (0xFFFF < x.toNat + y.toNat) =
      decide (255 < (highByte x).toNat + (highByte y).toNat + carryValue low.flags.carry)
    rw [decide_eq_decide]
    omega

/-! ### A word and a signed byte -/

/-- A signed byte moves a word up or down, around the end of the address space if need be. -/
theorem toNat_addOffset (base : UInt16) (offset : UInt8) :
    ((addOffset base offset).value.toNat : Int) = (base.toNat + offset.toInt8.toInt) % 65536 := by
  have hextended : ∀ bits : BitVec 8, ((signExtend (UInt8.ofBitVec bits)).toNat : Int) =
      (UInt8.ofBitVec bits).toInt8.toInt % 65536 := by
    decide +kernel
  have hoffset : ((signExtend offset).toNat : Int) = offset.toInt8.toInt % 65536 :=
    hextended offset.toBitVec
  change (((base + signExtend offset).toNat : Nat) : Int) = _
  rw [UInt16.toNat_add]
  omega

/-- Whatever its sign, the byte is added to the low byte as it is written. -/
theorem addOffset_by_byte (base : UInt16) (offset : UInt8) :
    let low := addBytes (lowByte base) offset false
    (addOffset base offset).flags.halfCarry = low.flags.halfCarry ∧
      (addOffset base offset).flags.carry = low.flags.carry := by
  intro low
  have hlow := toNat_lowByte base
  refine ⟨?half, ?carry⟩
  case half =>
    change decide (15 < base.toNat % 16 + offset.toNat % 16) =
      decide (15 < (lowByte base).toNat % 16 + offset.toNat % 16 + 0)
    rw [decide_eq_decide]
    omega
  case carry =>
    change decide (255 < base.toNat % 256 + offset.toNat) =
      decide (255 < (lowByte base).toNat + offset.toNat + 0)
    rw [decide_eq_decide]
    omega

/-! ### Instructions -/

variable {σ : Type} [Bus σ]

namespace Core

/-- Bring a byte into A and combine it with another one: LD A,x and an operation on A and y. -/
def combine (m : Core σ) (op : Arith) (x y : UInt8) : Core σ :=
  m.executeAll [.loadByte (.reg .a) x, .arithByte op y]

/-- The load in front of the operation leaves the carry alone. -/
theorem regs_combine (m : Core σ) (op : Arith) (x y : UInt8) :
    (m.combine op x y).cpu.regs.a = (op.apply x y m.carry).value ∧
      ∀ flag, (m.combine op x y).cpu.regs.flag flag = (op.apply x y m.carry).flags.get flag :=
  regs_of_applies (m := (m.execute (.loadByte (.reg .a) x)).2) .immediate

/-- ADD on the low bytes and then ADC on the high ones work out the sum of two words. -/
theorem addWords_by_combine (m : Core σ) (x y : UInt16) (zero : Bool) :
    let low := m.combine .add (lowByte x) (lowByte y)
    let high := low.combine .addCarry (highByte x) (highByte y)
    (addWords x y zero).value = joinBytes high.cpu.regs.a low.cpu.regs.a ∧
      (addWords x y zero).flags.halfCarry = high.cpu.regs.flag .halfCarry ∧
      (addWords x y zero).flags.carry = high.cpu.regs.flag .carry := by
  intro low high
  obtain ⟨hlow, hlink⟩ := m.regs_combine .add (lowByte x) (lowByte y)
  obtain ⟨hhigh, hout⟩ := low.regs_combine .addCarry (highByte x) (highByte y)
  have hcarry : low.carry = (addBytes (lowByte x) (lowByte y) false).flags.carry := hlink .carry
  rw [hcarry] at hhigh hout
  rw [hlow, hhigh, hout, hout]
  exact addWords_by_bytes x y zero

end Core

theorem Registers.hl_setHL (r : Registers) (w : UInt16) : (r.setHL w).hl = w :=
  joinBytes_highByte_lowByte w

/-- ADD HL,rr leaves in L and H, the half carry and the carry what ADD on the low bytes and then ADC
    on the high bytes leave; N is cleared and Z kept. ADD SP,e and LD HL,SP+e move SP by the signed
    byte and leave the half carry and the carry of ADD on the low byte of SP and that byte; Z and N
    are cleared. -/
theorem wide_addition (m : Core σ) :
    (∀ src : Pair,
      let sum := (m.execute (.addHL src)).2
      let low := m.combine .add m.cpu.regs.l (lowByte (m.cpu.regs.pair src))
      let high := low.combine .addCarry m.cpu.regs.h (highByte (m.cpu.regs.pair src))
      sum.cpu.regs.l = low.cpu.regs.a ∧
      sum.cpu.regs.h = high.cpu.regs.a ∧
      sum.cpu.regs.flag .halfCarry = high.cpu.regs.flag .halfCarry ∧
      sum.cpu.regs.flag .carry = high.cpu.regs.flag .carry ∧
      sum.cpu.regs.flag .subtract = false ∧
      sum.cpu.regs.flag .zero = m.cpu.regs.flag .zero) ∧
    ∀ offset : UInt8,
      let low := m.combine .add (lowByte m.cpu.regs.sp) offset
      let moved := (m.execute (.addSP offset)).2
      let loaded := (m.execute (.loadHLFromSP offset)).2
      (moved.cpu.regs.sp.toNat : Int) = (m.cpu.regs.sp.toNat + offset.toInt8.toInt) % 65536 ∧
      (loaded.cpu.regs.hl.toNat : Int) = (m.cpu.regs.sp.toNat + offset.toInt8.toInt) % 65536 ∧
      ∀ sum ∈ [moved, loaded],
        sum.cpu.regs.flag .halfCarry = low.cpu.regs.flag .halfCarry ∧
        sum.cpu.regs.flag .carry = low.cpu.regs.flag .carry ∧
        sum.cpu.regs.flag .zero = false ∧
        sum.cpu.regs.flag .subtract = false := by
  refine ⟨?words, ?offsets⟩
  case words =>
    intro src sum low high
    have hflags : ∀ flag, sum.cpu.regs.flag flag =
        (addWords m.cpu.regs.hl (m.cpu.regs.pair src) (m.cpu.regs.flag .zero)).flags.get flag :=
      Flags.flag_toByte _
    have hbytes := m.addWords_by_combine m.cpu.regs.hl (m.cpu.regs.pair src)
      (m.cpu.regs.flag .zero)
    rw [Registers.hl, lowByte_joinBytes, highByte_joinBytes, ← Registers.hl] at hbytes
    obtain ⟨hvalue, hhalf, hcarry⟩ := hbytes
    have hl : sum.cpu.regs.l = lowByte (joinBytes high.cpu.regs.a low.cpu.regs.a) :=
      congrArg lowByte hvalue
    have hh : sum.cpu.regs.h = highByte (joinBytes high.cpu.regs.a low.cpu.regs.a) :=
      congrArg highByte hvalue
    rw [lowByte_joinBytes] at hl
    rw [highByte_joinBytes] at hh
    exact ⟨hl, hh, (hflags .halfCarry).trans hhalf, (hflags .carry).trans hcarry,
      hflags .subtract, hflags .zero⟩
  case offsets =>
    intro offset low moved loaded
    obtain ⟨-, hlow⟩ := m.regs_combine .add (lowByte m.cpu.regs.sp) offset
    obtain ⟨hhalf, hfull⟩ := addOffset_by_byte m.cpu.regs.sp offset
    have hsum := toNat_addOffset m.cpu.regs.sp offset
    have hflags : ∀ sum ∈ [moved, loaded], ∀ flag,
        sum.cpu.regs.flag flag = (addOffset m.cpu.regs.sp offset).flags.get flag := by
      rw [List.forall_mem_cons, List.forall_mem_singleton]
      exact ⟨Flags.flag_toByte _, Flags.flag_toByte _⟩
    refine ⟨hsum, ?_, ?_⟩
    · change (((m.cpu.regs.setFlags _).setHL _).hl.toNat : Int) = _
      rw [Registers.hl_setHL]
      exact hsum
    · intro sum hmem
      rw [hflags sum hmem, hflags sum hmem, hflags sum hmem, hflags sum hmem, hlow, hlow]
      exact ⟨hhalf, hfull, rfl, rfl⟩

end Handheld
