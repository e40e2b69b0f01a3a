/-
Module: Handheld.Proofs.Processor.LongArithmetic
Purpose: ADC and SBC, byte by byte, add and subtract binary numbers of any length. The carry that
  stands at the end tells whether the number of bytes was enough.
Main exports: addBytes_balance, subtractBytes_balance, Place.Computed.plain, byteNumber, byteNumber_lt,
  eq_of_byteNumber_eq, long_arithmetic
-/
import Handheld.Proofs.Processor.Ripple

namespace Handheld

/-! ### Two bytes -/

theorem toNat_carryValue (carry : Bool) : (carryValue carry).toUInt8.toNat = carryValue carry := by
  cases carry <;> rfl

/-- Sum and carry together are the whole sum. -/
theorem addBytes_balance (x y : UInt8) (carry : Bool) :
    (addBytes x y carry).value.toNat + 256 * carryValue (addBytes x y carry).flags.carry =
      x.toNat + y.toNat + carryValue carry := by
  have hx := x.toNat_lt
  have hy := y.toNat_lt
  have hcarry := carryValue_le carry
  have hvalue :
      (addBytes x y carry).value.toNat = (x.toNat + y.toNat + carryValue carry) % 256 := by
    change (x + y + (carryValue carry).toUInt8).toNat = _
    rw [UInt8.toNat_add, UInt8.toNat_add, toNat_carryValue, Nat.mod_add_mod]
  have hout : carryValue (addBytes x y carry).flags.carry =
      if 255 < x.toNat + y.toNat + carryValue carry then 1 else 0 :=
    if_congr decide_eq_true_iff rfl rfl
  rw [hvalue, hout]
  split <;> omega

/-- The difference is short of the true one by what the borrow has brought in. -/
theorem subtractBytes_balance (x y : UInt8) (borrow : Bool) :
    (subtractBytes x y borrow).value.toNat + y.toNat + carryValue borrow =
      x.toNat + 256 * carryValue (subtractBytes x y borrow).flags.carry := by
  have hx := x.toNat_lt
  have hy := y.toNat_lt
  have hborrow := carryValue_le borrow
  have hvalue : (subtractBytes x y borrow).value.toNat =
      (512 + x.toNat - y.toNat - carryValue borrow) % 256 := by
    change (x - y - (carryValue borrow).toUInt8).toNat = _
    rw [UInt8.toNat_sub, UInt8.toNat_sub, toNat_carryValue]
    omega
  have hout : carryValue (subtractBytes x y borrow).flags.carry =
      if x.toNat < y.toNat + carryValue borrow then 1 else 0 :=
    if_congr decide_eq_true_iff rfl rfl
  rw [hvalue, hout]
  split <;> omega

theorem Arith.apply_addCarry (x y : UInt8) (carry : Bool) :
    Arith.addCarry.apply x y carry = addBytes x y carry := rfl

theorem Arith.apply_subCarry (x y : UInt8) (borrow : Bool) :
    Arith.subCarry.apply x y borrow = subtractBytes x y borrow := rfl

/-! ### A place without adjustment -/

variable {σ : Type} [Bus σ] {p : Place σ}

/-- Without an adjustment the operation's result stands. -/
theorem Place.Computed.plain {op : Arith} (h : p.Computed op []) :
    p.result = (op.apply p.x p.y p.before.carry).value ∧
      ∀ flag, p.after.cpu.regs.flag flag = (op.apply p.x p.y p.before.carry).flags.get flag := by
  obtain ⟨m, instr, hx, hcarry, hinstr, hafter⟩ := h
  have hregs := Core.regs_of_applies hinstr
  rw [hx, hcarry] at hregs
  rw [result, hafter]
  exact hregs

theorem Place.Computed.carry_plain {op : Arith} (h : p.Computed op []) :
    p.after.carry = (op.apply p.x p.y p.before.carry).flags.carry :=
  h.plain.2 .carry

/-- The number that bytes make up, the lowest first. -/
def byteNumber (bytes : List UInt8) : Nat :=
  numberOf 256 UInt8.toNat bytes

@[simp] theorem byteNumber_nil : byteNumber [] = 0 := rfl

theorem byteNumber_cons (x : UInt8) (xs : List UInt8) :
    byteNumber (x :: xs) = x.toNat + 256 * byteNumber xs :=
  Nat.ofDigits_cons

theorem byteNumber_append (xs ys : List UInt8) :
    byteNumber (xs ++ ys) = byteNumber xs + 256 ^ xs.length * byteNumber ys := by
  unfold byteNumber numberOf
  rw [List.map_append, Nat.ofDigits_append, List.length_map]

theorem toNat_lt_of_mem_map (xs : List UInt8) : ∀ d ∈ xs.map UInt8.toNat, d < 256 := by
  intro d hd
  obtain ⟨x, -, rfl⟩ := List.mem_map.mp hd
  exact x.toNat_lt

theorem byteNumber_lt (xs : List UInt8) : byteNumber xs < 256 ^ xs.length := by
  have hlt := Nat.ofDigits_lt_base_pow_length (by decide) (toNat_lt_of_mem_map xs)
  rwa [List.length_map] at hlt

/-- Bytes of which there are equally many are told by their number. -/
theorem eq_of_byteNumber_eq {xs ys : List UInt8} (hlength : xs.length = ys.length)
    (h : byteNumber xs = byteNumber ys) : xs = ys := by
  have hdigits : xs.map UInt8.toNat = ys.map UInt8.toNat :=
    Nat.ofDigits_inj_of_len_eq (by decide) (by rw [List.length_map, List.length_map, hlength])
      (toNat_lt_of_mem_map xs) (toNat_lt_of_mem_map ys) h
  exact List.map_injective_iff.mpr (fun _ _ => UInt8.toNat_inj.mp) hdigits

theorem Place.Computed.balanced_add (h : p.Computed .addCarry []) :
    p.Balanced 1 256 UInt8.toNat where
  lt_base := p.result.toNat_lt
  balance := by
    have hbalance := addBytes_balance p.x p.y p.before.carry
    rw [h.plain.1, h.carry_plain, Arith.apply_addCarry]
    omega

theorem Place.Computed.balanced_sub (h : p.Computed .subCarry []) :
    p.Balanced (-1) 256 UInt8.toNat where
  lt_base := p.result.toNat_lt
  balance := by
    have hbalance := subtractBytes_balance p.x p.y p.before.carry
    rw [h.plain.1, h.carry_plain, Arith.apply_subCarry]
    omega

/-- Byte after byte, ADC makes the sum and SBC the difference of two numbers of any length, up to a
    multiple of what the bytes can hold, and the last carry tells whether they hold it. After each
    byte the zero flag is about that byte, and the half carry about its low digit. -/
theorem long_arithmetic (m : Core σ) {xs ys : List UInt8} (hlength : xs.length = ys.length) :
    ((∃ ps m', Ripple .addCarry [] m xs ys ps m') ∧
      ∀ ps m', Ripple .addCarry [] m xs ys ps m' →
        ps.length = xs.length ∧
        byteNumber (ps.map Place.result) =
          (byteNumber xs + byteNumber ys + carryValue m.carry) % 256 ^ xs.length ∧
        (m'.carry = true ↔
          256 ^ xs.length ≤ byteNumber xs + byteNumber ys + carryValue m.carry) ∧
        ∀ p ∈ ps, (p.after.cpu.regs.flag .zero = true ↔ p.result = 0) ∧
          (p.after.cpu.regs.flag .halfCarry = true ↔
            16 ≤ p.x.toNat % 16 + p.y.toNat % 16 + carryValue p.before.carry)) ∧
    ((∃ ps m', Ripple .subCarry [] m xs ys ps m') ∧
      ∀ ps m', Ripple .subCarry [] m xs ys ps m' →
        ps.length = xs.length ∧
        (byteNumber (ps.map Place.result) : Int) =
          ((byteNumber xs : Int) - byteNumber ys - carryValue m.carry) % 256 ^ xs.length ∧
        (m'.carry = true ↔ byteNumber xs < byteNumber ys + carryValue m.carry) ∧
        ∀ p ∈ ps, (p.after.cpu.regs.flag .zero = true ↔ p.result = 0) ∧
          (p.after.cpu.regs.flag .halfCarry = true ↔
            p.x.toNat % 16 < p.y.toNat % 16 + carryValue p.before.carry)) := by
  refine ⟨⟨exists_ripple _ _ m hlength, ?add⟩, ⟨exists_ripple _ _ m hlength, ?sub⟩⟩
  case add =>
    intro ps m' h
    have hplaces := h.computed
    obtain ⟨hsum, hcarry⟩ := h.sum (by decide) fun p hp => (hplaces p hp).balanced_add
    refine ⟨h.length_eq, hsum, hcarry, ?_⟩
    intro p hp
    obtain ⟨hresult, hflags⟩ := (hplaces p hp).plain
    rw [hflags, hflags, hresult]
    exact ⟨beq_iff_eq, decide_eq_true_iff⟩
  case sub =>
    intro ps m' h
    have hplaces := h.computed
    obtain ⟨hdifference, hcarry⟩ := h.difference (by decide) fun p hp => (hplaces p hp).balanced_sub
    refine ⟨h.length_eq, mod_cast hdifference, hcarry, ?_⟩
    intro p hp
    obtain ⟨hresult, hflags⟩ := (hplaces p hp).plain
    rw [hflags, hflags, hresult]
    exact ⟨beq_iff_eq, decide_eq_true_iff⟩

/-- A carry that comes in at the lowest byte and goes through both. -/
theorem long_arithmetic_carriedThrough :
    ([0xFF, 0xFF] : List UInt8).length = ([0x00, 0x01] : List UInt8).length ∧
      ∃ ps m', Ripple .addCarry [] (⟨.boot, {}⟩ : Core FlatMemory) [0xFF, 0xFF] [0x00, 0x01] ps m' ∧
        byteNumber (ps.map Place.result) = 0x0100 ∧ m'.carry = true := by
  have hlength : ([0xFF, 0xFF] : List UInt8).length = ([0x00, 0x01] : List UInt8).length := rfl
  obtain ⟨⟨ps, m', h⟩, hall⟩ := (long_arithmetic (⟨.boot, {}⟩ : Core FlatMemory) hlength).1
  obtain ⟨-, hsum, hcarry, -⟩ := hall ps m' h
  refine ⟨hlength, ps, m', h, ?_, ?_⟩
  · rw [hsum]
    decide
  · rw [hcarry]
    decide

end Handheld
