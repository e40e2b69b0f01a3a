/-
Module: Handheld.Proofs.Processor.DecimalArithmetic
Purpose: ADC and SBC, each followed by DAA, add and subtract packed decimal numbers of any length.
  DAA finds in the flags what the binary operation before it has done to the two digits of a byte.
Main exports: IsPacked, packedValue, decimalAdjust_addBytes, decimalAdjust_subtractBytes,
  decimalNumber, decimal_arithmetic
-/
import Handheld.Proofs.Processor.LongArithmetic

namespace Handheld

/-! ### Packed digits -/

/-- The byte holds two decimal digits. -/
def IsPacked (b : UInt8) : Prop :=
  b.toNat / 16 ≤ 9 ∧ b.toNat % 16 ≤ 9

instance (b : UInt8) : Decidable (IsPacked b) :=
  inferInstanceAs (Decidable (_ ∧ _))

/-- The value of two packed digits. -/
def packedValue (b : UInt8) : Nat :=
  10 * (b.toNat / 16) + b.toNat % 16

theorem IsPacked.value_lt {b : UInt8} (h : IsPacked b) : packedValue b < 100 := by
  obtain ⟨hhigh, hlow⟩ := h
  unfold packedValue
  omega

/-! ### One byte -/

theorem nine_lt_low_iff (x : UInt8) : 9 < x &&& 0x0F ↔ 9 < x.toNat % 16 := by
  have hmask : (x &&& 0x0F).toNat = x.toNat % 16 := toNat_and_mask x 0x0F (n := 4) rfl
  rw [UInt8.lt_iff_toNat_lt, hmask]
  rfl

theorem toNat_ite_add {p q : Prop} [Decidable p] [Decidable q] (h : p ↔ q) (x k : UInt8) :
    (if p then x + k else x).toNat = (x.toNat + if q then k.toNat else 0) % 256 := by
  by_cases hp : p
  · rw [if_pos hp, if_pos (h.mp hp)]
    exact UInt8.toNat_add x k
  · rw [if_neg hp, if_neg (mt h.mpr hp)]
    exact (Nat.mod_eq_of_lt x.toNat_lt).symm

theorem toNat_ite_sub {p : Prop} [Decidable p] (x k : UInt8) :
    (if p then x - k else x).toNat = (256 + x.toNat - if p then k.toNat else 0) % 256 := by
  have hx := x.toNat_lt
  have hk := k.toNat_lt
  by_cases hp : p
  · rw [if_pos hp, if_pos hp, UInt8.toNat_sub]
    omega
  · rw [if_neg hp, if_neg hp]
    omega

/-- After an addition the high digit is adjusted, and there is a carry, exactly if that digit has
    left its range. -/
theorem carry_decimalAdjust_add (x : UInt8) {flags : Flags} (h : flags.subtract = false) :
    (decimalAdjust x flags).flags.carry = true ↔ flags.carry = true ∨ 0x99 < x.toNat := by
  unfold decimalAdjust
  dsimp only
  rw [h, Bool.not_false, Bool.true_and, Bool.or_eq_true, decide_eq_true_iff, UInt8.lt_iff_toNat_lt]
  rfl

/-- What DAA adds after an addition: six for the low digit and sixty for the high one, each if that
    digit has left its range. -/
theorem toNat_decimalAdjust_add (x : UInt8) {flags : Flags} (h : flags.subtract = false) :
    (decimalAdjust x flags).value.toNat =
      (x.toNat + (if flags.carry = true ∨ 0x99 < x.toNat then 0x60 else 0) +
        if flags.halfCarry = true ∨ 9 < x.toNat % 16 then 6 else 0) % 256 := by
  let high := if (decimalAdjust x flags).flags.carry then x + 0x60 else x
  have hhigh : high.toNat =
      (x.toNat + if flags.carry = true ∨ 0x99 < x.toNat then 0x60 else 0) % 256 :=
    toNat_ite_add (carry_decimalAdjust_add x h) x 0x60
  have hdigit : high.toNat % 16 = x.toNat % 16 := by
    rw [hhigh]
    split <;> omega
  have hlow : (flags.halfCarry || decide (9 < high &&& 0x0F)) = true ↔
      flags.halfCarry = true ∨ 9 < x.toNat % 16 := by
    rw [Bool.or_eq_true, decide_eq_true_iff, nine_lt_low_iff, hdigit]
  have hvalue : (decimalAdjust x flags).value =
      if flags.halfCarry || decide (9 < high &&& 0x0F) then high + 0x06 else high :=
    if_neg (by rw [h]; exact Bool.false_ne_true)
  rw [hvalue, toNat_ite_add hlow, hhigh, Nat.mod_add_mod]
  rfl

theorem carry_decimalAdjust_sub (x : UInt8) {flags : Flags} (h : flags.subtract = true) :
    (decimalAdjust x flags).flags.carry = flags.carry := by
  unfold decimalAdjust
  rw [h, Bool.not_true, Bool.false_and, Bool.or_false]

/-- What DAA takes away after a subtraction: six for each digit that has borrowed. -/
theorem toNat_decimalAdjust_sub (x : UInt8) {flags : Flags} (h : flags.subtract = true) :
    (decimalAdjust x flags).value.toNat =
      (512 + x.toNat - (if flags.carry = true then 0x60 else 0) -
        if flags.halfCarry = true then 6 else 0) % 256 := by
  let high := if flags.carry then x - 0x60 else x
  have hhigh : high.toNat = (256 + x.toNat - if flags.carry = true then 0x60 else 0) % 256 :=
    toNat_ite_sub x 0x60
  have hvalue : (decimalAdjust x flags).value = if flags.halfCarry then high - 0x06 else high :=
    if_pos h
  have hsix : (0x06 : UInt8).toNat = 6 := rfl
  rw [hvalue, toNat_ite_sub, hhigh, hsix]
  split <;> split <;> omega

/-- The sum of packed digits is adjusted to packed digits, and the carry counts hundreds. -/
theorem decimalAdjust_addBytes {x y : UInt8} (hx : IsPacked x) (hy : IsPacked y) (carry : Bool) :
    let sum := addBytes x y carry
    let adjusted := decimalAdjust sum.value sum.flags
    IsPacked adjusted.value ∧
      packedValue adjusted.value + 100 * carryValue adjusted.flags.carry =
        packedValue x + packedValue y + carryValue carry := by
  intro sum adjusted
  obtain ⟨hxh, hxl⟩ := hx
  obtain ⟨hyh, hyl⟩ := hy
  have hcarry := carryValue_le carry
  have hbalance : sum.value.toNat + 256 * carryValue sum.flags.carry =
      x.toNat + y.toNat + carryValue carry := addBytes_balance x y carry
  have hfull : sum.flags.carry = true ↔ 255 < x.toNat + y.toNat + carryValue carry :=
    decide_eq_true_iff
  have hhalf : sum.flags.halfCarry = true ↔
      15 < x.toNat % 16 + y.toNat % 16 + carryValue carry := decide_eq_true_iff
  -- both tests of DAA, in terms of the decimal digits
  have hlow : sum.flags.halfCarry = true ∨ 9 < sum.value.toNat % 16 ↔
      10 ≤ x.toNat % 16 + y.toNat % 16 + carryValue carry := by
    rw [hhalf]
    omega
  have hhigh : sum.flags.carry = true ∨ 0x99 < sum.value.toNat ↔
      100 ≤ packedValue x + packedValue y + carryValue carry := by
    unfold packedValue
    rw [hfull]
    cases hout : sum.flags.carry with
    | false =>
        rw [hout, carryValue_false] at hbalance
        omega
    | true =>
        have hlarge := hfull.mp hout
        omega
  have hvalue : adjusted.value.toNat = _ := toNat_decimalAdjust_add sum.value rfl
  have hout : carryValue adjusted.flags.carry =
      if 100 ≤ packedValue x + packedValue y + carryValue carry then 1 else 0 :=
    if_congr ((carry_decimalAdjust_add sum.value rfl).trans hhigh) rfl rfl
  simp only [hlow, hhigh] at hvalue
  unfold packedValue at hvalue hout ⊢
  unfold IsPacked
  by_cases hhundred : 100 ≤ 10 * (x.toNat / 16) + x.toNat % 16 +
      (10 * (y.toNat / 16) + y.toNat % 16) + carryValue carry
  · rw [if_pos hhundred] at hvalue hout
    by_cases hten : 10 ≤ x.toNat % 16 + y.toNat % 16 + carryValue carry
    · rw [if_pos hten] at hvalue
      omega
    · rw [if_neg hten] at hvalue
      omega
  · rw [if_neg hhundred] at hvalue hout
    by_cases hten : 10 ≤ x.toNat % 16 + y.toNat % 16 + carryValue carry
    · rw [if_pos hten] at hvalue
      omega
    · rw [if_neg hten] at hvalue
      omega

/-- 45 and 38 make 83. -/
example : (decimalAdjust (addBytes 0x45 0x38 false).value (addBytes 0x45 0x38 false).flags).value =
    0x83 := by
  decide

/-- The difference of packed digits is adjusted to packed digits, and the borrow counts hundreds. -/
theorem decimalAdjust_subtractBytes {x y : UInt8} (hx : IsPacked x) (hy : IsPacked y)
    (borrow : Bool) :
    let difference := subtractBytes x y borrow
    let adjusted := decimalAdjust difference.value difference.flags
    IsPacked adjusted.value ∧
      packedValue adjusted.value + packedValue y + carryValue borrow =
        packedValue x + 100 * carryValue adjusted.flags.carry := by
  intro difference adjusted
  obtain ⟨hxh, hxl⟩ := hx
  obtain ⟨hyh, hyl⟩ := hy
  have hborrow := carryValue_le borrow
  have hfull : difference.flags.carry = true ↔ x.toNat < y.toNat + carryValue borrow :=
    decide_eq_true_iff
  have hhalf : difference.flags.halfCarry = true ↔
      x.toNat % 16 < y.toNat % 16 + carryValue borrow := decide_eq_true_iff
  have hout : carryValue difference.flags.carry =
      if x.toNat < y.toNat + carryValue borrow then 1 else 0 := if_congr hfull rfl rfl
  have hbalance : difference.value.toNat + y.toNat + carryValue borrow =
      x.toNat + 256 * carryValue difference.flags.carry := subtractBytes_balance x y borrow
  have hvalue : adjusted.value.toNat = _ := toNat_decimalAdjust_sub difference.value rfl
  have hkeep : adjusted.flags.carry = difference.flags.carry :=
    carry_decimalAdjust_sub difference.value rfl
  simp only [hfull, hhalf] at hvalue
  unfold IsPacked packedValue
  rw [hkeep]
  by_cases hhundred : x.toNat < y.toNat + carryValue borrow
  · rw [if_pos hhundred] at hvalue hout
    by_cases hten : x.toNat % 16 < y.toNat % 16 + carryValue borrow
    · rw [if_pos hten] at hvalue
      omega
    · rw [if_neg hten] at hvalue
      omega
  · rw [if_neg hhundred] at hvalue hout
    by_cases hten : x.toNat % 16 < y.toNat % 16 + carryValue borrow
    · rw [if_pos hten] at hvalue
      omega
    · rw [if_neg hten] at hvalue
      omega

/-! ### Numbers of any length -/

variable {σ : Type} [Bus σ] {p : Place σ}

/-- DAA adjusts what the operation before it has left. -/
theorem Place.Computed.adjusted {op : Arith} (h : p.Computed op [.decimalAdjust]) :
    let r := op.apply p.x p.y p.before.carry
    p.result = (decimalAdjust r.value r.flags).value ∧
      p.after.carry = (decimalAdjust r.value r.flags).flags.carry := by
  obtain ⟨m, instr, hx, hcarry, hinstr, hafter⟩ := h
  obtain ⟨hvalue, hflags⟩ := Core.regs_of_applies hinstr
  obtain ⟨hresult, hout⟩ := Core.regs_decimalAdjust hflags
  rw [hvalue, hx, hcarry] at hresult hout
  rw [result, hafter]
  exact ⟨hresult, hout .carry⟩

theorem Place.Computed.packed_add (h : p.Computed .addCarry [.decimalAdjust]) (hx : IsPacked p.x)
    (hy : IsPacked p.y) : IsPacked p.result ∧ p.Balanced 1 100 packedValue := by
  obtain ⟨hpacked, hbalance⟩ := decimalAdjust_addBytes hx hy p.before.carry
  obtain ⟨hresult, hout⟩ := h.adjusted
  have hdigits : IsPacked p.result := hresult ▸ hpacked
  refine ⟨hdigits, hdigits.value_lt, ?_⟩
  rw [hresult, hout, Arith.apply_addCarry]
  omega

theorem Place.Computed.packed_sub (h : p.Computed .subCarry [.decimalAdjust]) (hx : IsPacked p.x)
    (hy : IsPacked p.y) : IsPacked p.result ∧ p.Balanced (-1) 100 packedValue := by
  obtain ⟨hpacked, hbalance⟩ := decimalAdjust_subtractBytes hx hy p.before.carry
  obtain ⟨hresult, hout⟩ := h.adjusted
  have hdigits : IsPacked p.result := hresult ▸ hpacked
  refine ⟨hdigits, hdigits.value_lt, ?_⟩
  rw [hresult, hout, Arith.apply_subCarry]
  omega

/-- The number whose decimal digits are packed in bytes, the lowest first. -/
def decimalNumber (bytes : List UInt8) : Nat :=
  numberOf 100 packedValue bytes

/-- Byte after byte, ADC with DAA makes the sum and SBC with DAA the difference of two packed decimal
    numbers of any length, again in packed digits and up to a multiple of what the digits can hold,
    and the last carry tells whether they hold it. -/
theorem decimal_arithmetic (m : Core σ) {xs ys : List UInt8} (hlength : xs.length = ys.length)
    (hxs : ∀ b ∈ xs, IsPacked b) (hys : ∀ b ∈ ys, IsPacked b) :
    ((∃ ps m', Ripple .addCarry [.decimalAdjust] m xs ys ps m') ∧
      ∀ ps m', Ripple .addCarry [.decimalAdjust] m xs ys ps m' →
        ps.length = xs.length ∧
        (∀ p ∈ ps, IsPacked p.result) ∧
        decimalNumber (ps.map Place.result) =
          (decimalNumber xs + decimalNumber ys + carryValue m.carry) % 100 ^ xs.length ∧
        (m'.carry = true ↔
          100 ^ xs.length ≤ decimalNumber xs + decimalNumber ys + carryValue m.carry)) ∧
    ((∃ ps m', Ripple .subCarry [.decimalAdjust] m xs ys ps m') ∧
      ∀ ps m', Ripple .subCarry [.decimalAdjust] m xs ys ps m' →
        ps.length = xs.length ∧
        (∀ p ∈ ps, IsPacked p.result) ∧
        (decimalNumber (ps.map Place.result) : Int) =
          ((decimalNumber xs : Int) - decimalNumber ys - carryValue m.carry) % 100 ^ xs.length ∧
        (m'.carry = true ↔ decimalNumber xs < decimalNumber ys + carryValue m.carry)) := by
  refine ⟨⟨exists_ripple _ _ m hlength, ?add⟩, ⟨exists_ripple _ _ m hlength, ?sub⟩⟩
  case add =>
    intro ps m' h
    have hplaces : ∀ p ∈ ps, IsPacked p.result ∧ p.Balanced 1 100 packedValue := by
      intro p hp
      obtain ⟨hx, hy⟩ := h.bytes_mem p hp
      exact (h.computed p hp).packed_add (hxs _ hx) (hys _ hy)
    obtain ⟨hsum, hcarry⟩ := h.sum (by decide) fun p hp => (hplaces p hp).2
    exact ⟨h.length_eq, fun p hp => (hplaces p hp).1, hsum, hcarry⟩
  case sub =>
    intro ps m' h
    have hplaces : ∀ p ∈ ps, IsPacked p.result ∧ p.Balanced (-1) 100 packedValue := by
      intro p hp
      obtain ⟨hx, hy⟩ := h.bytes_mem p hp
      exact (h.computed p hp).packed_sub (hxs _ hx) (hys _ hy)
    obtain ⟨hdifference, hcarry⟩ := h.difference (by decide) fun p hp => (hplaces p hp).2
    exact ⟨h.length_eq, fun p hp => (hplaces p hp).1, mod_cast hdifference, hcarry⟩

/-- 9999 and 1, with a carry, do not fit in four digits, and 1 is left. -/
theorem decimal_arithmetic_carriedOut :
    ([0x99, 0x99] : List UInt8).length = ([0x01, 0x00] : List UInt8).length ∧
      (∀ b ∈ ([0x99, 0x99] : List UInt8), IsPacked b) ∧
      (∀ b ∈ ([0x01, 0x00] : List UInt8), IsPacked b) ∧
      ∃ ps m', Ripple .addCarry [.decimalAdjust] (⟨.boot, {}⟩ : Core FlatMemory) [0x99, 0x99]
          [0x01, 0x00] ps m' ∧
        decimalNumber (ps.map Place.result) = 1 ∧ m'.carry = true := by
  have hlength : ([0x99, 0x99] : List UInt8).length = ([0x01, 0x00] : List UInt8).length := rfl
  have hxs : ∀ b ∈ ([0x99, 0x99] : List UInt8), IsPacked b := by
    rw [List.forall_mem_cons, List.forall_mem_singleton]
    decide
  have hys : ∀ b ∈ ([0x01, 0x00] : List UInt8), IsPacked b := by
    rw [List.forall_mem_cons, List.forall_mem_singleton]
    decide
  obtain ⟨⟨ps, m', h⟩, hall⟩ :=
    (decimal_arithmetic (⟨.boot, {}⟩ : Core FlatMemory) hlength hxs hys).1
  obtain ⟨-, -, hsum, hcarry⟩ := hall ps m' h
  refine ⟨hlength, hxs, hys, ps, m', h, ?_, ?_⟩
  · rw [hsum]
    decide
  · rw [hcarry]
    decide

end Handheld
