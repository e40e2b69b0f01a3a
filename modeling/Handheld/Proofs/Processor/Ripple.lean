/-
Module: Handheld.Proofs.Processor.Ripple
Purpose: Sums and differences of numbers of many bytes. A program takes the bytes of two numbers
  place by place, the lowest first, and hands on nothing but the carry flag. If every single place
  comes out right, together with its carry, so does the number as a whole.
Main exports: Instr.Applies, Core.executeAll, Place, Place.Computed, Ripple, exists_ripple,
  Place.Balanced, Ripple.sum, Ripple.difference
-/
import Mathlib.Data.Nat.Digits.Lemmas
import Mathlib.Tactic.LinearCombination
import Handheld.Proofs.Checked.Arithmetic
import Handheld.Proofs.Processor.RegisterFrame

namespace Handheld

variable {σ : Type} [Bus σ] {op : Arith} {adjust : List Instr}

@[simp] theorem carryValue_false : carryValue false = 0 := rfl

@[simp] theorem carryValue_true : carryValue true = 1 := rfl

/-! ### Programs that work place by place -/

namespace Core

/-- The carry flag. -/
def carry (m : Core σ) : Bool :=
  m.cpu.regs.flag .carry

/-- Carry out instructions one after the other. -/
def executeAll (m : Core σ) : List Instr → Core σ
  | [] => m
  | instr :: rest => (m.execute instr).2.executeAll rest

end Core

/-- In the state `m`, the instruction applies `op` to A and the byte `y`, which it holds itself or
    finds in its operand. -/
inductive Instr.Applies (op : Arith) (y : UInt8) (m : Core σ) : Instr → Prop where
  | immediate : Applies op y m (.arithByte op y)
  | operand (src : Operand) (h : (m.load src).1 = y) : Applies op y m (.arith op src)

/-- One place of a long sum or difference: two bytes, and the states around their combination. -/
structure Place (σ : Type) where
  x : UInt8
  y : UInt8
  before : Core σ
  after : Core σ

namespace Place

/-- The byte that stands in A at the end. -/
def result (p : Place σ) : UInt8 :=
  p.after.cpu.regs.a

/-- The place is worked out by `op` and the instructions that adjust its result. Whatever brings the
    first byte into A before that may change anything but the carry. -/
def Computed (op : Arith) (adjust : List Instr) (p : Place σ) : Prop :=
  ∃ (m : Core σ) (instr : Instr), m.cpu.regs.a = p.x ∧ m.carry = p.before.carry ∧
    instr.Applies op p.y m ∧ p.after = (m.execute instr).2.executeAll adjust

end Place

/-- `Ripple op adjust m xs ys ps m'`: from `m` to `m'`, the bytes `xs` and `ys` are combined place by
    place, which gives the places `ps`. -/
inductive Ripple (op : Arith) (adjust : List Instr) :
    Core σ → List UInt8 → List UInt8 → List (Place σ) → Core σ → Prop where
  | done (m : Core σ) : Ripple op adjust m [] [] [] m
  | place {p : Place σ} {xs ys : List UInt8} {ps : List (Place σ)} {m' : Core σ}
      (hplace : p.Computed op adjust) (hrest : Ripple op adjust p.after xs ys ps m') :
      Ripple op adjust p.before (p.x :: xs) (p.y :: ys) (p :: ps) m'

/-- From every state there is such a run, whatever the bytes are. -/
theorem exists_ripple (op : Arith) (adjust : List Instr) (m : Core σ) {xs ys : List UInt8}
    (h : xs.length = ys.length) : ∃ ps m', Ripple op adjust m xs ys ps m' := by
  induction xs generalizing m ys with
  | nil =>
      obtain rfl : ys = [] := List.eq_nil_of_length_eq_zero h.symm
      exact ⟨[], m, .done m⟩
  | cons x xs ih =>
      obtain ⟨y, ys, rfl⟩ := List.exists_cons_of_length_eq_add_one h.symm
      let loaded := m.mapRegs fun r => { r with a := x }
      let after := (loaded.execute (.arithByte op y)).2.executeAll adjust
      obtain ⟨ps, m', hrest⟩ := ih after (Nat.succ.inj h)
      let first : Place σ := ⟨x, y, m, after⟩
      have hfirst : first.Computed op adjust :=
        ⟨loaded, .arithByte op y, rfl, rfl, .immediate, rfl⟩
      exact ⟨first :: ps, m', .place hfirst hrest⟩

/-! ### One place -/

namespace Core

/-- An arithmetic instruction leaves value and flags of its operation. -/
theorem regs_of_applies {m : Core σ} {instr : Instr} {y : UInt8} (h : instr.Applies op y m) :
    (m.execute instr).2.cpu.regs.a = (op.apply m.cpu.regs.a y m.carry).value ∧
      ∀ flag, (m.execute instr).2.cpu.regs.flag flag =
        (op.apply m.cpu.regs.a y m.carry).flags.get flag := by
  have haccept (m' : Core σ) (r : ByteResult) : (m'.accept r).cpu.regs.a = r.value ∧
      ∀ flag, (m'.accept r).cpu.regs.flag flag = r.flags.get flag :=
    ⟨rfl, r.flags.flag_toByte⟩
  cases h with
  | immediate => exact haccept m _
  | operand src h =>
      subst h
      cases src with
      | reg r => exact haccept m _
      | atHL => exact haccept (m.load .atHL).2 _

theorem regs_decimalAdjust {m : Core σ} {flags : Flags}
    (h : ∀ flag, m.cpu.regs.flag flag = flags.get flag) :
    (m.execute .decimalAdjust).2.cpu.regs.a = (decimalAdjust m.cpu.regs.a flags).value ∧
      ∀ flag, (m.execute .decimalAdjust).2.cpu.regs.flag flag =
        (decimalAdjust m.cpu.regs.a flags).flags.get flag := by
  obtain ⟨z, n, hc, c⟩ := flags
  have hz : m.cpu.regs.flag .zero = z := h .zero
  have hn : m.cpu.regs.flag .subtract = n := h .subtract
  have hh : m.cpu.regs.flag .halfCarry = hc := h .halfCarry
  have hcarry : m.cpu.regs.flag .carry = c := h .carry
  simp only [execute, hz, hn, hh, hcarry]
  exact ⟨rfl, Flags.flag_toByte _⟩

end Core

/-! ### All places -/

/-- The number whose digits, the lowest first, are written in bytes. -/
def numberOf (base : Nat) (digit : UInt8 → Nat) (bytes : List UInt8) : Nat :=
  Nat.ofDigits base (bytes.map digit)

/-- The place comes out right, for a sum if `sign` is 1 and for a difference if it is -1: its result
    is a digit, and what does not fit in it goes into the carry. -/
structure Place.Balanced (sign : Int) (base : Nat) (digit : UInt8 → Nat) (p : Place σ) : Prop where
  lt_base : digit p.result < base
  balance : (digit p.result : Int) + sign * base * carryValue p.after.carry =
    digit p.x + sign * (digit p.y + carryValue p.before.carry)

namespace Ripple

variable {base : Nat} {digit : UInt8 → Nat} {m m' : Core σ} {xs ys : List UInt8}
  {ps : List (Place σ)}

theorem length_eq (h : Ripple op adjust m xs ys ps m') : ps.length = xs.length := by
  induction h with
  | done => rfl
  | place hplace hrest ih => exact congrArg (· + 1) ih

theorem computed (h : Ripple op adjust m xs ys ps m') : ∀ p ∈ ps, p.Computed op adjust := by
  induction h with
  | done => exact List.forall_mem_nil _
  | place hplace hrest ih => exact List.forall_mem_cons.mpr ⟨hplace, ih⟩

theorem bytes_mem (h : Ripple op adjust m xs ys ps m') : ∀ p ∈ ps, p.x ∈ xs ∧ p.y ∈ ys := by
  induction h with
  | done => exact List.forall_mem_nil _
  | place hplace hrest ih =>
      refine List.forall_mem_cons.mpr ⟨⟨List.mem_cons_self, List.mem_cons_self⟩, ?_⟩
      intro p hp
      obtain ⟨hx, hy⟩ := ih p hp
      exact ⟨List.mem_cons_of_mem _ hx, List.mem_cons_of_mem _ hy⟩

/-- The carries between the places cancel out. -/
theorem balance {sign : Int} (h : Ripple op adjust m xs ys ps m')
    (hplaces : ∀ p ∈ ps, p.Balanced sign base digit) :
    (numberOf base digit (ps.map Place.result) : Int) +
        sign * (base ^ xs.length : Nat) * carryValue m'.carry =
      numberOf base digit xs + sign * (numberOf base digit ys + carryValue m.carry) := by
  induction h with
  | done m => simp [numberOf]
  | @place p xs ys ps m' hplace hrest ih =>
      obtain ⟨hfirst, hothers⟩ := List.forall_mem_cons.mp hplaces
      have hlow := hfirst.balance
      have hhigh := ih hothers
      simp only [numberOf, List.map_cons, Nat.ofDigits_cons, List.length_cons, pow_succ] at hhigh ⊢
      push_cast at hhigh ⊢
      linear_combination hlow + base * hhigh

theorem number_lt {sign : Int} (h : Ripple op adjust m xs ys ps m') (hbase : 1 < base)
    (hplaces : ∀ p ∈ ps, p.Balanced sign base digit) :
    numberOf base digit (ps.map Place.result) < base ^ xs.length := by
  have hlength : xs.length = ((ps.map Place.result).map digit).length := by
    rw [List.length_map, List.length_map, h.length_eq]
  rw [hlength]
  apply Nat.ofDigits_lt_base_pow_length hbase
  intro d hd
  obtain ⟨b, hb, rfl⟩ := List.mem_map.mp hd
  obtain ⟨p, hp, rfl⟩ := List.mem_map.mp hb
  exact (hplaces p hp).lt_base

/-- Right sums in every place make up the sum, less what the last carry stands for. -/
theorem sum (h : Ripple op adjust m xs ys ps m') (hbase : 1 < base)
    (hplaces : ∀ p ∈ ps, p.Balanced 1 base digit) :
    numberOf base digit (ps.map Place.result) =
        (numberOf base digit xs + numberOf base digit ys + carryValue m.carry) % base ^ xs.length ∧
      (m'.carry = true ↔ base ^ xs.length ≤
        numberOf base digit xs + numberOf base digit ys + carryValue m.carry) := by
  have hlt := h.number_lt hbase hplaces
  have htotal : numberOf base digit (ps.map Place.result) + base ^ xs.length * carryValue m'.carry =
      numberOf base digit xs + numberOf base digit ys + carryValue m.carry := by
    have hbalance := h.balance hplaces
    rw [one_mul, one_mul, ← add_assoc] at hbalance
    exact_mod_cast hbalance
  rw [← htotal]
  cases m'.carry with
  | false =>
      rw [carryValue_false, Nat.mul_zero, Nat.add_zero, Nat.mod_eq_of_lt hlt]
      exact ⟨rfl, iff_of_false Bool.false_ne_true (Nat.not_le_of_lt hlt)⟩
  | true =>
      rw [carryValue_true, Nat.mul_one, Nat.add_mod_right, Nat.mod_eq_of_lt hlt]
      exact ⟨rfl, iff_of_true rfl (Nat.le_add_left _ _)⟩

/-- Right differences in every place make up the difference, plus what the last borrow brings in. -/
theorem difference (h : Ripple op adjust m xs ys ps m') (hbase : 1 < base)
    (hplaces : ∀ p ∈ ps, p.Balanced (-1) base digit) :
    (numberOf base digit (ps.map Place.result) : Int) =
        ((numberOf base digit xs : Int) - numberOf base digit ys - carryValue m.carry) %
          (base ^ xs.length : Nat) ∧
      (m'.carry = true ↔
        numberOf base digit xs < numberOf base digit ys + carryValue m.carry) := by
  have hlt := h.number_lt hbase hplaces
  have hbalance := h.balance hplaces
  generalize numberOf base digit (ps.map Place.result) = result at hlt hbalance ⊢
  generalize base ^ xs.length = bound at hlt hbalance ⊢
  have hrange : (result : Int) % bound = result :=
    Int.emod_eq_of_lt (Int.natCast_nonneg _) (Int.ofNat_lt.mpr hlt)
  have htotal : (numberOf base digit xs : Int) - numberOf base digit ys - carryValue m.carry =
      result + bound * -(carryValue m'.carry : Int) := by
    linear_combination -hbalance
  rw [htotal, Int.add_mul_emod_self_left, hrange]
  refine ⟨rfl, ?_⟩
  cases hcarry : m'.carry with
  | false =>
      rw [hcarry, carryValue_false] at htotal
      refine iff_of_false Bool.false_ne_true ?_
      omega
  | true =>
      rw [hcarry, carryValue_true] at htotal
      refine iff_of_true rfl ?_
      omega

end Ripple

end Handheld
