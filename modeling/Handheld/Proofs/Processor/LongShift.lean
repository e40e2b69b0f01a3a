/-
Module: Handheld.Proofs.Processor.LongShift
Purpose: Shifts of numbers of many bytes. Upwards a program takes the bytes from the lowest on, and
  downwards from the highest; the first shift decides which bit comes in, and every other byte takes
  in the carry that the byte before it has let out.
Main exports: Core.Keeps, Core.Shifts, Shift.MovesUp, Shift.MovesDown, ShiftChain, ShiftChain.up,
  ShiftChain.down, signedNumber, long_shifts
-/
import Handheld.Proofs.Processor.LongArithmetic

namespace Handheld

variable {σ : Type} [Bus σ]

/-! ### One byte -/

theorem Registers.get_set_self (r : Registers) (reg : Reg) (value : UInt8) :
    (r.set reg value).get reg = value := by
  cases reg <;> rfl

theorem Registers.flag_set (r : Registers) (reg : Reg) (value : UInt8) (flag : Flag) :
    (r.set reg value).flag flag = r.flag flag := by
  cases reg <;> rfl

namespace Core

/-- What is written to the operand is found there again. For a register this is always so. -/
def Keeps (m : Core σ) (dst : Operand) : Prop :=
  ∀ value, (((m.load dst).2.store dst value).load dst).1 = value

theorem keeps_reg (m : Core σ) (r : Reg) : m.Keeps (.reg r) := fun value =>
  m.cpu.regs.get_set_self r value

theorem keeps_flat (m : Core FlatMemory) (dst : Operand) : m.Keeps dst := by
  cases dst with
  | reg r => exact m.keeps_reg r
  | atHL => exact m.bus.get_set_self m.cpu.regs.hl

theorem load_modify {m : Core σ} {dst : Operand} (h : m.Keeps dst)
    (f : UInt8 → Bool → ByteResult) :
    ((m.modify dst f).load dst).1 = (f (m.load dst).1 m.carry).value := by
  cases dst with
  | reg r => exact Registers.get_set_self _ r _
  | atHL => exact h _

theorem flag_modify (m : Core σ) (dst : Operand) (f : UInt8 → Bool → ByteResult) (flag : Flag) :
    (m.modify dst f).cpu.regs.flag flag = (f (m.load dst).1 m.carry).flags.get flag := by
  cases dst with
  | reg r =>
      change ((m.cpu.regs.setFlags _).set r _).flag flag = _
      rw [Registers.flag_set]
      exact Flags.flag_toByte _ flag
  | atHL => exact Flags.flag_toByte _ flag

/-- From `before`, the byte `x` is shifted in some register, or in a byte of memory that keeps what is
    written to it, which gives `y`. Whatever goes before may change anything but the carry. -/
def Shifts (op : Shift) (x y : UInt8) (before after : Core σ) : Prop :=
  ∃ (m : Core σ) (dst : Operand), m.carry = before.carry ∧ (m.load dst).1 = x ∧ m.Keeps dst ∧
    after = (m.execute (.shift op dst)).2 ∧ (after.load dst).1 = y

variable {op : Shift} {x y : UInt8} {before after : Core σ}

theorem Shifts.eq_apply (h : Shifts op x y before after) :
    y = (op.apply x before.carry).value ∧ after.carry = (op.apply x before.carry).flags.carry := by
  obtain ⟨m, dst, hcarry, rfl, hkeeps, rfl, rfl⟩ := h
  rw [← hcarry]
  exact ⟨load_modify hkeeps _, flag_modify m dst _ .carry⟩

/-- A byte that has just been stored can be shifted. -/
theorem exists_shifts_stored (op : Shift) (x : UInt8) (m : Core σ) (dst : Operand)
    (hheld : ((m.store dst x).load dst).1 = x) (hkeeps : (m.store dst x).Keeps dst) :
    ∃ y after, Shifts op x y m after := by
  have hcarry : (m.store dst x).carry = m.carry := by
    cases dst with
    | reg r => exact m.cpu.regs.flag_set r x .carry
    | atHL => rfl
  exact ⟨_, _, m.store dst x, dst, hcarry, hheld, hkeeps, rfl, rfl⟩

theorem exists_shifts (op : Shift) (x : UInt8) (m : Core σ) : ∃ y after, Shifts op x y m after :=
  exists_shifts_stored op x m (.reg .b) (m.cpu.regs.get_set_self .b x) (keeps_reg _ .b)

/-- On flat memory so can the byte at HL. -/
theorem exists_shifts_atHL (op : Shift) (x : UInt8) (m : Core FlatMemory) :
    ∃ y after, Shifts op x y m after :=
  exists_shifts_stored op x m .atHL (m.bus.get_set_self m.cpu.regs.hl x) (keeps_flat _ .atHL)

end Core

namespace Shift

/-- Every bit of the byte goes one place up: the highest is let out into the carry, and a bit comes in
    as the lowest. -/
def MovesUp (op : Shift) (entering : UInt8 → Bool → Bool) : Prop :=
  ∀ x carry, (op.apply x carry).value.toNat + 256 * carryValue (op.apply x carry).flags.carry =
    2 * x.toNat + carryValue (entering x carry)

/-- Every bit of the byte goes one place down: the lowest is let out into the carry, and a bit comes in
    as the highest. -/
def MovesDown (op : Shift) (entering : UInt8 → Bool → Bool) : Prop :=
  ∀ x carry, 2 * (op.apply x carry).value.toNat + carryValue (op.apply x carry).flags.carry =
    x.toNat + 256 * carryValue (entering x carry)

/-- There are no more than 512 cases. -/
theorem forall_byte_iff {p : UInt8 → Bool → Prop} :
    (∀ (bits : BitVec 8) (carry : Bool), p (UInt8.ofBitVec bits) carry) ↔ ∀ x carry, p x carry :=
  ⟨fun h x carry => h x.toBitVec carry, fun h bits carry => h (UInt8.ofBitVec bits) carry⟩

instance (op : Shift) (entering : UInt8 → Bool → Bool) : Decidable (op.MovesUp entering) :=
  decidable_of_iff _ forall_byte_iff

instance (op : Shift) (entering : UInt8 → Bool → Bool) : Decidable (op.MovesDown entering) :=
  decidable_of_iff _ forall_byte_iff

theorem movesUp_shiftLeft : MovesUp .shiftLeft fun _ _ => false := by
  decide +kernel

theorem movesUp_rotateLeftCarry : MovesUp .rotateLeftCarry fun _ carry => carry := by
  decide +kernel

theorem movesDown_shiftRight : MovesDown .shiftRight fun _ _ => false := by
  decide +kernel

theorem movesDown_rotateRightCarry : MovesDown .rotateRightCarry fun _ carry => carry := by
  decide +kernel

/-- The sign is doubled. -/
theorem movesDown_shiftRightSigned :
    MovesDown .shiftRightSigned fun x _ => decide (128 ≤ x.toNat) := by
  decide +kernel

end Shift

/-! ### One byte after another -/

/-- `ShiftChain next first m xs ys m'`: from `m` to `m'`, the bytes `xs` are shifted in turn, the first
    of them by `first` and every other by `next`, which gives the bytes `ys`. -/
inductive ShiftChain (next : Shift) :
    Shift → Core σ → List UInt8 → List UInt8 → Core σ → Prop where
  | done (first : Shift) (m : Core σ) : ShiftChain next first m [] [] m
  | byte {first : Shift} {x y : UInt8} {xs ys : List UInt8} {m after m' : Core σ}
      (hbyte : Core.Shifts first x y m after) (hrest : ShiftChain next next after xs ys m') :
      ShiftChain next first m (x :: xs) (y :: ys) m'

/-- From every state there is such a run, whatever the bytes are. -/
theorem exists_shiftChain (next first : Shift) (m : Core σ) (xs : List UInt8) :
    ∃ ys m', ShiftChain next first m xs ys m' := by
  induction xs generalizing first m with
  | nil => exact ⟨[], m, .done first m⟩
  | cons x xs ih =>
      obtain ⟨y, after, hbyte⟩ := Core.exists_shifts first x m
      obtain ⟨ys, m', hrest⟩ := ih next after
      exact ⟨y :: ys, m', .byte hbyte hrest⟩

/-- With the highest byte in front. -/
theorem byteNumber_reverse_cons (x : UInt8) (xs : List UInt8) :
    byteNumber (x :: xs).reverse = byteNumber xs.reverse + 256 ^ xs.length * x.toNat := by
  rw [List.reverse_cons, byteNumber_append, List.length_reverse, byteNumber_cons, byteNumber_nil]
  rfl

namespace ShiftChain

variable {next first : Shift} {entering : UInt8 → Bool → Bool} {m after m' : Core σ} {x y : UInt8}
  {xs ys : List UInt8}

theorem length_eq (h : ShiftChain next first m xs ys m') : ys.length = xs.length := by
  induction h with
  | done => rfl
  | byte hbyte hrest ih => exact congrArg (· + 1) ih

/-- One more byte at the low end. -/
theorem up_byte (hfirst : first.MovesUp entering) (hbyte : Core.Shifts first x y m after)
    (hrest : byteNumber ys + 256 ^ xs.length * carryValue m'.carry =
      2 * byteNumber xs + carryValue after.carry) :
    byteNumber (y :: ys) + 256 ^ (x :: xs).length * carryValue m'.carry =
      2 * byteNumber (x :: xs) + carryValue (entering x m.carry) := by
  obtain ⟨rfl, hcarry⟩ := hbyte.eq_apply
  have hmoved := hfirst x m.carry
  rw [← hcarry] at hmoved
  rw [byteNumber_cons, byteNumber_cons, List.length_cons, pow_succ]
  linear_combination hmoved + 256 * hrest

/-- Where the carry is taken in from the beginning, the carries between the bytes cancel out. -/
theorem up_carry (h : ShiftChain .rotateLeftCarry .rotateLeftCarry m xs ys m') :
    byteNumber ys + 256 ^ xs.length * carryValue m'.carry =
      2 * byteNumber xs + carryValue m.carry := by
  induction xs generalizing m ys with
  | nil =>
      cases h
      simp
  | cons x xs ih =>
      cases h with
      | byte hbyte hrest => exact up_byte Shift.movesUp_rotateLeftCarry hbyte (ih hrest)

/-- Upwards the number is doubled, the bit that comes in is added, and the last carry is what does not
    fit in. -/
theorem up (hfirst : first.MovesUp entering)
    (h : ShiftChain .rotateLeftCarry first m (x :: xs) ys m') :
    byteNumber ys + 256 ^ (x :: xs).length * carryValue m'.carry =
      2 * byteNumber (x :: xs) + carryValue (entering x m.carry) := by
  cases h with
  | byte hbyte hrest => exact up_byte hfirst hbyte hrest.up_carry

/-- One more byte at the high end. -/
theorem down_byte (hfirst : first.MovesDown entering) (hbyte : Core.Shifts first x y m after)
    (hlength : ys.length = xs.length)
    (hrest : 2 * byteNumber ys.reverse + carryValue m'.carry =
      byteNumber xs.reverse + 256 ^ xs.length * carryValue after.carry) :
    2 * byteNumber (y :: ys).reverse + carryValue m'.carry =
      byteNumber (x :: xs).reverse + 256 ^ (x :: xs).length * carryValue (entering x m.carry) := by
  obtain ⟨rfl, hcarry⟩ := hbyte.eq_apply
  have hmoved := hfirst x m.carry
  rw [← hcarry] at hmoved
  rw [byteNumber_reverse_cons, byteNumber_reverse_cons, hlength, List.length_cons, pow_succ]
  linear_combination hrest + 256 ^ xs.length * hmoved

theorem down_carry (h : ShiftChain .rotateRightCarry .rotateRightCarry m xs ys m') :
    2 * byteNumber ys.reverse + carryValue m'.carry =
      byteNumber xs.reverse + 256 ^ xs.length * carryValue m.carry := by
  induction xs generalizing m ys with
  | nil =>
      cases h
      simp
  | cons x xs ih =>
      cases h with
      | byte hbyte hrest =>
          exact down_byte Shift.movesDown_rotateRightCarry hbyte hrest.length_eq (ih hrest)

/-- Downwards the number, with the bit that comes in above it, is halved, and the last carry is the
    remainder. -/
theorem down (hfirst : first.MovesDown entering)
    (h : ShiftChain .rotateRightCarry first m (x :: xs) ys m') :
    2 * byteNumber ys.reverse + carryValue m'.carry =
      byteNumber (x :: xs).reverse + 256 ^ (x :: xs).length * carryValue (entering x m.carry) := by
  cases h with
  | byte hbyte hrest => exact down_byte hfirst hbyte hrest.length_eq hrest.down_carry

end ShiftChain

/-! ### Numbers with a sign -/

/-- The number that bytes make up, the lowest first, in two's complement. -/
def signedNumber (bytes : List UInt8) : Int :=
  (byteNumber bytes : Int).bmod (256 ^ bytes.length)

variable {xs ys : List UInt8}

/-- The range of a number of at least one byte has two halves. -/
theorem exists_half (h : xs ≠ []) :
    ∃ half, 1 ≤ half ∧ 256 ^ xs.length = 2 * half ∧ half = 2 ^ (8 * xs.length - 1) := by
  have hlength : 1 ≤ xs.length := List.length_pos_iff.mpr h
  refine ⟨2 ^ (8 * xs.length - 1), Nat.one_le_two_pow, ?_, rfl⟩
  rw [show 256 = 2 ^ 8 from rfl, ← pow_mul, ← pow_succ', Nat.sub_add_cancel (by omega)]

/-- The highest bit tells in which half a number lies. -/
theorem testBit_highest (h : xs ≠ []) :
    (byteNumber xs).testBit (8 * xs.length - 1) =
      decide (256 ^ xs.length ≤ 2 * byteNumber xs) := by
  obtain ⟨half, hpos, hrange, hhalf⟩ := exists_half h
  have hlt := byteNumber_lt xs
  rw [Nat.testBit_eq_decide_div_mod_eq, ← hhalf, decide_eq_decide, hrange]
  rw [hrange] at hlt
  by_cases hlow : byteNumber xs < half
  · rw [Nat.div_eq_of_lt hlow]
    omega
  · rw [Nat.div_eq_of_lt_le (by omega : 1 * half ≤ byteNumber xs) (by omega)]
    omega

/-- A number in the upper half stands for a negative one. -/
theorem signedNumber_eq (h : xs ≠ []) :
    signedNumber xs = byteNumber xs -
      if 256 ^ xs.length ≤ 2 * byteNumber xs then (256 ^ xs.length : Nat) else 0 := by
  obtain ⟨half, -, hrange, -⟩ := exists_half h
  have hlt := byteNumber_lt xs
  rw [hrange] at hlt ⊢
  have hsmall : (byteNumber xs : Int) % (2 * half : Nat) = byteNumber xs := by
    rw [← Int.natCast_mod, Nat.mod_eq_of_lt hlt]
  unfold signedNumber
  rw [hrange, Int.bmod_def, hsmall]
  split <;> split <;> omega

/-- The half in which a number lies is told by its highest byte. -/
theorem highest_byte_iff (x : UInt8) (xs : List UInt8) :
    128 ≤ x.toNat ↔ 256 ^ (x :: xs).length ≤ 2 * byteNumber (x :: xs).reverse := by
  have hlow : byteNumber xs.reverse < 256 ^ xs.length := by
    rw [← List.length_reverse]
    exact byteNumber_lt _
  rw [byteNumber_reverse_cons, List.length_cons, pow_succ]
  constructor
  · intro hx
    nlinarith
  · intro h
    by_contra hx
    nlinarith

/-! ### Main statements -/

theorem carryValue_injective : Function.Injective carryValue := by
  decide

namespace ShiftChain

variable {m m' m₁ : Core σ} {zs : List UInt8}

theorem doubled (hne : xs ≠ []) (h : ShiftChain .rotateLeftCarry .shiftLeft m xs ys m') :
    byteNumber ys = 2 * byteNumber xs % 256 ^ xs.length ∧
      m'.carry = (byteNumber xs).testBit (8 * xs.length - 1) := by
  have hlt := byteNumber_lt ys
  rw [h.length_eq] at hlt
  rw [testBit_highest hne]
  obtain ⟨x, rest, rfl⟩ := List.exists_cons_of_ne_nil hne
  have hup := h.up Shift.movesUp_shiftLeft
  rw [carryValue_false, Nat.add_zero] at hup
  rw [← hup]
  cases m'.carry with
  | false =>
      rw [carryValue_false, Nat.mul_zero, Nat.add_zero, Nat.mod_eq_of_lt hlt]
      exact ⟨rfl, (decide_eq_false (Nat.not_le_of_lt hlt)).symm⟩
  | true =>
      rw [carryValue_true, Nat.mul_one, Nat.add_mod_right, Nat.mod_eq_of_lt hlt]
      exact ⟨rfl, (decide_eq_true (Nat.le_add_left _ _)).symm⟩

theorem halved (hne : xs ≠ []) (h : ShiftChain .rotateRightCarry .shiftRight m xs.reverse ys m') :
    byteNumber ys.reverse = byteNumber xs / 2 ∧ carryValue m'.carry = byteNumber xs % 2 := by
  obtain ⟨x, rest, hxs⟩ := List.exists_cons_of_ne_nil (mt List.reverse_eq_nil_iff.mp hne)
  have hcarry := carryValue_le m'.carry
  rw [hxs] at h
  have hdown := h.down Shift.movesDown_shiftRight
  rw [← hxs, List.reverse_reverse, carryValue_false, Nat.mul_zero, Nat.add_zero] at hdown
  omega

theorem halved_signed (hne : xs ≠ [])
    (h : ShiftChain .rotateRightCarry .shiftRightSigned m xs.reverse ys m') :
    signedNumber ys.reverse = signedNumber xs / 2 ∧ carryValue m'.carry = byteNumber xs % 2 := by
  obtain ⟨x, rest, hxs⟩ := List.exists_cons_of_ne_nil (mt List.reverse_eq_nil_iff.mp hne)
  have hlength : ys.reverse.length = xs.length := by
    rw [List.length_reverse, h.length_eq, List.length_reverse]
  have hnonempty : ys.reverse ≠ [] :=
    List.length_pos_iff.mp (hlength ▸ List.length_pos_iff.mpr hne)
  have hlt := byteNumber_lt ys.reverse
  have hcarry := carryValue_le m'.carry
  obtain ⟨half, hpos, hrange, -⟩ := exists_half hne
  rw [hxs] at h
  have hdown := h.down Shift.movesDown_shiftRightSigned
  have hsign : 128 ≤ x.toNat ↔ 256 ^ xs.length ≤ 2 * byteNumber xs := by
    have hhighest := highest_byte_iff x rest
    rwa [← hxs, List.reverse_reverse, List.length_reverse] at hhighest
  rw [← hxs, List.reverse_reverse, List.length_reverse] at hdown
  rw [signedNumber_eq hnonempty, signedNumber_eq hne, hlength]
  rw [hlength] at hlt
  rw [hrange] at hlt hdown hsign ⊢
  by_cases hneg : 128 ≤ x.toNat
  · rw [decide_eq_true hneg, carryValue_true, Nat.mul_one] at hdown
    rw [if_pos (hsign.mp hneg), if_pos (by omega)]
    omega
  · rw [decide_eq_false hneg, carryValue_false, Nat.mul_zero, Nat.add_zero] at hdown
    rw [if_neg (mt hsign.mpr hneg), if_neg (by omega)]
    omega

/-- Up and down again. -/
theorem back (hup : ShiftChain .rotateLeftCarry .rotateLeftCarry m xs ys m₁)
    (hdown : ShiftChain .rotateRightCarry .rotateRightCarry m₁ ys.reverse zs m') :
    zs.reverse = xs ∧ m'.carry = m.carry := by
  have hlength : zs.reverse.length = xs.length := by
    rw [List.length_reverse, hdown.length_eq, List.length_reverse, hup.length_eq]
  have hdoubled := hup.up_carry
  have hhalved := hdown.down_carry
  have hcarry := carryValue_le m.carry
  have hcarry' := carryValue_le m'.carry
  rw [List.reverse_reverse, List.length_reverse, hup.length_eq, hdoubled] at hhalved
  refine ⟨eq_of_byteNumber_eq hlength (by omega), ?_⟩
  exact carryValue_injective (by omega)

end ShiftChain

/-- Upwards, SLA on the lowest byte and RL on the others double a number, up to what its bytes can
    hold, and leave its highest bit in the carry. Downwards, SRL on the highest byte and RR on the
    others halve it, SRA instead of SRL halves it as a signed number, both rounded down, and the carry
    is what is left over. RL upwards and RR downwards again bring back the number and the carry. -/
theorem long_shifts (m : Core σ) (hne : xs ≠ []) :
    ((∃ ys m', ShiftChain .rotateLeftCarry .shiftLeft m xs ys m') ∧
      ∀ ys m', ShiftChain .rotateLeftCarry .shiftLeft m xs ys m' →
        ys.length = xs.length ∧
        byteNumber ys = 2 * byteNumber xs % 256 ^ xs.length ∧
        m'.carry = (byteNumber xs).testBit (8 * xs.length - 1)) ∧
    ((∃ ys m', ShiftChain .rotateRightCarry .shiftRight m xs.reverse ys m') ∧
      ∀ ys m', ShiftChain .rotateRightCarry .shiftRight m xs.reverse ys m' →
        ys.length = xs.length ∧
        byteNumber ys.reverse = byteNumber xs / 2 ∧
        carryValue m'.carry = byteNumber xs % 2) ∧
    ((∃ ys m', ShiftChain .rotateRightCarry .shiftRightSigned m xs.reverse ys m') ∧
      ∀ ys m', ShiftChain .rotateRightCarry .shiftRightSigned m xs.reverse ys m' →
        ys.length = xs.length ∧
        signedNumber ys.reverse = signedNumber xs / 2 ∧
        carryValue m'.carry = byteNumber xs % 2) ∧
    (∃ ys m₁ zs m', ShiftChain .rotateLeftCarry .rotateLeftCarry m xs ys m₁ ∧
        ShiftChain .rotateRightCarry .rotateRightCarry m₁ ys.reverse zs m') ∧
      ∀ ys m₁ zs m', ShiftChain .rotateLeftCarry .rotateLeftCarry m xs ys m₁ →
        ShiftChain .rotateRightCarry .rotateRightCarry m₁ ys.reverse zs m' →
          zs.reverse = xs ∧ m'.carry = m.carry := by
  refine ⟨⟨exists_shiftChain _ _ m xs, ?up⟩, ⟨exists_shiftChain _ _ m xs.reverse, ?down⟩,
    ⟨exists_shiftChain _ _ m xs.reverse, ?downSigned⟩, ?upAndDown, ?back⟩
  case up => exact fun ys m' h => ⟨h.length_eq, h.doubled hne⟩
  case down =>
    exact fun ys m' h => ⟨h.length_eq.trans List.length_reverse, h.halved hne⟩
  case downSigned =>
    exact fun ys m' h => ⟨h.length_eq.trans List.length_reverse, h.halved_signed hne⟩
  case upAndDown =>
    obtain ⟨ys, m₁, hup⟩ := exists_shiftChain .rotateLeftCarry .rotateLeftCarry m xs
    obtain ⟨zs, m', hdown⟩ :=
      exists_shiftChain .rotateRightCarry .rotateRightCarry m₁ ys.reverse
    exact ⟨ys, m₁, zs, m', hup, hdown⟩
  case back => exact fun ys m₁ zs m' hup hdown => hup.back hdown

/-- The bytes of 0x8001 are shifted in memory: upwards the highest bit is lost to the carry, and
    downwards the sign stays where it is. -/
theorem long_shifts_outermostBits :
    ([0x01, 0x80] : List UInt8) ≠ [] ∧
      (∃ ys m', ShiftChain .rotateLeftCarry .shiftLeft (⟨.boot, {}⟩ : Core FlatMemory) [0x01, 0x80]
          ys m' ∧ byteNumber ys = 0x0002 ∧ m'.carry = true) ∧
      ∃ ys m', ShiftChain .rotateRightCarry .shiftRightSigned (⟨.boot, {}⟩ : Core FlatMemory)
          [0x80, 0x01] ys m' ∧ signedNumber ys.reverse = -0x4000 ∧ carryValue m'.carry = 1 := by
  have hne : ([0x01, 0x80] : List UInt8) ≠ [] := List.cons_ne_nil _ _
  obtain ⟨⟨-, hup⟩, -, ⟨-, hdown⟩, -⟩ := long_shifts (⟨.boot, {}⟩ : Core FlatMemory) hne
  refine ⟨hne, ?up, ?down⟩
  case up =>
    obtain ⟨y, after, hfirst⟩ := Core.exists_shifts_atHL .shiftLeft 0x01 ⟨.boot, {}⟩
    obtain ⟨y', m', hsecond⟩ := Core.exists_shifts_atHL .rotateLeftCarry 0x80 after
    have hchain : ShiftChain .rotateLeftCarry .shiftLeft _ [0x01, 0x80] [y, y'] m' :=
      .byte hfirst (.byte hsecond (.done _ m'))
    obtain ⟨-, hnumber, hcarry⟩ := hup _ _ hchain
    refine ⟨_, _, hchain, ?_, ?_⟩
    · rw [hnumber]
      decide
    · rw [hcarry]
      decide
  case down =>
    obtain ⟨y, after, hfirst⟩ := Core.exists_shifts_atHL .shiftRightSigned 0x80 ⟨.boot, {}⟩
    obtain ⟨y', m', hsecond⟩ := Core.exists_shifts_atHL .rotateRightCarry 0x01 after
    have hchain : ShiftChain .rotateRightCarry .shiftRightSigned _ [0x80, 0x01] [y, y'] m' :=
      .byte hfirst (.byte hsecond (.done _ m'))
    obtain ⟨-, hnumber, hcarry⟩ := hdown _ _ hchain
    refine ⟨_, _, hchain, ?_, ?_⟩
    · rw [hnumber]
      decide
    · rw [hcarry]
      decide

end Handheld
