/-
Module: Handheld.Proofs.Board.TimerCount
Purpose: What the timer has counted after any number of cycles, without going through them one by
  one. The counter counts once in every period of the divider bit that it watches, and from then on
  its value and the interrupt follow from the number of counts alone.
Main exports: Timer.selectedBit, Timer.period, Timer.SignalUp, Timer.counts, Timer.countedTo,
  Timer.tick_eq, Timer.advance_counted, Board.advanceTimer_counted
-/
import Mathlib.Data.Nat.Bitwise
import Handheld.Proofs.Board.Clock
import Handheld.Proofs.Board.Store
import Handheld.Proofs.Checked.Arithmetic

namespace Handheld

/-- A bit of a number is set in the second half of the period with which it repeats. -/
theorem testBit_iff_le_mod (n i : Nat) : n.testBit i = true ↔ 2 ^ i ≤ n % 2 ^ (i + 1) := by
  have hpos : 0 < 2 ^ i := Nat.two_pow_pos i
  have hlow : n % 2 ^ i < 2 ^ i := Nat.mod_lt _ hpos
  have hsplit : n % 2 ^ (i + 1) = n % 2 ^ i + 2 ^ i * (n / 2 ^ i % 2) := by
    rw [Nat.pow_succ, Nat.mod_mul]
  rw [Nat.testBit_eq_decide_div_mod_eq, hsplit, decide_eq_true_iff]
  rcases Nat.mod_two_eq_zero_or_one (n / 2 ^ i) with hbit | hbit
  · simp [hbit, hlow]
  · simp [hbit]

namespace Timer

variable {t : Timer}

/-! ### The signal -/

/-- The number of the divider bit that the two lower bits of the control register select. -/
def selectedBit (t : Timer) : Nat :=
  match t.control.toNat % 4 with
  | 0 => 9
  | 1 => 3
  | 2 => 5
  | _ => 7

/-- The cycles from one falling edge of the selected divider bit to the next. -/
def period (t : Timer) : Nat :=
  2 ^ (t.selectedBit + 1)

/-- The four periods, by the lower bits of the control register. -/
example : ([0, 1, 2, 3] : List UInt8).map (fun control => ({ control } : Timer).period) =
    [1024, 16, 64, 256] := by
  decide

/-- Whether the counter is switched on. -/
def isOn (t : Timer) : Bool :=
  t.control.toNat.testBit 2

/-- The signal is up: bit 2 of the control register is set, and so is the selected divider bit. -/
def SignalUp (t : Timer) : Prop :=
  t.control.toNat.testBit 2 = true ∧ t.divider.toNat.testBit t.selectedBit = true

instance (t : Timer) : Decidable t.SignalUp :=
  inferInstanceAs (Decidable (_ ∧ _))

theorem toNat_watched (t : Timer) : t.watched.toNat = 2 ^ t.selectedBit := by
  have hselect : (t.control &&& 0x03).toNat = t.control.toNat % 4 :=
    toNat_and_mask t.control 0x03 (n := 2) rfl
  unfold watched selectedBit
  rw [hselect]
  have hrange : t.control.toNat % 4 < 4 := Nat.mod_lt _ (by decide)
  generalize t.control.toNat % 4 = choice at hrange
  match choice, hrange with
  | 0, _ => rfl
  | 1, _ => rfl
  | 2, _ => rfl
  | 3, _ => rfl

theorem selectedBit_lt (t : Timer) : t.selectedBit < 16 := by
  unfold selectedBit
  split <;> decide

theorem period_pos (t : Timer) : 0 < t.period :=
  Nat.two_pow_pos _

/-- The divider wraps at the end of a period. -/
theorem period_dvd_size (t : Timer) : t.period ∣ UInt16.size :=
  Nat.pow_dvd_pow 2 t.selectedBit_lt

theorem signal_iff_up (t : Timer) : t.signal = true ↔ t.SignalUp := by
  have hon : (t.control &&& 0x04 != 0) = t.control.toNat.testBit 2 :=
    and_mask_ne_zero t.control rfl
  have hbit : (t.divider &&& t.watched != 0) = t.divider.toNat.testBit t.selectedBit := by
    rw [Bool.eq_iff_iff, bne_iff_ne, ne_eq, ← UInt16.toNat_inj, UInt16.toNat_and, toNat_watched,
      Nat.and_two_pow]
    cases t.divider.toNat.testBit t.selectedBit <;> simp
  unfold signal SignalUp
  rw [Bool.and_eq_true, hon, hbit]

/-- The signal is up in the second half of each period. -/
theorem signal_iff (t : Timer) :
    t.signal = true ↔ t.isOn = true ∧ t.period ≤ 2 * (t.divider.toNat % t.period) := by
  have hhalf : t.period = 2 * 2 ^ t.selectedBit := Nat.pow_succ'
  have hbit : t.divider.toNat.testBit t.selectedBit = true ↔
      2 ^ t.selectedBit ≤ t.divider.toNat % t.period := testBit_iff_le_mod _ _
  rw [signal_iff_up, SignalUp, isOn, hbit]
  apply and_congr_right'
  omega

/-- The signal falls where a period ends. -/
theorem falls_iff (t : Timer) :
    (t.signal && !({ t with divider := t.divider + 1 } : Timer).signal) = true ↔
      t.isOn = true ∧ t.period ∣ t.divider.toNat + 1 := by
  let after : Timer := { t with divider := t.divider + 1 }
  have hhalf : t.period = 2 * 2 ^ t.selectedBit := Nat.pow_succ'
  have hlow : t.divider.toNat % t.period < t.period := Nat.mod_lt _ t.period_pos
  have hnext : after.divider.toNat % t.period = (t.divider.toNat % t.period + 1) % t.period := by
    have hadd : after.divider.toNat = (t.divider.toNat + 1) % UInt16.size := UInt16.toNat_add _ _
    rw [hadd, Nat.mod_mod_of_dvd _ t.period_dvd_size, Nat.mod_add_mod]
  have hends :
      t.period ∣ t.divider.toNat + 1 ↔ (t.divider.toNat % t.period + 1) % t.period = 0 := by
    rw [Nat.dvd_iff_mod_eq_zero, Nat.mod_add_mod]
  have hafter : after.signal = true ↔
      t.isOn = true ∧ t.period ≤ 2 * ((t.divider.toNat % t.period + 1) % t.period) := by
    rw [← hnext]
    exact after.signal_iff
  have hedge : (t.period ≤ 2 * (t.divider.toNat % t.period) ∧
      ¬ t.period ≤ 2 * ((t.divider.toNat % t.period + 1) % t.period)) ↔
        (t.divider.toNat % t.period + 1) % t.period = 0 := by
    rcases Nat.lt_or_eq_of_le (Nat.succ_le_of_lt hlow) with hwithin | hlast
    · rw [Nat.mod_eq_of_lt hwithin]
      omega
    · have hwrap : (t.divider.toNat % t.period + 1) % t.period = 0 := by
        rw [← Nat.succ_eq_add_one, hlast, Nat.mod_self]
      omega
  rw [Bool.and_eq_true, Bool.not_eq_true', ← Bool.not_eq_true, t.signal_iff, hafter, hends, ← hedge]
  cases t.isOn with
  | false => simp
  | true => simp

/-- A cycle moves the divider on, and at the end of a period it makes the counter count. -/
theorem tick_eq (t : Timer) :
    t.tick = if t.isOn = true ∧ t.period ∣ t.divider.toNat + 1 then
        count { t with divider := t.divider + 1 }
      else ({ t with divider := t.divider + 1 }, false) := by
  unfold tick change
  dsimp only
  exact if_congr t.falls_iff rfl rfl

/-! ### The counter -/

/-- How often the counter counts in a number of cycles. -/
def counts (t : Timer) (cycles : Nat) : Nat :=
  if t.isOn then (t.divider.toNat % t.period + cycles) / t.period else 0

/-- The value of the counter after `n` counts, in which it is loaded anew on each overflow. -/
def countedTo (t : Timer) (n : Nat) : Nat :=
  if t.counter.toNat + n < 256 then t.counter.toNat + n
  else t.modulo.toNat + (n - (256 - t.counter.toNat)) % (256 - t.modulo.toNat)

theorem counts_zero (t : Timer) : t.counts 0 = 0 := by
  unfold counts
  split
  · exact Nat.div_eq_of_lt (Nat.mod_lt _ t.period_pos)
  · rfl

/-- One more cycle brings one more count if a period ends with it. -/
theorem counts_succ (t : Timer) (cycles : Nat) :
    t.counts (cycles + 1) = t.counts cycles +
      if t.isOn = true ∧ t.period ∣ t.divider.toNat + cycles + 1 then 1 else 0 := by
  have hends : t.period ∣ t.divider.toNat % t.period + cycles + 1 ↔
      t.period ∣ t.divider.toNat + cycles + 1 := by
    rw [Nat.dvd_iff_mod_eq_zero, Nat.dvd_iff_mod_eq_zero, Nat.add_assoc, Nat.mod_add_mod,
      Nat.add_assoc]
  unfold counts
  cases t.isOn with
  | false => simp
  | true =>
      simp only [if_true, true_and]
      rw [← Nat.add_assoc, Nat.succ_div]
      simp only [hends]

theorem countedTo_of_lt {n : Nat} (h : t.counter.toNat + n < 256) :
    t.countedTo n = t.counter.toNat + n :=
  if_pos h

/-- With the first overflow the counter starts to go round between the modulo and its last value. -/
theorem countedTo_of_overflow {n rest : Nat} (h : t.counter.toNat + n = 256 + rest) :
    t.countedTo n = t.modulo.toNat + rest % (256 - t.modulo.toNat) := by
  have hcounter := t.counter.toNat_lt
  have hrest : n - (256 - t.counter.toNat) = rest := by omega
  unfold countedTo
  rw [if_neg (by omega), hrest]

/-- The counter counts up to its last value and then goes on from where it is loaded. -/
theorem countedTo_succ (t : Timer) (n : Nat) :
    t.countedTo (n + 1) = if t.countedTo n = 255 then t.modulo.toNat else t.countedTo n + 1 := by
  have hmodulo := t.modulo.toNat_lt
  rcases Nat.lt_trichotomy (t.counter.toNat + n) 255 with hbelow | hlast | hover
  · have hnow : t.countedTo n = t.counter.toNat + n := countedTo_of_lt (by omega)
    have hnext : t.countedTo (n + 1) = t.counter.toNat + (n + 1) := countedTo_of_lt (by omega)
    rw [hnext, hnow, if_neg (by omega), Nat.add_assoc]
  · have hnow : t.countedTo n = t.counter.toNat + n := countedTo_of_lt (by omega)
    have hnext : t.countedTo (n + 1) = t.modulo.toNat + 0 % (256 - t.modulo.toNat) :=
      countedTo_of_overflow (by omega)
    rw [hnext, hnow, if_pos hlast, Nat.zero_mod, Nat.add_zero]
  · obtain ⟨rest, hrest⟩ := Nat.exists_eq_add_of_le (Nat.succ_le_of_lt hover)
    have hlow : rest % (256 - t.modulo.toNat) < 256 - t.modulo.toNat := Nat.mod_lt _ (by omega)
    have hnow := countedTo_of_overflow hrest
    have hnext : t.countedTo (n + 1) = t.modulo.toNat + (rest + 1) % (256 - t.modulo.toNat) :=
      countedTo_of_overflow (by omega)
    rw [hnext, hnow, ← Nat.mod_add_mod]
    rcases Nat.lt_or_eq_of_le (Nat.succ_le_of_lt hlow) with hwithin | hwrap
    · rw [Nat.mod_eq_of_lt hwithin, if_neg (by omega), Nat.add_assoc]
    · rw [← Nat.succ_eq_add_one, hwrap, Nat.mod_self, if_pos (by omega), Nat.add_zero]

/-- An overflow is one of the counts so far, or the next one. -/
theorem overflowed_succ (t : Timer) (n : Nat) :
    256 ≤ t.counter.toNat + (n + 1) ↔ 256 ≤ t.counter.toNat + n ∨ t.countedTo n = 255 := by
  unfold countedTo
  split <;> omega

/-- Counting from a value that is already the result of counting. -/
theorem count_countedTo (t' : Timer) {n : Nat} (hmodulo : t'.modulo = t.modulo)
    (hcounter : t'.counter.toNat = t.countedTo n) :
    t'.count.1.counter.toNat = t.countedTo (n + 1) ∧
      (t'.count.2 = true ↔ t.countedTo n = 255) := by
  have hfull : t'.counter = 0xFF ↔ t.countedTo n = 255 := by
    rw [← hcounter, ← UInt8.toNat_inj]
    rfl
  have hlt := t'.counter.toNat_lt
  rw [countedTo_succ]
  unfold count
  by_cases hlast : t.countedTo n = 255
  · rw [if_pos (hfull.mpr hlast), if_pos hlast, ← hmodulo]
    exact ⟨rfl, iff_of_true rfl hlast⟩
  · have hnext : (t'.counter + 1).toNat = t'.counter.toNat + 1 := by
      have hone : (1 : UInt8).toNat = 1 := rfl
      rw [UInt8.toNat_add, hone]
      exact Nat.mod_eq_of_lt (by omega)
    rw [if_neg (mt hfull.mp hlast), if_neg hlast, ← hcounter]
    exact ⟨hnext, iff_of_false Bool.false_ne_true (hcounter ▸ hlast)⟩

/-! ### Any number of cycles -/

/-- What a timer has come to by `cycles` cycles, and whether an interrupt has become due. -/
structure Counted (t : Timer) (cycles : Nat) (after : Timer × Bool) : Prop where
  divider_eq : after.1.divider.toNat = (t.divider.toNat + cycles) % 65536
  modulo_eq : after.1.modulo = t.modulo
  control_eq : after.1.control = t.control
  counter_eq : after.1.counter.toNat = t.countedTo (t.counts cycles)
  due_iff : after.2 = true ↔ 256 ≤ t.counter.toNat + t.counts cycles

theorem modulo_count (t : Timer) : t.count.1.modulo = t.modulo := by
  unfold count
  split <;> rfl

theorem control_count (t : Timer) : t.count.1.control = t.control := by
  unfold count
  split <;> rfl

theorem divider_count (t : Timer) : t.count.1.divider = t.divider := by
  unfold count
  split <;> rfl

theorem counted_zero (t : Timer) : Counted t 0 (t, false) := by
  have hcounter := t.counter.toNat_lt
  have hnow : t.countedTo 0 = t.counter.toNat := countedTo_of_lt hcounter
  refine ⟨(Nat.mod_eq_of_lt t.divider.toNat_lt).symm, rfl, rfl, ?_, ?_⟩
  · rw [counts_zero, hnow]
  · rw [counts_zero]
    exact iff_of_false Bool.false_ne_true (Nat.not_le_of_lt hcounter)

/-- One more cycle. -/
theorem Counted.tick {cycles : Nat} {after : Timer × Bool} (h : Counted t cycles after) :
    Counted t (cycles + 1) (after.1.tick.1, after.2 || after.1.tick.2) := by
  have hdivider : ({ after.1 with divider := after.1.divider + 1 } : Timer).divider.toNat =
      (t.divider.toNat + (cycles + 1)) % 65536 := by
    have hadd : (after.1.divider + 1).toNat = (after.1.divider.toNat + 1) % 65536 :=
      UInt16.toNat_add _ _
    rw [hadd, h.divider_eq, Nat.mod_add_mod, Nat.add_assoc]
  have hisOn : after.1.isOn = t.isOn := by
    unfold isOn
    rw [h.control_eq]
  have hperiod : after.1.period = t.period := by
    unfold period selectedBit
    rw [h.control_eq]
  have hends : t.period ∣ after.1.divider.toNat + 1 ↔ t.period ∣ t.divider.toNat + cycles + 1 := by
    rw [Nat.dvd_iff_mod_eq_zero, Nat.dvd_iff_mod_eq_zero, h.divider_eq, ← Nat.mod_add_mod,
      Nat.mod_mod_of_dvd _ t.period_dvd_size, Nat.mod_add_mod]
  have hcounts := t.counts_succ cycles
  rw [tick_eq, hisOn, hperiod]
  simp only [hends]
  by_cases hcount : t.isOn = true ∧ t.period ∣ t.divider.toNat + cycles + 1
  · rw [if_pos hcount] at hcounts ⊢
    obtain ⟨hvalue, hover⟩ :=
      count_countedTo { after.1 with divider := after.1.divider + 1 } h.modulo_eq h.counter_eq
    constructor
    · rw [divider_count]
      exact hdivider
    · rw [modulo_count]
      exact h.modulo_eq
    · rw [control_count]
      exact h.control_eq
    · rw [hcounts]
      exact hvalue
    · rw [hcounts, overflowed_succ, Bool.or_eq_true, h.due_iff, hover]
  · rw [if_neg hcount] at hcounts ⊢
    rw [Bool.or_false]
    constructor
    · exact hdivider
    · exact h.modulo_eq
    · exact h.control_eq
    · rw [hcounts]
      exact h.counter_eq
    · rw [hcounts]
      exact h.due_iff

/-- After any number of cycles, divider, counter and interrupt are as the number of counts says. -/
theorem advance_counted (t : Timer) (cycles : Nat) : Counted t cycles (t.advance cycles) := by
  induction cycles with
  | zero => exact t.counted_zero
  | succ cycles ih =>
      rw [advance_add]
      exact ih.tick

end Timer

/-! ### On the board -/

namespace LineSet

theorem contains_union (s t : LineSet) (line : Interrupt) :
    (s.union t).contains line = (s.contains line || t.contains line) := by
  unfold contains union
  rw [or_and_distrib, Bool.eq_iff_iff, Bool.or_eq_true, bne_iff_ne, bne_iff_ne, bne_iff_ne, ne_eq,
    UInt8.or_eq_zero_iff]
  exact Decidable.not_and_iff_not_or_not

theorem contains_onlyIf (due : Bool) (raised line : Interrupt) :
    (onlyIf due raised).contains line = (due && decide (line = raised)) := by
  cases due <;> cases raised <;> cases line <;> rfl

end LineSet

namespace Board

/-- The timer after any number of cycles, in closed form: the divider has moved on by as many, the
    counter has counted `n` times, the interrupt of the timer is requested if it has overflowed by
    that, and nothing else is. -/
theorem advanceTimer_counted (b : Board) (cycles : Nat) :
    let n := b.timer.counts cycles
    let after := b.advanceTimer cycles
    after.timer.divider.toNat = (b.timer.divider.toNat + cycles) % 65536 ∧
      after.timer.modulo = b.timer.modulo ∧
      after.timer.control = b.timer.control ∧
      (after.timer.counter.toNat =
        if b.timer.counter.toNat + n < 256 then b.timer.counter.toNat + n
        else b.timer.modulo.toNat +
          (n - (256 - b.timer.counter.toNat)) % (256 - b.timer.modulo.toNat)) ∧
      (after.interrupts =
        if 256 ≤ b.timer.counter.toNat + n then b.interrupts.raise (.only .timer)
        else b.interrupts) ∧
      ∀ line, after.interrupts.requested.contains line = true ↔
        b.interrupts.requested.contains line = true ∨
          line = .timer ∧ 256 ≤ b.timer.counter.toNat + n := by
  intro n after
  have hcounted := b.timer.advance_counted cycles
  have hafter : after = _ := b.advanceTimer_eq cycles
  rw [hafter]
  dsimp only
  refine ⟨hcounted.divider_eq, hcounted.modulo_eq, hcounted.control_eq, hcounted.counter_eq, ?_, ?_⟩
  · by_cases hover : 256 ≤ b.timer.counter.toNat + n
    · rw [if_pos hover, hcounted.due_iff.mpr hover]
      rfl
    · rw [if_neg hover, (Bool.not_eq_true _).mp (mt hcounted.due_iff.mp hover)]
      exact b.interrupts.raise_empty
  · intro line
    unfold InterruptController.raise
    rw [LineSet.contains_union, LineSet.contains_onlyIf, Bool.or_eq_true, Bool.and_eq_true,
      hcounted.due_iff, decide_eq_true_iff, and_comm]

/-- Three overflows in one go: from 0xFE, reloaded with 0xFD each time, counting every 16 cycles. -/
example : ((({ divider := 0xFFF8, counter := 0xFE, modulo := 0xFD, control := 5 } : Timer).advance
    128).1).counter = 0xFD := by
  decide

end Board

end Handheld
