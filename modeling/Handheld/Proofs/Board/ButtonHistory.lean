/-
Module: Handheld.Proofs.Board.ButtonHistory
Purpose: What everything that has happened to a board has made of its joypad. A button is held if the
  last that was heard of it is a press; the register shows the groups that were selected last; and
  a request to leave STOP stands if a button was pressed anew since such a request was last taken.
  Histories are given with the latest act first.
Main exports: Joypad.Held, Joypad.selection, Joypad.WakeDue, Joypad.Recalls, Board.recalls_act,
  Board.recalls_actAll, Board.joypad_of_history
-/
import Handheld.Proofs.Cartridge.History
import Handheld.Proofs.Checked.Arithmetic
import Handheld.Proofs.Console.Presses

namespace Handheld

open Board (Act)

/-! ### The joypad by itself -/

namespace Joypad

variable (j : Joypad) (x y : Button)

theorem group_release : (j.release x).group y =
    if x.isDirection = y.isDirection then j.group y &&& ~~~x.bit else j.group y := by
  unfold release setGroup group
  cases x.isDirection <;> cases y.isDirection <;> rfl

/-- Without the bit of one button, those of the others of its group are left. -/
theorem not_bit_and_bit (h : x.isDirection = y.isDirection) :
    ~~~x.bit &&& y.bit = if y = x then 0 else y.bit := by
  cases x <;> cases y <;> first | rfl | cases h

/-- One button is no longer held. -/
theorem isHeld_release : (j.release x).isHeld y = (j.isHeld y && decide (y ≠ x)) := by
  unfold isHeld
  rw [group_release]
  by_cases hgroup : x.isDirection = y.isDirection
  · rw [if_pos hgroup, UInt8.and_assoc, not_bit_and_bit x y hgroup]
    by_cases heq : y = x
    · simp [heq]
    · simp [heq]
  · have hne : y ≠ x := fun heq => hgroup (congrArg Button.isDirection heq.symm)
    rw [if_neg hgroup, decide_eq_true hne, Bool.and_true]

/-- What the register shows of the group of a button. -/
def shown : UInt8 :=
  if j.shows x then j.group x else 0

/-- The low nibble of the register. -/
def lowNibble : UInt8 :=
  0x0F &&& ~~~j.shown .right &&& ~~~j.shown .a

/-- Bytes without a common bit are put together as they are added. -/
theorem or_eq_add {a b : UInt8} (h : a &&& b = 0) : a ||| b = a + b := by
  have hbits : a.toBitVec &&& b.toBitVec = 0#8 := congrArg UInt8.toBitVec h
  exact UInt8.toBitVec_inj.mp (BitVec.add_eq_or_of_and_eq_zero _ _ hbits).symm

/-- The register in its three parts. -/
theorem read_eq_add (h : j.selected &&& 0x30 = j.selected) :
    j.read = 0xC0 + j.selected + j.lowNibble := by
  have hselected : (0xC0 : UInt8) &&& j.selected = 0 := by
    rw [← h, UInt8.and_comm j.selected, ← UInt8.and_assoc]
    exact UInt8.zero_and
  have hnibble : (0xC0 ||| j.selected) &&& j.lowNibble = 0 := by
    have hlow : (0xC0 ||| j.selected) &&& 0x0F = 0 := by
      have hand : (0xC0 ||| j.selected) &&& 0x0F = 0xC0 &&& 0x0F ||| j.selected &&& 0x0F :=
        UInt8.toBitVec_inj.mp BitVec.and_or_distrib_right
      rw [hand, ← h, UInt8.and_assoc]
      exact UInt8.or_eq_zero_iff.mpr ⟨rfl, UInt8.and_zero⟩
    unfold lowNibble
    rw [UInt8.and_assoc, ← UInt8.and_assoc, hlow]
    exact UInt8.zero_and
  rw [← or_eq_add hselected, ← or_eq_add hnibble]
  rfl

/-- Each group has a button for every bit of the nibble. -/
theorem exists_button : ∀ direction, ∀ k < 4,
    ∃ x ∈ Button.all, x.isDirection = direction ∧ x.bit.toNat = 2 ^ k := by
  decide

variable {j x y}

theorem shown_congr (h : x.isDirection = y.isDirection) : j.shown x = j.shown y := by
  unfold shown shows group Button.groupSelect
  rw [h]

theorem testBit_shown {k : Nat} (h : x.bit.toNat = 2 ^ k) :
    (j.shown x).toNat.testBit k = (j.shows x && j.isHeld x) := by
  unfold shown isHeld
  rw [and_mask_ne_zero _ h]
  cases j.shows x with
  | true => rfl
  | false => exact Nat.zero_testBit k

theorem lowNibble_lt (j : Joypad) : j.lowNibble < 16 := by
  have hle : j.lowNibble.toNat ≤ (0x0F : UInt8).toNat := by
    unfold lowNibble
    rw [UInt8.and_assoc, UInt8.toNat_and]
    exact Nat.and_le_left
  exact UInt8.lt_iff_toNat_lt.mpr (Nat.lt_succ_of_le hle)

/-- A bit of the nibble is zero if one of the buttons that share it is held and its group shown. -/
theorem testBit_lowNibble {k : Nat} (hk : k < 4) : j.lowNibble.toNat.testBit k = false ↔
    ∃ x, j.isHeld x = true ∧ j.shows x = true ∧ x.bit.toNat = 2 ^ k := by
  have hbits : j.lowNibble.toNat.testBit k =
      (!(j.shown .right).toNat.testBit k && !(j.shown .a).toNat.testBit k) := by
    have hwidth : k < 8 := by omega
    have hmask : (15#8).getLsbD k = true :=
      (Nat.testBit_two_pow_sub_one 4 k).trans (decide_eq_true hk)
    have hbytes : j.lowNibble.toBitVec =
        15#8 &&& ~~~(j.shown .right).toBitVec &&& ~~~(j.shown .a).toBitVec := rfl
    have hsame (byte : UInt8) : byte.toNat.testBit k = byte.toBitVec.getLsbD k := rfl
    rw [hsame, hsame, hsame, hbytes, BitVec.getLsbD_and, BitVec.getLsbD_and, BitVec.getLsbD_not,
      BitVec.getLsbD_not, hmask, decide_eq_true hwidth]
    simp only [Bool.true_and]
  have hfound (y : Button) (hshown : (j.shown y).toNat.testBit k = true) :
      ∃ x, j.isHeld x = true ∧ j.shows x = true ∧ x.bit.toNat = 2 ^ k := by
    obtain ⟨x, -, hgroup, hbit⟩ := exists_button y.isDirection k hk
    rw [← shown_congr hgroup, testBit_shown hbit, Bool.and_eq_true] at hshown
    exact ⟨x, hshown.2, hshown.1, hbit⟩
  rw [hbits, Bool.and_eq_false_iff, Bool.not_eq_false', Bool.not_eq_false']
  constructor
  · rintro (hdirection | haction)
    · exact hfound .right hdirection
    · exact hfound .a haction
  · rintro ⟨x, hheld, hshows, hbit⟩
    have hshown : (j.shown x).toNat.testBit k = true := by
      rw [testBit_shown hbit, hheld, hshows]
      rfl
    cases hgroup : x.isDirection with
    | true => exact .inl (shown_congr (y := .right) hgroup ▸ hshown)
    | false => exact .inr (shown_congr (y := .a) hgroup ▸ hshown)

end Joypad

/-! ### What is remembered of a history -/

/-- The acts that a button notices. -/
def Board.Act.concerns (x : Button) : Act → Bool
  | .press y | .release y => y == x
  | .reset _ => true
  | _ => false

/-- The acts after which no request to leave STOP stands. -/
def Board.Act.dropsWake : Act → Bool
  | .takeWake | .reset _ => true
  | _ => false

namespace Joypad

/-- A button is held: the last that it has noticed is a press. -/
def Held (history : List Act) (x : Button) : Prop :=
  history.find? (Board.Act.concerns x) = some (.press x)

instance (history : List Act) (x : Button) : Decidable (Held history x) :=
  inferInstanceAs (Decidable (_ = _))

/-- The select bits that were written last. -/
def selection (history : List Act) : UInt8 :=
  (Cartridge.lastWrite 0xFF00 0xFF00 history).getD 0x30 &&& 0x30

/-- A button that was not held has been pressed, and no request to leave STOP has been taken since. -/
def WakeDue (history : List Act) : Prop :=
  ∃ later x earlier, history = later ++ .press x :: earlier ∧ ¬ Held earlier x ∧
    ∀ act ∈ later, act.dropsWake = false

variable {history : List Act} {act : Act} {x : Button}

theorem held_cons :
    Held (act :: history) x ↔ if act.concerns x then act = .press x else Held history x := by
  unfold Held
  rw [List.find?_cons]
  cases act.concerns x with
  | true => exact Option.some_inj
  | false => exact Iff.rfl

theorem wakeDue_cons : WakeDue (act :: history) ↔
    (∃ x, act = .press x ∧ ¬ Held history x) ∨ act.dropsWake = false ∧ WakeDue history := by
  constructor
  · rintro ⟨later, x, earlier, hsplit, hfree, hlater⟩
    -- the press that makes the request is either the last act or behind it
    cases later with
    | nil =>
        obtain ⟨rfl, rfl⟩ := List.cons.inj hsplit
        exact .inl ⟨x, rfl, hfree⟩
    | cons last rest =>
        obtain ⟨rfl, rfl⟩ := List.cons.inj hsplit
        obtain ⟨hlast, hrest⟩ := List.forall_mem_cons.mp hlater
        exact .inr ⟨hlast, rest, x, earlier, rfl, hfree, hrest⟩
  · rintro (⟨x, rfl, hfree⟩ | ⟨hkeeps, later, x, earlier, rfl, hfree, hlater⟩)
    · exact ⟨[], x, history, rfl, hfree, List.forall_mem_nil _⟩
    · exact ⟨act :: later, x, earlier, rfl, hfree, List.forall_mem_cons.mpr ⟨hkeeps, hlater⟩⟩

theorem not_wakeDue_nil : ¬ WakeDue [] := by
  rintro ⟨later, x, earlier, hsplit, -⟩
  cases later <;> cases hsplit

/-- A joypad as a history leaves it. -/
structure Recalls (history : List Act) (j : Joypad) : Prop where
  selected : j.selected = selection history
  held : ∀ x, j.isHeld x = true ↔ Held history x
  wake : j.wake = true ↔ WakeDue history

variable {j : Joypad}

theorem recalls_nil : Recalls [] {} := by
  refine ⟨rfl, fun x => ?held, ?wake⟩
  case held =>
    have hfree : ({} : Joypad).isHeld x = false := by cases x <;> rfl
    rw [hfree]
    exact ⟨fun hheld => absurd hheld Bool.false_ne_true, fun hheld => by cases hheld⟩
  case wake =>
    exact ⟨fun hwake => absurd hwake Bool.false_ne_true, fun hdue => absurd hdue not_wakeDue_nil⟩

/-- A joypad that was reset has nothing to remember. -/
theorem recalls_reset (fill : RamFill) : Recalls (.reset fill :: history) {} := by
  refine ⟨congrArg (·.getD 0x30 &&& 0x30) (Cartridge.lastWrite_reset fill).symm,
    fun x => ?held, ?wake⟩
  case held =>
    rw [recalls_nil.held x, held_cons]
    constructor
    · intro hheld
      cases hheld
    · intro hpress
      cases hpress
  case wake =>
    rw [recalls_nil.wake, wakeDue_cons]
    constructor
    · exact fun hdue => absurd hdue not_wakeDue_nil
    · rintro (⟨x, hpress, -⟩ | ⟨hkeeps, -⟩)
      · cases hpress
      · cases hkeeps

namespace Recalls

variable (h : Recalls history j)
include h

/-- An act of which no button takes notice, and which leaves the request to leave STOP. -/
theorem pass (hconcerns : ∀ x, act.concerns x = false) (hkeeps : act.dropsWake = false)
    {selected : UInt8} (hselected : selected = selection (act :: history)) :
    Recalls (act :: history) { j with selected } := by
  refine ⟨hselected, fun x => ?held, ?wake⟩
  case held =>
    rw [held_cons, hconcerns x]
    exact h.held x
  case wake =>
    rw [wakeDue_cons]
    constructor
    · intro hwake
      exact .inr ⟨hkeeps, h.wake.mp hwake⟩
    · rintro (⟨x, rfl, -⟩ | ⟨-, hdue⟩)
      · have hnotices : (Board.Act.press x).concerns x = true := beq_self_eq_true x
        exact absurd ((hconcerns x).symm.trans hnotices) Bool.false_ne_true
      · exact h.wake.mpr hdue

theorem takeWake : Recalls (.takeWake :: history) j.takeWake.2 := by
  refine ⟨h.selected, fun x => ?held, ?wake⟩
  case held =>
    rw [held_cons]
    exact h.held x
  case wake =>
    rw [wakeDue_cons]
    refine ⟨fun hwake => absurd hwake Bool.false_ne_true, ?_⟩
    rintro (⟨x, hpress, -⟩ | ⟨hkeeps, -⟩)
    · cases hpress
    · cases hkeeps

theorem release (y : Button) : Recalls (.release y :: history) (j.release y) := by
  have hrest : (j.release y).selected = j.selected ∧ (j.release y).wake = j.wake := by
    unfold Joypad.release setGroup
    cases y.isDirection <;> exact ⟨rfl, rfl⟩
  refine ⟨hrest.1.trans h.selected, fun x => ?held, ?wake⟩
  case held =>
    rw [isHeld_release, held_cons]
    by_cases hsame : x = y
    · subst hsame
      simp [Board.Act.concerns]
    · have hother : (Board.Act.release y).concerns x = false := beq_false_of_ne (Ne.symm hsame)
      rw [hother, decide_eq_true hsame, Bool.and_true]
      exact h.held x
  case wake =>
    rw [hrest.2, h.wake, wakeDue_cons]
    exact ⟨fun hdue => .inr ⟨rfl, hdue⟩, fun hdue => by simpa [Board.Act.dropsWake] using hdue⟩

/-- After a press exactly that button is held besides those that were. -/
theorem held_press (x y : Button) : Held (.press y :: history) x ↔ j.isHeld x = true ∨ x = y := by
  rw [held_cons]
  by_cases hsame : x = y
  · subst hsame
    simp [Board.Act.concerns]
  · have hother : (Board.Act.press y).concerns x = false := beq_false_of_ne (Ne.symm hsame)
    rw [hother, h.held x]
    simp [hsame]

/-- A press of a button that is held is heard of, but changes nothing. -/
theorem press_of_held {y : Button} (hheld : j.isHeld y = true) :
    Recalls (.press y :: history) j := by
  refine ⟨h.selected, fun x => ?held, ?wake⟩
  case held =>
    rw [h.held_press x y]
    refine ⟨.inl, ?_⟩
    rintro (hbefore | rfl)
    · exact hbefore
    · exact hheld
  case wake =>
    rw [wakeDue_cons]
    constructor
    · intro hwake
      exact .inr ⟨rfl, h.wake.mp hwake⟩
    · rintro (⟨x, hpress, hfree⟩ | ⟨-, hdue⟩)
      · cases hpress
        exact absurd ((h.held y).mp hheld) hfree
      · exact h.wake.mpr hdue

theorem hold {y : Button} (hfree : j.isHeld y = false) :
    Recalls (.press y :: history) (j.hold y) := by
  have hrest : (j.hold y).selected = j.selected ∧ (j.hold y).wake = true := by
    unfold Joypad.hold setGroup
    cases y.isDirection <;> exact ⟨rfl, rfl⟩
  refine ⟨hrest.1.trans h.selected, fun x => ?held, ?wake⟩
  case held =>
    rw [isHeld_hold, h.held_press x y, Bool.or_eq_true, decide_eq_true_eq]
  case wake =>
    have hnew : ¬ Held history y := fun hheld => by simp [(h.held y).mpr hheld] at hfree
    rw [wakeDue_cons]
    exact ⟨fun _ => .inl ⟨y, rfl, hnew⟩, fun _ => hrest.2⟩

end Recalls

end Joypad

namespace Board

/-! ### The joypad on the board -/

/-- A write elsewhere does not reach the joypad. -/
theorem joypad_write {b : Board} {address : UInt16} (h : address ≠ 0xFF00) (value : UInt8) :
    (b.write address value).1.joypad = b.joypad := by
  obtain ⟨oam, hunits⟩ := b.exists_written address value (.ofAddress address)
  rw [write, hunits]
  cases htarget : Target.ofAddress address with
  | joypad =>
      cases Target.standsAt_of_eq htarget with
      | joypad haddress => exact absurd (UInt16.toNat_inj.mp haddress) h
  | _ => rfl

theorem ofAddress_joypad : Target.ofAddress 0xFF00 = .joypad := by decide +kernel

theorem write_joypad (b : Board) (value : UInt8) :
    (b.write 0xFF00 value).1 = { b with joypad := b.joypad.write value } := by
  unfold write
  rw [ofAddress_joypad]
  rfl

theorem read_joypad (b : Board) : b.read 0xFF00 = b.joypad.read := by
  unfold read
  rw [ofAddress_joypad]
  rfl

/-- The interrupt that a press raises, or not. -/
theorem interrupts_press (b : Board) (x : Button) : (b.press x).1.interrupts =
    if b.isHeld x = false ∧ b.joypad.shows x = true then b.interrupts.raise (.only .joypad)
    else b.interrupts := by
  cases hheld : b.isHeld x with
  | true =>
      rw [press_of_held hheld]
      exact (if_neg fun hnew => Bool.noConfusion hnew.1).symm
  | false =>
      rw [press_eq hheld]
      cases b.joypad.shows x with
      | true => rfl
      | false => exact b.interrupts.raise_empty

/-- One more act. -/
theorem recalls_act {b : Board} {history : List Act} (h : b.joypad.Recalls history) (act : Act) :
    (b.act act).joypad.Recalls (act :: history) := by
  cases act with
  | write address value =>
      by_cases haddress : address = 0xFF00
      · subst haddress
        rw [Board.act, write_joypad]
        exact h.pass (fun _ => rfl) rfl rfl
      · have houtside : address.toNat < 0xFF00 ∨ 0xFF00 < address.toNat :=
          Nat.lt_or_gt_of_ne fun heq => haddress (UInt16.toNat_inj.mp heq)
        have hselected : b.joypad.selected = Joypad.selection (.write address value :: history) := by
          rw [Joypad.selection, Cartridge.lastWrite_outside houtside]
          exact h.selected
        rw [Board.act, joypad_write haddress]
        exact h.pass (fun _ => rfl) rfl hselected
  | takeWake => exact h.takeWake
  | timer cycles =>
      rw [Board.act, advanceTimer_eq]
      exact h.pass (fun _ => rfl) rfl h.selected
  | picture cycles =>
      rw [Board.act, advancePicture_eq]
      exact h.pass (fun _ => rfl) rfl h.selected
  | press button =>
      cases hheld : b.isHeld button with
      | true =>
          rw [Board.act, press_of_held hheld]
          exact h.press_of_held hheld
      | false =>
          rw [Board.act, press_eq hheld]
          exact h.hold hheld
  | release button => exact h.release button
  | forgetFrame => exact h.pass (fun _ => rfl) rfl h.selected
  | reset fill => exact Joypad.recalls_reset fill

/-- However much has happened since power-on. -/
theorem recalls_actAll (cartridge : Cartridge) (fill : RamFill) (history : List Act) :
    ((powerOn cartridge fill).actAll history.reverse).joypad.Recalls history := by
  induction history with
  | nil => exact Joypad.recalls_nil
  | cons act earlier ih =>
      rw [List.reverse_cons, actAll_append]
      exact recalls_act ih act

/-- The joypad, for everything that can have happened since power-on. What its register shows is told
    by the buttons that are held and the groups that were selected last; a press raises the interrupt
    exactly if the button was not held and its group is selected, and to let a button go or to write
    the register raises none; and there is a request to leave STOP to take exactly if a button was
    pressed anew since the last was taken. -/
theorem joypad_of_history (cartridge : Cartridge) (fill : RamFill) (history : List Act) :
    let b := (powerOn cartridge fill).actAll history.reverse
    let selection := Joypad.selection history
    (∃ low : UInt8, low < 16 ∧ b.read 0xFF00 = 0xC0 + selection + low ∧
      ∀ k < 4, low.toNat.testBit k = false ↔
        ∃ x, Joypad.Held history x ∧ selection &&& x.groupSelect = 0 ∧ x.bit.toNat = 2 ^ k) ∧
      (∀ x, (b.press x).1.interrupts =
        if ¬ Joypad.Held history x ∧ selection &&& x.groupSelect = 0
        then b.interrupts.raise (.only .joypad) else b.interrupts) ∧
      (∀ x, (b.release x).interrupts = b.interrupts) ∧
      (∀ value, (b.write 0xFF00 value).1.interrupts = b.interrupts) ∧
      (b.takeWake.1 = true ↔ Joypad.WakeDue history) := by
  intro b selection
  have hrecalls : b.joypad.Recalls history := recalls_actAll cartridge fill history
  have hselected : b.joypad.selected = selection := hrecalls.selected
  have hshows (x : Button) : b.joypad.shows x = true ↔ selection &&& x.groupSelect = 0 := by
    rw [← hselected]
    exact beq_iff_eq
  refine ⟨⟨b.joypad.lowNibble, b.joypad.lowNibble_lt, ?read, ?bits⟩, ?press, fun _ => rfl, ?write,
    hrecalls.wake⟩
  case read =>
    have hmask : b.joypad.selected &&& 0x30 = b.joypad.selected := by
      rw [hselected]
      exact UInt8.and_assoc _ _ _
    rw [read_joypad, b.joypad.read_eq_add hmask, hselected]
  case bits =>
    intro k hk
    refine (Joypad.testBit_lowNibble hk).trans ?_
    exact exists_congr fun x => and_congr (hrecalls.held x) (and_congr_left' (hshows x))
  case press =>
    intro x
    have hfree : b.isHeld x = false ↔ ¬ Joypad.Held history x :=
      (Bool.not_eq_true _).symm.to_iff.trans (hrecalls.held x).not
    rw [interrupts_press]
    exact if_congr (and_congr hfree (hshows x)) rfl rfl
  case write =>
    intro value
    rw [write_joypad]

end Board

end Handheld
