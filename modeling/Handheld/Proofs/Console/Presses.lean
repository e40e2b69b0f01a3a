/-
Module: Handheld.Proofs.Console.Presses
Purpose: Pressing buttons. A button that is held takes no notice of another press, and two presses can
  change places, so of presses in a row only the set of buttons matters. A run changes nothing about
  which buttons are held.
Main exports: Joypad.hold, Joypad.shows, Board.isHeld, Board.press_eq, Board.press_press,
  Board.pressAll, Board.pressAll_eq_of_same, Board.held, Console.held_runFrame
-/
import Handheld.Proofs.Board.Isolation
import Handheld.Proofs.Console.Chronicle

namespace Handheld

/-! ### The joypad -/

namespace Joypad

variable (j : Joypad) (x y : Button)

/-- The joypad with one more button held. -/
def hold : Joypad :=
  { j.setGroup x (j.group x ||| x.bit) with wake := true }

/-- Whether the register shows the group of a button. -/
def shows : Bool :=
  j.selected &&& x.groupSelect == 0

theorem shows_hold : (j.hold x).shows y = j.shows y := by
  unfold shows hold setGroup
  split <;> rfl

theorem press?_eq : j.press? x = if j.isHeld x then none else some (j.hold x, j.shows x) := by
  have hshows := j.shows_hold x x
  unfold shows at hshows
  unfold press?
  split
  · rfl
  · rw [← shows_hold j x x]
    rfl

/-- It makes no difference which of two buttons is pressed first. -/
theorem hold_hold : (j.hold x).hold y = (j.hold y).hold x := by
  have hbits (held : UInt8) : held ||| x.bit ||| y.bit = held ||| y.bit ||| x.bit := by
    rw [UInt8.or_assoc, UInt8.or_comm x.bit, UInt8.or_assoc]
  unfold hold setGroup group
  cases x.isDirection <;> cases y.isDirection <;> simp [hbits]

theorem group_hold : (j.hold x).group y =
    if x.isDirection = y.isDirection then j.group y ||| x.bit else j.group y := by
  unfold hold setGroup group
  cases x.isDirection <;> cases y.isDirection <;> rfl

/-- Two buttons of a group have different bits. -/
theorem bit_and_bit (h : x.isDirection = y.isDirection) :
    (x.bit &&& y.bit != 0) = decide (y = x) := by
  cases x <;> cases y <;> first | rfl | cases h

/-- One more button is held than before. -/
theorem isHeld_hold : (j.hold x).isHeld y = (j.isHeld y || decide (y = x)) := by
  unfold isHeld
  rw [group_hold]
  by_cases hgroup : x.isDirection = y.isDirection
  · have hand : (j.group y ||| x.bit) &&& y.bit = j.group y &&& y.bit ||| x.bit &&& y.bit :=
      UInt8.toBitVec_inj.mp BitVec.and_or_distrib_right
    rw [if_pos hgroup, ← bit_and_bit x y hgroup, hand, Bool.eq_iff_iff]
    simp only [bne_iff_ne, Bool.or_eq_true, ne_eq, UInt8.or_eq_zero_iff, not_and_or]
  · have hne : y ≠ x := fun heq => hgroup (congrArg Button.isDirection heq.symm)
    rw [if_neg hgroup, decide_eq_false hne, Bool.or_false]

end Joypad

/-! ### The board -/

namespace Board

variable (b : Board) (x y : Button)

/-- Whether a button is held. -/
def isHeld : Bool :=
  b.joypad.isHeld x

variable {b x}

/-- A press of a button that is held does nothing. -/
theorem press_of_held (h : b.isHeld x = true) : b.press x = (b, []) := by
  have hnone : b.joypad.press? x = none := by
    rw [Joypad.press?_eq]
    exact if_pos h
  unfold press
  rw [hnone]

/-- Any other press holds the button, makes a request to leave STOP, and requests an interrupt if the
    group of the button is shown. -/
theorem press_eq (h : b.isHeld x = false) :
    (b.press x).1 = { b with
      joypad := b.joypad.hold x
      interrupts := b.interrupts.raise (.onlyIf (b.joypad.shows x) .joypad) } := by
  have hsome : b.joypad.press? x = some (b.joypad.hold x, b.joypad.shows x) := by
    rw [Joypad.press?_eq]
    exact if_neg (ne_true_of_eq_false h)
  unfold press
  rw [hsome]
  exact requestIf_eq _ _ _

variable (b x)

theorem isHeld_press : (b.press x).1.isHeld y = (b.isHeld y || decide (y = x)) := by
  cases hheld : b.isHeld x with
  | true =>
      rw [press_of_held hheld]
      by_cases heq : y = x
      · subst heq
        rw [hheld, Bool.true_or]
      · rw [decide_eq_false heq, Bool.or_false]
  | false =>
      rw [press_eq hheld]
      exact b.joypad.isHeld_hold x y

/-- Two presses can change places. -/
theorem press_press : ((b.press x).1.press y).1 = ((b.press y).1.press x).1 := by
  have hkeeps (z w : Button) (hheld : b.isHeld z = true) : (b.press w).1.isHeld z = true := by
    rw [isHeld_press, hheld, Bool.true_or]
  cases hx : b.isHeld x with
  | true => rw [press_of_held hx, press_of_held (hkeeps x y hx)]
  | false =>
      cases hy : b.isHeld y with
      | true => rw [press_of_held hy, press_of_held (hkeeps y x hy)]
      | false =>
          by_cases heq : y = x
          · rw [heq]
          · have hy' : (b.press x).1.isHeld y = false := by
              rw [isHeld_press, hy, decide_eq_false heq, Bool.or_false]
            have hx' : (b.press y).1.isHeld x = false := by
              rw [isHeld_press, hx, decide_eq_false (Ne.symm heq), Bool.or_false]
            rw [press_eq hy', press_eq hx', press_eq hx, press_eq hy]
            dsimp only
            rw [InterruptController.raise_raise, InterruptController.raise_raise,
              Joypad.shows_hold, Joypad.shows_hold, Joypad.hold_hold, LineSet.union_comm]

/-- Press buttons one after the other. -/
def pressAll (buttons : List Button) : Board :=
  buttons.foldl (fun b button => (b.press button).1) b

variable {b}

theorem pressAll_append (buttons more : List Button) :
    b.pressAll (buttons ++ more) = (b.pressAll buttons).pressAll more :=
  List.foldl_append

theorem isHeld_pressAll (buttons : List Button) :
    (b.pressAll buttons).isHeld y = (b.isHeld y || decide (y ∈ buttons)) := by
  induction buttons generalizing b with
  | nil => simp [pressAll]
  | cons button rest ih =>
      have hall : b.pressAll (button :: rest) = (b.press button).1.pressAll rest := rfl
      rw [hall, ih, isHeld_press, Bool.or_assoc, ← Bool.decide_or]
      simp only [List.mem_cons]

theorem pressAll_of_held {buttons : List Button} (h : ∀ button ∈ buttons, b.isHeld button = true) :
    b.pressAll buttons = b := by
  induction buttons with
  | nil => rfl
  | cons button rest ih =>
      obtain ⟨hfirst, hrest⟩ := List.forall_mem_cons.mp h
      have hall : b.pressAll (button :: rest) = (b.press button).1.pressAll rest := rfl
      rw [hall, press_of_held hfirst]
      exact ih hrest

theorem pressAll_perm {buttons buttons' : List Button} (h : buttons.Perm buttons') :
    b.pressAll buttons = b.pressAll buttons' :=
  h.foldl_eq' (fun x _ y _ b => b.press_press x y) b

/-- Buttons that are held already are pressed for nothing. -/
theorem pressAll_append_of_mem {buttons more : List Button}
    (h : ∀ button ∈ more, b.isHeld button = true ∨ button ∈ buttons) :
    b.pressAll (buttons ++ more) = b.pressAll buttons := by
  rw [pressAll_append]
  apply pressAll_of_held
  intro button hbutton
  rw [isHeld_pressAll, Bool.or_eq_true, decide_eq_true_eq]
  exact h button hbutton

/-- Of presses in a row only the set of buttons matters, and of those only the ones that are not held
    already. -/
theorem pressAll_eq_of_same {buttons buttons' : List Button}
    (h : ∀ x, b.isHeld x = false → (x ∈ buttons ↔ x ∈ buttons')) :
    b.pressAll buttons = b.pressAll buttons' := by
  have hor (x : Button) : b.isHeld x = true ∨ (x ∈ buttons ↔ x ∈ buttons') := by
    cases hheld : b.isHeld x with
    | true => exact .inl rfl
    | false => exact .inr (h x hheld)
  calc b.pressAll buttons
    _ = b.pressAll (buttons ++ buttons') :=
        (pressAll_append_of_mem fun x hx => (hor x).imp_right fun hsame => hsame.mpr hx).symm
    _ = b.pressAll (buttons' ++ buttons) := pressAll_perm List.perm_append_comm
    _ = b.pressAll buttons' :=
        pressAll_append_of_mem fun x hx => (hor x).imp_right fun hsame => hsame.mp hx

/-! ### What keeps the buttons held -/

variable (b)

/-- The held buttons of both groups. -/
def held : UInt8 × UInt8 :=
  (b.joypad.directions, b.joypad.actions)

theorem held_writeTarget (address : UInt16) (value : UInt8) (target : Target) :
    (b.writeTarget address value target).1.held = b.held := by
  obtain ⟨oam, hunits⟩ := b.exists_written address value target
  rw [hunits]
  cases target <;> rfl

theorem held_advance (cycles : Nat) : (b.advance cycles).1.held = b.held := by
  unfold held
  rw [joypad_advance]

theorem held_actAll {acts : List Act} (h : ∀ act ∈ acts, act.isProcessor = true) :
    (b.actAll acts).held = b.held :=
  view_actAll (fun b address value => b.held_writeTarget address value _) (fun _ => rfl) h b

theorem isHeld_of_held {b b' : Board} (h : b'.held = b.held) (x : Button) :
    b'.isHeld x = b.isHeld x := by
  have hdirections : b'.joypad.directions = b.joypad.directions := congrArg Prod.fst h
  have hactions : b'.joypad.actions = b.joypad.actions := congrArg Prod.snd h
  unfold isHeld Joypad.isHeld Joypad.group
  rw [hdirections, hactions]

end Board

namespace Console

theorem board_foldl_press (buttons : List Button) (c : Console) :
    (buttons.foldl Console.press c).board = c.board.pressAll buttons := by
  induction buttons generalizing c with
  | nil => rfl
  | cons button rest ih => exact ih (c.press button)

/-- Presses reach the board and nothing else. -/
theorem rest_foldl_press (buttons : List Button) (c : Console) :
    (buttons.foldl press c).cpu = c.cpu ∧ (buttons.foldl press c).settings = c.settings := by
  induction buttons generalizing c with
  | nil => exact ⟨rfl, rfl⟩
  | cons button rest ih => exact ih (c.press button)

theorem held_step (c : Console) : c.step.2.board.held = c.board.held := by
  have hacted : c.core.step.2.bus.board.held = c.board.held := by
    rw [c.core.step_chronicle.2]
    exact Board.held_actAll _ fun _ => Core.isProcessor_of_mem_acts
  rw [step_eq]
  cases c.core.step.1 with
  | error fault => exact hacted
  | ok report =>
      have hboard := NotedBoard.board_advance c.core.step.2.bus report.cycles
      exact (congrArg Board.held hboard).trans ((Board.held_advance _ _).trans hacted)

theorem held_stepToFrame (limit : Nat) (c : Console) :
    (stepToFrame limit c).2.board.held = c.board.held := by
  induction limit generalizing c with
  | zero => rfl
  | succ limit ih =>
      have hnext := c.held_step
      unfold stepToFrame
      cases hstep : c.step with
      | mk result next =>
          rw [hstep] at hnext
          cases result with
          | error fault => exact hnext
          | ok cycles =>
              dsimp only
              split
              · exact hnext
              · exact (ih next).trans hnext

/-- A run for a frame changes nothing about which buttons are held, whatever the program does. -/
theorem held_runFrame (limit : Nat) (c : Console) :
    (c.runFrame limit).2.board.held = c.board.held :=
  held_stepToFrame limit c.forgetFrame

end Console

end Handheld
