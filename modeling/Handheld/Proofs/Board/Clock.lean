/-
Module: Handheld.Proofs.Board.Clock
Purpose: The clock of the board does not care how the cycles are dealt out. In the timer and in the
  picture unit cycles in two parts are the same as all at once, and the two units share nothing but
  the interrupt controller, where requests add up in any order. So it makes no difference that the
  timer runs first each time. Neither unit writes to memory on its own.
Main exports: LineSet.onlyIf, Picture.Signal.lines, Picture.linesOf, Timer.advance_add,
  Timer.divider_advance, Board.Memory, Board.advance_eq, Board.memory_advance,
  Board.advanceTimer_advancePicture, Board.advance_parts
-/
import Mathlib.Algebra.GroupWithZero.Nat
import Handheld.Board.Basic
import Handheld.Proofs.Picture.Pace

namespace Handheld

/-! ### Requests -/

namespace LineSet

/-- The set of a line that is due, and else the empty set. -/
def onlyIf (due : Bool) (line : Interrupt) : LineSet :=
  if due then .only line else ⟨0⟩

theorem union_assoc (s t r : LineSet) : (s.union t).union r = s.union (t.union r) :=
  congrArg LineSet.mk (UInt8.or_assoc s.bits t.bits r.bits)

theorem union_comm (s t : LineSet) : s.union t = t.union s :=
  congrArg LineSet.mk (UInt8.or_comm s.bits t.bits)

theorem union_empty (s : LineSet) : s.union ⟨0⟩ = s :=
  congrArg LineSet.mk UInt8.or_zero

theorem onlyIf_or (first second : Bool) (line : Interrupt) :
    onlyIf (first || second) line = (onlyIf first line).union (onlyIf second line) := by
  cases first <;> cases second <;> cases line <;> rfl

end LineSet

theorem InterruptController.raise_raise (c : InterruptController) (s t : LineSet) :
    (c.raise s).raise t = c.raise (s.union t) := by
  unfold raise
  dsimp only
  rw [LineSet.union_assoc]

theorem InterruptController.raise_empty (c : InterruptController) : c.raise ⟨0⟩ = c := by
  unfold raise
  rw [LineSet.union_empty]

/-! ### The units by themselves -/

namespace Timer

theorem advanceFrom_due (cycles : Nat) (t : Timer) (due : Bool) :
    advanceFrom cycles t due =
      ((advanceFrom cycles t false).1, due || (advanceFrom cycles t false).2) := by
  induction cycles generalizing t due with
  | zero => rw [advanceFrom, advanceFrom, Bool.or_false]
  | succ cycles ih =>
      unfold advanceFrom
      dsimp only
      rw [ih t.tick.1 (due || t.tick.2), ih t.tick.1 (false || t.tick.2), Bool.false_or,
        Bool.or_assoc]

/-- Cycles in two parts are the same as all at once, and the interrupt is due if it is in either. -/
theorem advance_add (t : Timer) (first second : Nat) :
    t.advance (first + second) = (((t.advance first).1.advance second).1,
      (t.advance first).2 || ((t.advance first).1.advance second).2) := by
  unfold advance
  rw [advanceFrom_add, advanceFrom_due second]

theorem divider_change (t : Timer) (f : Timer → Timer) :
    (t.change f).1.divider = (f t).divider := by
  unfold change count
  dsimp only
  repeat' split
  all_goals rfl

theorem divider_advanceFrom (cycles : Nat) (t : Timer) (due : Bool) :
    (advanceFrom cycles t due).1.divider = t.divider + UInt16.ofNat cycles := by
  induction cycles generalizing t due with
  | zero => exact (UInt16.add_zero _).symm
  | succ cycles ih =>
      have htick : t.tick.1.divider = t.divider + 1 := t.divider_change _
      unfold advanceFrom
      dsimp only
      rw [ih, htick, UInt16.ofNat_add, UInt16.add_assoc, UInt16.add_comm 1]
      rfl

/-- Whatever the timer counts on its way, the divider goes on with every cycle. -/
theorem divider_advance (t : Timer) (cycles : Nat) :
    (t.advance cycles).1.divider = t.divider + UInt16.ofNat cycles :=
  divider_advanceFrom cycles t false

end Timer

namespace Picture

/-- The interrupt that a signal requests, if it does. -/
def Signal.lines : Signal → LineSet
  | .request line => .only line
  | _ => ⟨0⟩

/-- The interrupts that signals request. -/
def linesOf : List Signal → LineSet
  | [] => ⟨0⟩
  | signal :: rest => signal.lines.union (linesOf rest)

theorem linesOf_append (signals more : List Signal) :
    linesOf (signals ++ more) = (linesOf signals).union (linesOf more) := by
  induction signals with
  | nil => rw [List.nil_append, linesOf, LineSet.union_comm, LineSet.union_empty]
  | cons signal rest ih => rw [List.cons_append, linesOf, ih, linesOf, LineSet.union_assoc]

end Picture

namespace Picture

/-- The memories of the unit: video memory and the sprite table. -/
def memories (u : Picture) : Vector UInt8 vramSize × Vector UInt8 oamSize :=
  (u.vram, u.oam)

theorem memories_nextLine (u : Picture) : u.nextLine.1.memories = u.memories := by
  unfold nextLine
  dsimp only
  repeat' split
  all_goals rfl

theorem memories_tick (u : Picture) : u.tick.1.memories = u.memories := by
  have hstat : u.tick.1.memories = u.nextDot.1.memories := rfl
  rw [hstat]
  unfold nextDot
  dsimp only
  repeat' split
  case h_3.isTrue | h_4.isTrue => exact memories_nextLine _
  all_goals rfl

theorem memories_ticksFrom (dots : Nat) (u : Picture) (latestFirst : List Signal) :
    (ticksFrom dots u latestFirst).1.memories = u.memories := by
  induction dots generalizing u latestFirst with
  | zero => rfl
  | succ dots ih => exact (ih _ _).trans u.memories_tick

/-- However far the raster goes, it only reads the memories. -/
theorem memories_advance (u : Picture) (cycles : Nat) :
    (u.advance cycles).1.memories = u.memories := by
  unfold advance
  split
  · exact u.memories_ticksFrom cycles []
  · rfl

end Picture

/-! ### The units on the board -/

/-- All that is stored on a board: in the cartridge, in the two RAMs and in the picture unit. -/
structure Board.Memory where
  cartridge : Cartridge
  wram : Vector UInt8 wramSize
  hram : Vector UInt8 hramSize
  picture : Vector UInt8 Picture.vramSize × Vector UInt8 Picture.oamSize

namespace Board

/-- What is stored on the board. -/
def memory (b : Board) : Memory :=
  ⟨b.cartridge, b.wram, b.hram, b.picture.memories⟩

variable (b : Board)

theorem requestIf_eq (due : Bool) (line : Interrupt) :
    b.requestIf due line = { b with interrupts := b.interrupts.raise (.onlyIf due line) } := by
  cases due with
  | false =>
      unfold requestIf LineSet.onlyIf
      rw [if_neg Bool.false_ne_true, if_neg Bool.false_ne_true, InterruptController.raise_empty]
  | true => rfl

theorem follow_eq (signal : Picture.Signal) :
    (b.follow signal).1 = { b with interrupts := b.interrupts.raise signal.lines } := by
  cases signal with
  | request line => rfl
  | _ =>
      unfold Picture.Signal.lines
      rw [InterruptController.raise_empty]
      rfl

/-- Signals do nothing to the board but request interrupts. -/
theorem followAll_eq (signals : List Picture.Signal) :
    (b.followAll signals).1 =
      { b with interrupts := b.interrupts.raise (Picture.linesOf signals) } := by
  induction signals generalizing b with
  | nil =>
      rw [Picture.linesOf, InterruptController.raise_empty]
      rfl
  | cons signal rest ih =>
      have hrest : (b.followAll (signal :: rest)).1 = ((b.follow signal).1.followAll rest).1 := rfl
      rw [hrest, ih, follow_eq]
      dsimp only
      rw [InterruptController.raise_raise]
      rfl

theorem advanceTimer_eq (cycles : Nat) :
    b.advanceTimer cycles =
      { b with
        timer := (b.timer.advance cycles).1
        interrupts := b.interrupts.raise (.onlyIf (b.timer.advance cycles).2 .timer) } :=
  requestIf_eq _ _ _

theorem advancePicture_eq (cycles : Nat) :
    (b.advancePicture cycles).1 =
      { b with
        picture := (b.picture.advance cycles).1
        interrupts := b.interrupts.raise (Picture.linesOf (b.picture.advance cycles).2) } :=
  followAll_eq _ _

/-- All that the clock changes are the two units, and which interrupts are requested. -/
theorem advance_eq (cycles : Nat) :
    (b.advance cycles).1 =
      { b with
        timer := (b.timer.advance cycles).1
        picture := (b.picture.advance cycles).1
        interrupts := b.interrupts.raise ((LineSet.onlyIf (b.timer.advance cycles).2 .timer).union
          (Picture.linesOf (b.picture.advance cycles).2)) } := by
  have hunits : (b.advance cycles).1 = ((b.advanceTimer cycles).advancePicture cycles).1 := rfl
  rw [hunits, advancePicture_eq, advanceTimer_eq]
  dsimp only
  rw [InterruptController.raise_raise]

theorem joypad_advance (cycles : Nat) : (b.advance cycles).1.joypad = b.joypad := by
  rw [advance_eq]

theorem memory_advance (cycles : Nat) : (b.advance cycles).1.memory = b.memory := by
  rw [advance_eq]
  unfold memory
  rw [Picture.memories_advance]

theorem advanceTimer_advanceTimer (first second : Nat) :
    (b.advanceTimer first).advanceTimer second = b.advanceTimer (first + second) := by
  rw [advanceTimer_eq, advanceTimer_eq, advanceTimer_eq]
  dsimp only
  rw [Timer.advance_add, InterruptController.raise_raise, LineSet.onlyIf_or]

theorem advancePicture_advancePicture (first second : Nat) :
    ((b.advancePicture first).1.advancePicture second).1 =
      (b.advancePicture (first + second)).1 := by
  rw [advancePicture_eq, advancePicture_eq, advancePicture_eq]
  dsimp only
  rw [Picture.advance_add, InterruptController.raise_raise, Picture.linesOf_append]

/-- It makes no difference which unit runs first. -/
theorem advanceTimer_advancePicture (cycles dots : Nat) :
    (b.advancePicture dots).1.advanceTimer cycles =
      ((b.advanceTimer cycles).advancePicture dots).1 := by
  rw [advanceTimer_eq, advancePicture_eq, advancePicture_eq, advanceTimer_eq]
  dsimp only
  rw [InterruptController.raise_raise, InterruptController.raise_raise, LineSet.union_comm]

theorem advance_advance (first second : Nat) :
    ((b.advance first).1.advance second).1 = (b.advance (first + second)).1 := by
  calc ((b.advance first).1.advance second).1
    _ = ((((b.advanceTimer first).advancePicture first).1.advanceTimer second).advancePicture
          second).1 := rfl
    _ = ((((b.advanceTimer first).advanceTimer second).advancePicture first).1.advancePicture
          second).1 := by rw [advanceTimer_advancePicture]
    _ = ((b.advanceTimer (first + second)).advancePicture (first + second)).1 := by
          rw [advanceTimer_advanceTimer, advancePicture_advancePicture]

/-- The clock does not care how the cycles are dealt out, for every board: cycles in two parts, or
    in any number of parts, lead to the same board as all at once. -/
theorem advance_parts :
    (∀ first second, ((b.advance first).1.advance second).1 = (b.advance (first + second)).1) ∧
      ∀ first (rest : List Nat), rest.foldl (fun b cycles => (b.advance cycles).1) (b.advance first).1 =
        (b.advance (first + rest.sum)).1 := by
  refine ⟨b.advance_advance, ?_⟩
  intro first rest
  induction rest generalizing first with
  | nil => rfl
  | cons cycles rest ih =>
      rw [List.foldl_cons, advance_advance, ih, List.sum_cons, Nat.add_assoc]

end Board

end Handheld
