/-
Module: Handheld.Proofs.Cartridge.History
Purpose: What everything that has happened to a board has made of its cartridge. The image and the
  header stay as they are, and each register of the controller is told by the last byte written to
  its addresses since the last reset. Histories are given with the latest act first.
Main exports: Cartridge.meet, Cartridge.replay, Board.cartridge_actAll, Cartridge.fixed_replay,
  lastWrite, lastNumber, Mbc1.ofHistory, Mbc5.ofHistory, Cartridge.banking_replay
-/
import Handheld.Proofs.Board.Map
import Handheld.Proofs.Cartridge.Ram
import Handheld.Proofs.Console.Chronicle

namespace Handheld

open Board (Act)

/-! ### What reaches the cartridge -/

namespace Cartridge

/-- What an act on the board does to its cartridge. -/
def meet (c : Cartridge) : Act → Cartridge
  | .write address value =>
    if address.toNat < 0x8000 then (c.writeRom address value).1
    else if 0xA000 ≤ address.toNat ∧ address.toNat < 0xC000 then c.writeRam address value
    else c
  | .reset _ => c.reset
  | _ => c

/-- The cartridge after a history. -/
def replay (c : Cartridge) : (history : List Act) → Cartridge
  | [] => c
  | act :: earlier => (c.replay earlier).meet act

end Cartridge

namespace Board

theorem cartridge_write (b : Board) (address : UInt16) (value : UInt8) :
    (b.write address value).1.cartridge = b.cartridge.meet (.write address value) := by
  unfold write Cartridge.meet
  dsimp only
  generalize htarget : Target.ofAddress address = target
  obtain ⟨oam, hunits⟩ := b.exists_written address value target
  rw [hunits]
  cases Target.standsAt_of_eq htarget with
  | rom high =>
      rw [if_pos high]
      rfl
  | cartridgeRam low high =>
      rw [if_neg (by omega), if_pos ⟨low, high⟩]
      rfl
  | _ =>
      rw [if_neg (by omega), if_neg (by omega)]
      rfl

theorem cartridge_powerOn (c : Cartridge) (fill : RamFill) : (powerOn c fill).cartridge = c :=
  congrArg Prod.fst (Console.steady_powerOn c fill)

theorem cartridge_act (b : Board) (act : Act) : (b.act act).cartridge = b.cartridge.meet act := by
  cases act with
  | write address value => exact cartridge_write b address value
  | reset fill => exact cartridge_powerOn b.cartridge.reset fill
  | _ =>
      exact view_act Board.cartridge (fun _ _ _ _ => rfl) (fun _ _ => Act.noConfusion)
        (fun _ => Act.noConfusion)

/-- The cartridge knows of all that has happened to the board what has reached it. -/
theorem cartridge_actAll (b : Board) (history : List Act) :
    (b.actAll history.reverse).cartridge = b.cartridge.replay history := by
  induction history with
  | nil => rfl
  | cons act earlier ih =>
      rw [List.reverse_cons, actAll_append, Cartridge.replay, ← ih]
      exact cartridge_act _ act

/-- The same from power-on with the cartridge in the slot. -/
theorem cartridge_actAll_powerOn (c : Cartridge) (fill : RamFill) (history : List Act) :
    ((powerOn c fill).actAll history.reverse).cartridge = c.replay history := by
  rw [cartridge_actAll, cartridge_powerOn]

end Board

namespace Cartridge

/-! ### What stays -/

theorem fixed_meet (c : Cartridge) (act : Act) :
    (c.meet act).rom = c.rom ∧ (c.meet act).header = c.header ∧
      (c.meet act).ram.size = c.ram.size := by
  cases act with
  | write address value =>
      unfold meet
      dsimp only
      split
      · exact ⟨rfl, rfl, rfl⟩
      · split
        · exact ⟨c.rom_writeRam address value, c.header_writeRam address value,
            c.size_ram_writeRam address value⟩
        · exact ⟨rfl, rfl, rfl⟩
  | _ => exact ⟨rfl, rfl, rfl⟩

/-- Nothing changes the image, what was read of its header, or the size of RAM. -/
theorem fixed_replay (c : Cartridge) (history : List Act) :
    (c.replay history).rom = c.rom ∧ (c.replay history).header = c.header ∧
      (c.replay history).ram.size = c.ram.size := by
  induction history with
  | nil => exact ⟨rfl, rfl, rfl⟩
  | cons act earlier ih =>
      rcases fixed_meet (c.replay earlier) act with ⟨hrom, hheader, hsize⟩
      exact ⟨hrom.trans ih.1, hheader.trans ih.2.1, hsize.trans ih.2.2⟩

/-! ### The last write -/

/-- The last byte written to the addresses from `first` to `last` since the last reset. -/
def lastWrite (first last : Nat) : (history : List Act) → Option UInt8
  | [] => none
  | .write address value :: earlier =>
    if first ≤ address.toNat ∧ address.toNat ≤ last then some value
    else lastWrite first last earlier
  | .reset _ :: _ => none
  | _ :: earlier => lastWrite first last earlier

/-- The same as a number, and another number if there was none. -/
def lastNumber (first last : Nat) (initial : UInt8) (history : List Act) : Nat :=
  ((lastWrite first last history).getD initial).toNat

variable {first last : Nat} {address : UInt16} {value : UInt8} {history : List Act}

theorem lastWrite_inside (h : first ≤ address.toNat ∧ address.toNat ≤ last) :
    lastWrite first last (.write address value :: history) = some value :=
  if_pos h

theorem lastWrite_outside (h : address.toNat < first ∨ last < address.toNat) :
    lastWrite first last (.write address value :: history) = lastWrite first last history :=
  if_neg (by omega)

theorem lastWrite_reset (fill : RamFill) :
    lastWrite first last (.reset fill :: history) = none := rfl

/-! ### The registers -/

/-- The registers of an MBC1 controller after a history. -/
def Mbc1.ofHistory (history : List Act) : Mbc1 where
  low :=
    let low := (lastWrite 0x2000 0x3FFF history).getD 1 &&& 0x1F
    if low = 0 then 1 else low
  high := (lastWrite 0x4000 0x5FFF history).getD 0 &&& 0x03
  ramOpen := opensRam ((lastWrite 0x0000 0x1FFF history).getD 0)
  advanced := (lastWrite 0x6000 0x7FFF history).getD 0 &&& 0x01 != 0

/-- The registers of an MBC5 controller after a history. -/
def Mbc5.ofHistory (history : List Act) : Mbc5 where
  low := (lastWrite 0x2000 0x2FFF history).getD 1
  high := (lastWrite 0x3000 0x3FFF history).getD 0 &&& 0x01
  ramBank := (lastWrite 0x4000 0x5FFF history).getD 0 &&& 0x0F
  ramOpen := opensRam ((lastWrite 0x0000 0x1FFF history).getD 0)

theorem Mbc1.ofHistory_write (banks : Nat) (address : UInt16) (value : UInt8) (history : List Act) :
    Mbc1.ofHistory (.write address value :: history) =
      ((Mbc1.ofHistory history).write banks address value).1 := by
  unfold Mbc1.write
  simp only [UInt16.lt_iff_toNat_lt, UInt16.reduceToNat]
  unfold Mbc1.ofHistory
  split
  · simp (disch := omega) only [lastWrite_inside, lastWrite_outside, Option.getD_some]
  split
  · simp (disch := omega) only [lastWrite_inside, lastWrite_outside, Option.getD_some]
  split
  · simp (disch := omega) only [lastWrite_inside, lastWrite_outside, Option.getD_some]
  split
  · simp (disch := omega) only [lastWrite_inside, lastWrite_outside, Option.getD_some]
  · simp (disch := omega) only [lastWrite_outside]

theorem Mbc5.ofHistory_write (address : UInt16) (value : UInt8) (history : List Act) :
    Mbc5.ofHistory (.write address value :: history) =
      ((Mbc5.ofHistory history).write address value).1 := by
  unfold Mbc5.write
  simp only [UInt16.lt_iff_toNat_lt, UInt16.reduceToNat]
  unfold Mbc5.ofHistory
  split
  · simp (disch := omega) only [lastWrite_inside, lastWrite_outside, Option.getD_some]
  split
  · simp (disch := omega) only [lastWrite_inside, lastWrite_outside, Option.getD_some]
  split
  · simp (disch := omega) only [lastWrite_inside, lastWrite_outside, Option.getD_some]
  split
  · simp (disch := omega) only [lastWrite_inside, lastWrite_outside, Option.getD_some]
  · simp (disch := omega) only [lastWrite_outside]

/-- A controller of the same kind, with its registers as a history leaves them. -/
def Banking.ofHistory (controller : Banking) (history : List Act) : Banking :=
  match controller with
  | .plain => .plain
  | .mbc1 _ => .mbc1 (Mbc1.ofHistory history)
  | .mbc5 _ => .mbc5 (Mbc5.ofHistory history)

variable {c : Cartridge}

theorem banking_writeRom (c : Cartridge) (address : UInt16) (value : UInt8) :
    (c.writeRom address value).1.banking = (c.banking.write c.rom.size address value).1 := rfl

/-- A write in the ROM area is one act of the history, and the registers show it. -/
theorem Banking.ofHistory_write (controller : Banking) (romSize : Nat) (address : UInt16)
    (value : UInt8) (history : List Act) :
    controller.ofHistory (.write address value :: history) =
      ((controller.ofHistory history).write romSize address value).1 := by
  cases controller with
  | plain => rfl
  | mbc1 regs => exact congrArg Banking.mbc1 (Mbc1.ofHistory_write _ address value history)
  | mbc5 regs => exact congrArg Banking.mbc5 (Mbc5.ofHistory_write address value history)

/-- A write outside the ROM area leaves the registers alone. -/
theorem Banking.ofHistory_write_above (controller : Banking) (h : 0x8000 ≤ address.toNat) :
    controller.ofHistory (.write address value :: history) = controller.ofHistory history := by
  cases controller with
  | plain => rfl
  | mbc1 regs =>
      simp (disch := omega) only [ofHistory, Mbc1.ofHistory, lastWrite_outside]
  | mbc5 regs =>
      simp (disch := omega) only [ofHistory, Mbc5.ofHistory, lastWrite_outside]

/-- At power-on and after a reset the registers have their first values. -/
theorem Banking.ofHistory_nil (controller : Banking) : controller.ofHistory [] = controller.reset := by
  cases controller <;> rfl

theorem Banking.ofHistory_reset (controller : Banking) (fill : RamFill) (history : List Act) :
    controller.ofHistory (.reset fill :: history) = controller.reset := by
  cases controller with
  | plain => rfl
  | mbc1 regs =>
      unfold ofHistory Mbc1.ofHistory
      rw [lastWrite_reset, lastWrite_reset, lastWrite_reset, lastWrite_reset]
      rfl
  | mbc5 regs =>
      unfold ofHistory Mbc5.ofHistory
      rw [lastWrite_reset, lastWrite_reset, lastWrite_reset, lastWrite_reset]
      rfl

theorem Banking.reset_ofHistory (controller : Banking) (history : List Act) :
    (controller.ofHistory history).reset = controller.reset := by
  cases controller <;> rfl

/-- The registers after a history are those that its writes since the last reset tell. -/
theorem banking_replay (hstart : c.banking.reset = c.banking) (history : List Act) :
    (c.replay history).banking = c.banking.ofHistory history := by
  induction history with
  | nil => exact hstart.symm.trans c.banking.ofHistory_nil.symm
  | cons act earlier ih =>
      cases act with
      | write address value =>
          by_cases hrom : address.toNat < 0x8000
          · rw [replay, meet, if_pos hrom, banking_writeRom, ih]
            exact (c.banking.ofHistory_write _ address value earlier).symm
          · rw [c.banking.ofHistory_write_above (Nat.not_lt.mp hrom), ← ih, replay, meet, if_neg hrom]
            split
            · exact banking_writeRam _ address value
            · rfl
      | reset fill =>
          have hreset : (c.replay earlier).reset.banking = (c.replay earlier).banking.reset := rfl
          rw [replay, meet, hreset, ih, Banking.reset_ofHistory, Banking.ofHistory_reset]
      | _ =>
          refine ih.trans ?_
          cases c.banking <;> rfl

end Cartridge

end Handheld
