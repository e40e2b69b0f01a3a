/-
Module: Handheld.Proofs.Console.Bounds
Purpose: No bound is exceeded inside a console. Whatever image has been accepted and whatever has
  been done to the console since, the next step, press, release, read or write finds every place
  that it asks for and keeps every sum, difference and division within its width. One case is left
  out: a sprite drawn upside down on a line on which it stands no longer.
Main exports: Console.step?, Console.Access, Console.access?, Console.FlippedStand,
  Console.step?_of_stand, Console.access?_within_bounds
-/
import Handheld.Proofs.Cartridge.RomBanks
import Handheld.Proofs.Checked.Board
import Handheld.Proofs.Checked.Processor
import Handheld.Proofs.Console.Calls
import Handheld.Proofs.Console.FramePace
import Handheld.Proofs.Console.Units

namespace Handheld

namespace Core

/-- The processor on the same board with its accesses checked. -/
def checked (m : Core NotedBoard) : Core CheckedBoard :=
  ⟨m.cpu, some m.bus⟩

/-- The checks of the board change nothing of a step, and none of them fails. -/
theorem step_checked (m : Core NotedBoard) : m.checked.step = (m.step.1, m.step.2.checked) := by
  obtain ⟨d, hrun⟩ := exists_dialogue_step m.cpu
  have hplain : m.step = d.runCore m.bus := hrun m.bus
  have hchecked : m.checked.step = d.runCore (some m.bus : CheckedBoard) := hrun _
  rw [hplain, hchecked]
  unfold Dialogue.runCore
  rw [d.run_checked]
  rfl

end Core

namespace Console

/-- One step of the processor on a checked board and, after it, of the rest of the machine. -/
def step? (c : Console) : Option (Except Fault Nat × Console) := do
  let (result, core) ← c.core.checked.step?
  let bus ← core.bus
  match result with
  | .error fault => some (.error fault, { c with core := ⟨core.cpu, bus⟩ })
  | .ok report => do
    let bus ← bus.noting? fun board => board.advance? report.cycles
    some (.ok report.cycles, { c with core := ⟨core.cpu, bus⟩ })

/-- What is asked of a console or of its bus, one thing at a time. -/
inductive Access where
  | step
  | press (button : Button)
  | release (button : Button)
  | read (address : UInt16)
  | write (address : UInt16) (value : UInt8)
deriving DecidableEq, Repr

/-- What is answered. -/
inductive Reply where
  | nothing
  | stepped (result : Except Fault Nat)
  | byte (value : UInt8)

/-- The answer, and the console after it. -/
def access (c : Console) : Access → Reply × Console
  | .step => (.stepped c.step.1, c.step.2)
  | .press button => (.nothing, c.press button)
  | .release button => (.nothing, c.release button)
  | .read address => (.byte (c.board.read address), c)
  | .write address value => (.nothing, c.write address value)

/-- The same with all checks made. The buttons are kept in masks, and to press or to release one
    nothing is looked up or counted. -/
def access? (c : Console) : Access → Option (Reply × Console)
  | .step => do
    let (result, c) ← c.step?
    some (.stepped result, c)
  | .press button => some (.nothing, c.press button)
  | .release button => some (.nothing, c.release button)
  | .read address => do
    let value ← c.board.read? address
    some (.byte value, c)
  | .write address value => do
    let bus ← c.core.bus.noting? fun board => board.write? address value
    some (.nothing, { c with core.bus := bus })

/-- The picture unit when some of the cycles that follow the processor's part of a step have
    passed. -/
def pictureAfter (c : Console) (cycles : Nat) : Picture :=
  (c.core.step.2.bus.board.picture.advance cycles).1

/-- Each sprite upside down that is drawn in the time of the step has been listed for the line, and
    it still stands on it. -/
def FlippedStand (c : Console) : Prop :=
  ∀ k < c.cycles, (c.pictureAfter k).lcdOn = true → (c.pictureAfter k).AtLineEnd →
    (c.pictureAfter k).spritesOn = true → ∀ i ∈ (c.pictureAfter k).lineSprites,
      ((c.pictureAfter k).sprite i).flipY = true →
        ((c.pictureAfter k).sprite i).y.toNat ≤ (c.pictureAfter k).ly.toNat + 16 ∧
          (c.pictureAfter k).ly.toNat + 16 <
            ((c.pictureAfter k).sprite i).y.toNat + (c.pictureAfter k).spriteHeight

variable {c : Console}

/-! ### One step -/

theorem reachable_coreStep (h : c.board.picture.Reachable) :
    c.core.step.2.bus.board.picture.Reachable := by
  rw [c.core.step_chronicle.2]
  exact Board.reachable_actAll h _

theorem flippedStand_iff :
    c.FlippedStand ↔ ∀ k < c.cycles, ¬ (c.pictureAfter k).DrawsAstray := by
  unfold FlippedStand Picture.DrawsAstray Picture.showsAstray Picture.astray Picture.onLine
  simp only [Bool.and_eq_true, List.any_eq_true, Bool.not_eq_true', Bool.and_eq_false_iff,
    decide_eq_false_iff_not, not_and, not_exists, not_or, not_not]

/-- A step exceeds a bound only in the time that follows the processor's part. -/
theorem step?_eq (c : Console) : c.step? = match c.core.step.1 with
    | .error fault => some (.error fault, { c with core := c.core.step.2 })
    | .ok report =>
      (c.core.step.2.bus.noting? fun board => board.advance? report.cycles).bind fun bus =>
        some (.ok report.cycles, { c with core := ⟨c.core.step.2.cpu, bus⟩ }) := by
  unfold step?
  rw [Core.step?_eq, Core.step_checked]
  cases c.core.step.1 <;> rfl

theorem cycles_of_coreStep {report : Report} (h : c.core.step.1 = .ok report) :
    c.cycles = report.cycles := by
  unfold cycles
  rw [step_eq, h]

theorem cycles_lt {report : Report} (h : c.core.step.1 = .ok report) : report.cycles < 2 ^ 16 := by
  have hlongest : longestStep < 2 ^ 16 := by decide
  have hstep : c.core.step = (.ok report, c.core.step.2) := Prod.ext h rfl
  exact Nat.lt_of_le_of_lt (Core.cycles_step_le hstep) hlongest

/-- A step in which the sprites upside down stand on their lines exceeds no bound. -/
theorem step?_of_stand (h : c.board.picture.Reachable) (hstand : c.FlippedStand) :
    c.step? = some c.step := by
  rw [step?_eq, step_eq]
  cases hcore : c.core.step.1 with
  | error fault => rfl
  | ok report =>
      have hstraight := flippedStand_iff.mp hstand
      rw [cycles_of_coreStep hcore] at hstraight
      have hadvance := Board.advance?_of_straight (reachable_coreStep h) (cycles_lt hcore) hstraight
      have hnoted := NotedBoard.noting?_eq (f := fun board => board.advance? report.cycles)
        (g := fun board => board.advance report.cycles) hadvance
      dsimp only
      rw [hnoted]
      rfl

/-- And a step in which one does not stand on its line exceeds one. -/
theorem step?_of_not_stand (h : c.board.picture.Reachable) (hstand : ¬ c.FlippedStand) :
    c.step? = none := by
  rw [flippedStand_iff] at hstand
  push Not at hstand
  obtain ⟨k, hk, hastray⟩ := hstand
  rw [step?_eq]
  cases hcore : c.core.step.1 with
  | error fault =>
      have hnone : c.cycles = 0 := by
        unfold cycles
        rw [step_eq, hcore]
      omega
  | ok report =>
      rw [cycles_of_coreStep hcore] at hk
      have hadvance := Board.advance?_of_astray (reachable_coreStep h) hk hastray
      unfold NotedBoard.noting?
      dsimp only
      rw [hadvance]
      rfl

/-- With sprites off, nothing can stand astray. -/
theorem flippedStand_of_spritesOff (h : c.board.picture.Reachable)
    (hoff : c.core.step.2.bus.board.picture.spritesOn = false) : c.FlippedStand := by
  intro k _ _ _ hon
  have hkept : (c.pictureAfter k).spritesOn = c.core.step.2.bus.board.picture.spritesOn :=
    Picture.spritesOn_advance (reachable_coreStep h) k
  rw [hkept, hoff] at hon
  cases hon

/-! ### All accesses -/

theorem access?_of_stand (h : c.board.picture.Reachable) (access : Access)
    (hstand : access = .step → c.FlippedStand) : c.access? access = some (c.access access) := by
  cases access with
  | step =>
      unfold access?
      dsimp only
      rw [step?_of_stand h (hstand rfl)]
      rfl
  | press button | release button => rfl
  | read address =>
      unfold access?
      dsimp only
      rw [Board.read?_eq]
      rfl
  | write address value =>
      have hwrite := NotedBoard.noting?_eq (f := fun board => board.write? address value)
        (g := fun board => board.write address value) (c.core.bus.board.write?_eq address value)
      unfold access?
      dsimp only
      rw [hwrite]
      rfl

/-- For every image with a header and a known kind, of whatever length and with whatever size of RAM,
    and after any calls: what is asked next exceeds no bound, and the answer is that without checks,
    as long as the sprites upside down that a step draws stand on their lines. Where one does not,
    the step exceeds a bound. -/
theorem access?_within_bounds {rom : Array UInt8} (settings : Settings)
    (hsize : Cartridge.headerEnd ≤ rom.size)
    (hkind : (Cartridge.bankingFor (rom.getD 0x147 0)).isSome = true) :
    ∃ start notes, powerOn rom settings = (.ok start, notes) ∧ ∀ calls : List Call,
      let c := (start.callAll calls).2
      (∀ access, (access = .step → c.FlippedStand) → c.access? access = some (c.access access)) ∧
        (¬ c.FlippedStand → c.access? .step = none) := by
  obtain ⟨banking, hbanking⟩ := Option.isSome_iff_exists.mp hkind
  obtain ⟨cartridge, notes, hload⟩ := Cartridge.exists_load (Nat.not_lt.mpr hsize) hbanking
  have hstart : powerOn rom settings =
      (.ok ⟨⟨.boot, ⟨Board.powerOn cartridge settings.ramFill, []⟩⟩, settings⟩, notes) := by
    unfold powerOn
    rw [hload]
  refine ⟨_, notes, hstart, fun calls => ?_⟩
  obtain ⟨acts, hboard, -⟩ := exists_acts_callAll
    ⟨⟨.boot, ⟨Board.powerOn cartridge settings.ramFill, []⟩⟩, settings⟩ calls
  have hpicture := Board.reachable_actAll (picture_start hstart) acts
  rw [← hboard] at hpicture
  refine ⟨fun access hstand => access?_of_stand hpicture access hstand, fun hstand => ?_⟩
  unfold access?
  dsimp only
  rw [step?_of_not_stand hpicture hstand]
  rfl

/-- Of a cartridge with NOP at the entry point and without RAM: its first step, and reading and
    writing anywhere. -/
theorem access?_within_bounds_nop : ∃ c notes, powerOn (entryRom 0x00) {} = (.ok c, notes) ∧
    c.access? .step = some (c.access .step) ∧
      (∀ address, c.access? (.read address) = some (.byte (c.board.read address), c)) ∧
      ∀ address value, c.access? (.write address value) = some (.nothing, c.write address value) := by
  obtain ⟨c, notes, h, hcpu, hpicture, henable, hopcode⟩ := powerOn_entryRom 0x00
  have hbyte : (entryRom 0x00).getD 0x147 0 = 0x00 := by
    simp [entryRom, Array.getD, Cartridge.headerEnd]
  have hsize : Cartridge.headerEnd ≤ (entryRom 0x00).size := by simp [entryRom]
  have hkind : (Cartridge.bankingFor ((entryRom 0x00).getD 0x147 0)).isSome = true := by
    rw [hbyte]
    decide
  obtain ⟨start, notes', hstart, hcalls⟩ := access?_within_bounds {} hsize hkind
  obtain ⟨rfl, rfl⟩ : c = start ∧ notes = notes' := by
    rw [h] at hstart
    simpa using hstart
  have hanswers := (hcalls []).1
  refine ⟨c, notes, h, hanswers .step fun _ => ?_, ?_, ?_⟩
  · obtain ⟨⟨cpu, bus⟩, settings⟩ := c
    obtain rfl : cpu = .boot := hcpu
    have hdecode : decode (bus.board.read 0x100) = .complete .nop := by
      rw [show bus.board.read 0x100 = 0x00 from hopcode]
      rfl
    have hcore : Core.step ⟨.boot, bus⟩ = _ :=
      Core.step_complete rfl rfl rfl rfl henable hdecode
    apply flippedStand_of_spritesOff (picture_start h)
    rw [hcore]
    change bus.board.picture.spritesOn = false
    rw [show bus.board.picture = {} from hpicture]
    rfl
  · exact fun address => hanswers (.read address) fun hstep => by cases hstep
  · exact fun address value => hanswers (.write address value) fun hstep => by cases hstep

end Console

end Handheld
