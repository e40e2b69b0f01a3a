/-
Module: Handheld.Proofs.Console.Frame
Purpose: When a frame is completed. The program decides it: whoever switches the display starts the
  count of cycles anew, and a program that keeps switching it never comes to the end of a frame. A
  frame is completed exactly if the display is left alone for long enough once.
Main exports: Console.Reachable, Console.after, Console.clock, Console.Switches, Console.FrameDue,
  Console.coherent_of_reachable, Console.runFrame_ends_iff, Console.switcher_never_ends
-/
import Handheld.Proofs.Console.Display

namespace Handheld

namespace Console

/-- The picture unit. -/
def picture (c : Console) : Picture :=
  c.board.picture

/-- Forget that a frame has been completed. -/
def forgetFrame (c : Console) : Console :=
  c.mapBoard fun b => { b with picture := b.picture.clearFrameReady }

/-- The consoles that can come about: built from an image that is accepted, and stepped, run, reset
    and given key presses in any order. -/
inductive Reachable : Console → Prop where
  | powerOn {rom : Array UInt8} {settings : Settings} {c : Console} {notes : List Note}
      (h : powerOn rom settings = (.ok c, notes)) : Reachable c
  | step {c : Console} (h : Reachable c) : Reachable c.step.2
  | runFrame {c : Console} (h : Reachable c) (limit : Nat) : Reachable (c.runFrame limit).2
  | press {c : Console} (h : Reachable c) (button : Button) : Reachable (c.press button)
  | release {c : Console} (h : Reachable c) (button : Button) : Reachable (c.release button)
  | keyDown {c : Console} (h : Reachable c) (code : UInt32) : Reachable (c.keyDown code)
  | keyUp {c : Console} (h : Reachable c) (code : UInt32) : Reachable (c.keyUp code)
  | reset {c : Console} (h : Reachable c) : Reachable c.reset

/-! ### The clock -/

/-- The console after a number of steps. -/
def after (c : Console) : Nat → Console
  | 0 => c
  | n + 1 => (c.after n).step.2

/-- The cycles of the next step; a fault takes none. -/
def cycles (c : Console) : Nat :=
  match c.step.1 with
  | .ok cycles => cycles
  | .error _ => 0

/-- The cycles of a number of steps. -/
def clock (c : Console) : Nat → Nat
  | 0 => 0
  | n + 1 => c.clock n + (c.after n).cycles

/-- Step number `n` switches the display. -/
def Switches (c : Console) (n : Nat) : Prop :=
  (c.after (n + 1)).picture.lcdOn ≠ (c.after n).picture.lcdOn

/-- What ends a run for a frame: a fault, or that the display is left alone for long enough. -/
inductive FrameDue (c : Console) : Prop where
  | fault {n : Nat} {fault : Fault} (h : (c.after n).step.1 = .error fault)
  /-- From the start on, for what is left of the frame. -/
  | fromStart {n : Nat} (hsteady : ∀ i < n, ¬ c.Switches i)
      (hlong : c.picture.untilFrame ≤ c.clock n)
  /-- From a step on that switches it, for a whole frame. -/
  | fromSwitch {m n : Nat} (hmn : m < n) (hswitch : c.Switches m)
      (hsteady : ∀ i, m < i → i < n → ¬ c.Switches i)
      (hlong : c.clock m + Picture.frameCycles (c.after (m + 1)).picture.lcdOn ≤ c.clock n)

theorem after_succ (c : Console) (n : Nat) : c.after (n + 1) = c.step.2.after n := by
  induction n with
  | zero => rfl
  | succ n ih =>
      have hlast : c.after (n + 1 + 1) = (c.after (n + 1)).step.2 := rfl
      rw [hlast, ih]
      rfl

/-! ### One step -/

theorem step_eq (c : Console) :
    c.step = match c.core.step.1 with
      | .error fault => (.error fault, { c with core := c.core.step.2 })
      | .ok report => (.ok report.cycles,
          { c with core := ⟨c.core.step.2.cpu, c.core.step.2.bus.advance report.cycles⟩ }) := by
  unfold step
  rcases c.core.step with ⟨_ | _, _⟩ <;> rfl

/-- What a step that does not fail does to the picture unit: the processor acts on it, and the clock
    follows. -/
theorem picture_step_of_ok {c : Console} {cycles : Nat} (h : c.step.1 = .ok cycles) :
    c.step.2.picture = (c.core.step.2.bus.board.picture.advance cycles).1 := by
  rw [step_eq] at h ⊢
  cases hcore : c.core.step.1 with
  | error fault =>
      rw [hcore] at h
      cases h
  | ok report =>
      rw [hcore] at h
      obtain rfl : report.cycles = cycles := by simpa using h
      exact Board.picture_advance _ _

theorem picture_step_of_error {c : Console} {fault : Fault} (h : c.step.1 = .error fault) :
    c.step.2.picture = c.core.step.2.bus.board.picture := by
  rw [step_eq] at h ⊢
  cases hcore : c.core.step.1 with
  | error fault => rfl
  | ok report =>
      rw [hcore] at h
      cases h

theorem coherent_coreStep {c : Console} (hu : c.picture.raster.Coherent) :
    c.core.step.2.bus.board.picture.raster.Coherent := by
  rcases c.core.raster_step with hsame | hswitch
  · rw [hsame]
    exact hu
  · rw [hswitch]
    exact hu.switch _

theorem coherent_step {c : Console} (hu : c.picture.raster.Coherent) :
    c.step.2.picture.raster.Coherent := by
  have hcore := coherent_coreStep hu
  cases hstep : c.step.1 with
  | error fault =>
      rw [picture_step_of_error hstep]
      exact hcore
  | ok cycles =>
      rw [picture_step_of_ok hstep, Picture.advance_eq_playAll hcore]
      exact Picture.coherent_playAll hcore _

/-- The cycles that a step has to take to complete a frame: those left of it, or a whole frame's if
    the step switches the display. -/
def needed (c : Console) : Nat :=
  if c.step.2.picture.lcdOn = c.picture.lcdOn then c.picture.untilFrame
  else Picture.frameCycles c.step.2.picture.lcdOn

theorem lcdOn_step {c : Console} {cycles : Nat} (hu : c.picture.raster.Coherent)
    (h : c.step.1 = .ok cycles) :
    c.step.2.picture.lcdOn = c.core.step.2.bus.board.picture.lcdOn := by
  rw [picture_step_of_ok h]
  exact (Picture.pace_advance (coherent_coreStep hu) cycles).1

/-- Once the processor has acted, what the step needs is what is left of the frame. -/
theorem untilFrame_coreStep {c : Console} {cycles : Nat} (hu : c.picture.raster.Coherent)
    (h : c.step.1 = .ok cycles) : c.core.step.2.bus.board.picture.untilFrame = c.needed := by
  unfold needed
  rw [lcdOn_step hu h]
  rcases c.core.raster_step with hsame | hswitch
  · have hon : c.core.step.2.bus.board.picture.lcdOn = c.picture.lcdOn :=
      congrArg Picture.Raster.lit hsame
    rw [if_pos hon]
    exact Picture.untilFrame_congr hsame
  · have hon : c.core.step.2.bus.board.picture.lcdOn = !c.picture.lcdOn :=
      congrArg Picture.Raster.lit hswitch
    rw [if_neg (by simp [hon]), hon]
    exact Picture.untilFrame_of_switch hswitch

theorem frameReady_coreStep (c : Console) :
    c.core.step.2.bus.board.picture.frameReady = c.picture.frameReady := by
  rcases c.core.raster_step with hsame | hswitch
  · exact congrArg Picture.Raster.frameReady hsame
  · exact congrArg Picture.Raster.frameReady hswitch

/-- A step takes its cycles off what was needed. -/
theorem pace_step {c : Console} {cycles : Nat} (hu : c.picture.raster.Coherent)
    (h : c.step.1 = .ok cycles) :
    (c.step.2.picture.frameReady = true ↔ c.picture.frameReady = true ∨ c.needed ≤ cycles) ∧
      (cycles < c.needed → c.step.2.picture.untilFrame + cycles = c.needed) := by
  obtain ⟨-, hready, hless⟩ := Picture.pace_advance (coherent_coreStep hu) cycles
  rw [← picture_step_of_ok h, untilFrame_coreStep hu h] at hready hless
  rw [frameReady_coreStep] at hready
  exact ⟨hready, hless⟩

/-! ### Steps in a row -/

theorem clock_succ {c : Console} {n cycles : Nat} (h : (c.after n).step.1 = .ok cycles) :
    c.clock (n + 1) = c.clock n + cycles := by
  have hcycles : (c.after n).cycles = cycles := by
    unfold Console.cycles
    rw [h]
  rw [← hcycles]
  rfl

theorem needed_of_switches {c : Console} {n : Nat} (h : c.Switches n) :
    (c.after n).needed = Picture.frameCycles (c.after (n + 1)).picture.lcdOn :=
  if_neg h

theorem needed_of_not_switches {c : Console} {n : Nat} (h : ¬ c.Switches n) :
    (c.after n).needed = (c.after n).picture.untilFrame :=
  if_pos (not_not.mp h)

/-! ### Runs for a frame -/

/-- The first `n` steps neither fail nor complete a frame. -/
def Waits (c : Console) (n : Nat) : Prop :=
  ∀ i < n, (∃ cycles, (c.after i).step.1 = .ok cycles) ∧
    (c.after (i + 1)).picture.frameReady = false

theorem waits_succ (c : Console) (n : Nat) : c.Waits (n + 1) ↔
    ((∃ cycles, c.step.1 = .ok cycles) ∧ c.step.2.picture.frameReady = false) ∧
      c.step.2.Waits n := by
  constructor
  · intro h
    refine ⟨h 0 (Nat.succ_pos n), ?_⟩
    intro i hi
    rw [← after_succ, ← after_succ]
    exact h (i + 1) (Nat.succ_lt_succ hi)
  · rintro ⟨hfirst, hrest⟩ i hi
    cases i with
    | zero => exact hfirst
    | succ i =>
        rw [after_succ, after_succ]
        exact hrest i (Nat.lt_of_succ_lt_succ hi)

/-- A run that is not finished is one that still waits. -/
theorem stepToFrame_unfinished_iff (limit : Nat) (c : Console) :
    (stepToFrame limit c).1 = .unfinished ↔ c.Waits limit := by
  induction limit generalizing c with
  | zero => exact ⟨fun _ i hi => absurd hi (Nat.not_lt_zero i), fun _ => rfl⟩
  | succ limit ih =>
      rw [waits_succ]
      unfold stepToFrame
      cases hstep : c.step with
      | mk result next =>
          cases result with
          | error fault => simp
          | ok cycles =>
              dsimp only
              cases hready : next.picture.frameReady with
              | false =>
                  have hwait : ¬ next.core.bus.board.picture.frameReady = true := by
                    rw [Bool.not_eq_true]
                    exact hready
                  rw [if_neg hwait, ih]
                  simp
              | true =>
                  have hdone : next.core.bus.board.picture.frameReady = true := hready
                  rw [if_pos hdone]
                  simp

/-- While a run waits, its clock has not made up for what was left at the start, nor, behind a step
    that switched the display, for a whole frame. -/
theorem clock_of_waits {c : Console} {n : Nat} (hu : c.picture.raster.Coherent)
    (hstart : c.picture.frameReady = false) (h : c.Waits n) :
    (c.after n).picture.raster.Coherent ∧ (c.after n).picture.frameReady = false ∧
      ((∀ i < n, ¬ c.Switches i) →
        (c.after n).picture.untilFrame + c.clock n = c.picture.untilFrame) ∧
      ∀ m < n, c.Switches m → (∀ i, m < i → i < n → ¬ c.Switches i) →
        (c.after n).picture.untilFrame + c.clock n =
          c.clock m + Picture.frameCycles (c.after (m + 1)).picture.lcdOn := by
  induction n with
  | zero =>
      refine ⟨hu, hstart, fun _ => rfl, ?_⟩
      intro m hm
      exact absurd hm (Nat.not_lt_zero m)
  | succ n ih =>
      obtain ⟨hcoherent, hready, hsteady, hswitched⟩ := ih fun i hi => h i (Nat.lt_succ_of_lt hi)
      obtain ⟨⟨cycles, hstep⟩, hready'⟩ := h n (Nat.lt_succ_self n)
      obtain ⟨hpace, hless⟩ := pace_step hcoherent hstep
      have hlt : cycles < (c.after n).needed := by
        by_contra hge
        have hset := hpace.mpr (.inr (by omega))
        have hnext : (c.after n).step.2.picture.frameReady = false := hready'
        rw [hnext] at hset
        cases hset
      have hmore : (c.after (n + 1)).picture.untilFrame + cycles = (c.after n).needed := hless hlt
      have hclock := clock_succ hstep
      refine ⟨coherent_step hcoherent, hready', ?_, ?_⟩
      · intro hnone
        have hkeep := needed_of_not_switches (hnone n (Nat.lt_succ_self n))
        have hbefore := hsteady fun i hi => hnone i (Nat.lt_succ_of_lt hi)
        omega
      · intro m hm hswitch hnone
        by_cases hmn : m = n
        · subst hmn
          have hanew := needed_of_switches hswitch
          omega
        · have hlt' : m < n := by omega
          have hkeep := needed_of_not_switches (hnone n hlt' (Nat.lt_succ_self n))
          have hbefore := hswitched m hlt' hswitch fun i hi hi' =>
            hnone i hi (Nat.lt_succ_of_lt hi')
          omega

/-- Below any bound there is a last switching step, if there is one at all. -/
theorem last_switch (c : Console) (n : Nat) :
    (∀ i < n, ¬ c.Switches i) ∨
      ∃ m < n, c.Switches m ∧ ∀ i, m < i → i < n → ¬ c.Switches i := by
  induction n with
  | zero => exact .inl fun i hi => absurd hi (Nat.not_lt_zero i)
  | succ n ih =>
      by_cases hswitch : c.Switches n
      · exact .inr ⟨n, Nat.lt_succ_self n, hswitch, fun i hi hi' => absurd hi (by omega)⟩
      · rcases ih with hnone | ⟨m, hm, hm', hnone⟩
        · left
          intro i hi
          rcases Nat.lt_succ_iff_lt_or_eq.mp hi with hlt | rfl
          · exact hnone i hlt
          · exact hswitch
        · right
          refine ⟨m, Nat.lt_succ_of_lt hm, hm', ?_⟩
          intro i hi hi'
          rcases Nat.lt_succ_iff_lt_or_eq.mp hi' with hlt | rfl
          · exact hnone i hi hlt
          · exact hswitch

/-- A run that does not wait any more has come to a fault, or the display was left alone for long
    enough. -/
theorem frameDue_of_not_waits {c : Console} {n : Nat} (hu : c.picture.raster.Coherent)
    (hstart : c.picture.frameReady = false) (hwaits : c.Waits n) (hends : ¬ c.Waits (n + 1)) :
    c.FrameDue := by
  obtain ⟨hcoherent, hready, hsteady, hswitched⟩ := clock_of_waits hu hstart hwaits
  cases hstep : (c.after n).step.1 with
  | error fault => exact .fault hstep
  | ok cycles =>
      obtain ⟨hpace, -⟩ := pace_step hcoherent hstep
      have hset : (c.after n).step.2.picture.frameReady = true := by
        by_contra hunset
        apply hends
        intro i hi
        rcases Nat.lt_succ_iff_lt_or_eq.mp hi with hlt | rfl
        · exact hwaits i hlt
        · exact ⟨⟨cycles, hstep⟩, (Bool.not_eq_true _).mp hunset⟩
      have hlong : (c.after n).needed ≤ cycles := by
        rcases hpace.mp hset with hbefore | hlong
        · rw [hready] at hbefore
          cases hbefore
        · exact hlong
      have hclock := clock_succ hstep
      by_cases hswitch : c.Switches n
      · have hanew := needed_of_switches hswitch
        exact .fromSwitch (Nat.lt_add_one n) hswitch (fun i hi hi' => absurd hi (by omega))
          (by omega)
      · have hkeep := needed_of_not_switches hswitch
        rcases c.last_switch (n + 1) with hnone | ⟨m, hm, hm', hnone⟩
        · have hleft := hsteady fun i hi => hnone i (Nat.lt_succ_of_lt hi)
          exact .fromStart hnone (by omega)
        · have hmn : m < n := by
            rcases Nat.lt_succ_iff_lt_or_eq.mp hm with hlt | rfl
            · exact hlt
            · exact absurd hm' hswitch
          have hleft := hswitched m hmn hm' fun i hi hi' => hnone i hi (Nat.lt_succ_of_lt hi')
          exact .fromSwitch hm hm' hnone (by omega)

/-- A run that waits for ever has come to no fault, and the display was never left alone for long
    enough. -/
theorem not_frameDue_of_waits {c : Console} (hu : c.picture.raster.Coherent)
    (hstart : c.picture.frameReady = false) (hwaits : ∀ n, c.Waits n) : ¬ c.FrameDue := by
  intro hdue
  cases hdue with
  | @fault n fault h =>
      obtain ⟨⟨cycles, hok⟩, -⟩ := hwaits (n + 1) n (Nat.lt_succ_self n)
      rw [h] at hok
      cases hok
  | @fromStart n hsteady hlong =>
      obtain ⟨hcoherent, -, hleft, -⟩ := clock_of_waits hu hstart (hwaits n)
      have hpos := Picture.untilFrame_pos hcoherent
      have hsum := hleft hsteady
      omega
  | @fromSwitch m n hmn hswitch hsteady hlong =>
      obtain ⟨hcoherent, -, -, hleft⟩ := clock_of_waits hu hstart (hwaits n)
      have hpos := Picture.untilFrame_pos hcoherent
      have hsum := hleft m hmn hswitch hsteady
      omega

/-! ### Reachable consoles -/

theorem picture_press (c : Console) (button : Button) : (c.press button).picture = c.picture := by
  have hboard : (c.board.press button).1.picture = c.board.picture := by
    obtain ⟨joypad, interrupts, hpressed⟩ := c.board.press_units button
    rw [hpressed]
  exact hboard

theorem picture_powerOn (cartridge : Cartridge) (fill : RamFill) :
    (Board.powerOn cartridge fill).picture = {} := by
  unfold Board.powerOn
  rcases fill.bytes wramSize hramSize with ⟨wram, hram⟩
  rfl

theorem steady_powerOn (cartridge : Cartridge) (fill : RamFill) :
    (Board.powerOn cartridge fill).steady = (cartridge, 0) := by
  unfold Board.powerOn
  rcases fill.bytes wramSize hramSize with ⟨wram, hram⟩
  rfl

theorem coherent_forgetFrame {c : Console} (hu : c.picture.raster.Coherent) :
    c.forgetFrame.picture.raster.Coherent :=
  ⟨hu.placed, hu.base_le, hu.le_max, hu.offCycles_lt⟩

theorem coherent_stepToFrame {c : Console} (hu : c.picture.raster.Coherent) (limit : Nat) :
    (stepToFrame limit c).2.picture.raster.Coherent := by
  induction limit generalizing c with
  | zero => exact hu
  | succ limit ih =>
      have hnext := coherent_step hu
      unfold stepToFrame
      cases hstep : c.step with
      | mk result next =>
          rw [hstep] at hnext
          cases result with
          | error fault => exact hnext
          | ok cycles =>
              dsimp only
              split
              · exact coherent_forgetFrame hnext
              · exact ih hnext

/-- The invariant of the raster holds on every console that can come about. -/
theorem coherent_of_reachable {c : Console} (h : c.Reachable) : c.picture.raster.Coherent := by
  induction h with
  | @powerOn rom settings c notes h =>
      have hpicture : c.picture = {} := by
        unfold Console.powerOn at h
        split at h
        · cases h
        · cases h
          exact picture_powerOn _ _
      rw [hpicture]
      exact Picture.coherent_powerOn
  | step h ih => exact coherent_step ih
  | runFrame h limit ih => exact coherent_stepToFrame (coherent_forgetFrame ih) limit
  | press h button ih => rwa [picture_press]
  | release h button ih => exact ih
  | @keyDown c h code ih =>
      unfold keyDown
      split
      · rwa [picture_press]
      · exact ih
  | @keyUp c h code ih =>
      unfold keyUp
      split <;> exact ih
  | @reset c h ih =>
      have hpicture : c.reset.picture = {} := picture_powerOn _ _
      rw [hpicture]
      exact Picture.coherent_powerOn

/-- A run for a frame ends, if it is given enough steps, exactly if it comes to a fault or the
    display is left alone for long enough once: for what is left of the frame, or for a whole one
    after it has been switched. -/
theorem runFrame_ends_iff {c : Console} (h : c.Reachable) :
    (∃ limit, (c.runFrame limit).1 ≠ .unfinished) ↔ c.forgetFrame.FrameDue := by
  have hu := coherent_forgetFrame (coherent_of_reachable h)
  have hstart : c.forgetFrame.picture.frameReady = false := rfl
  have hwaits : ∀ limit, (c.runFrame limit).1 = .unfinished ↔ c.forgetFrame.Waits limit :=
    fun limit => stepToFrame_unfinished_iff limit c.forgetFrame
  constructor
  · rintro ⟨limit, hends⟩
    rw [Ne, hwaits] at hends
    induction limit with
    | zero => exact absurd (fun i hi => absurd hi (Nat.not_lt_zero i)) hends
    | succ limit ih =>
        by_cases hearlier : c.forgetFrame.Waits limit
        · exact frameDue_of_not_waits hu hstart hearlier hends
        · exact ih hearlier
  · intro hdue
    by_contra hnever
    apply not_frameDue_of_waits hu hstart _ hdue
    intro n
    rw [← hwaits]
    by_contra hends
    exact hnever ⟨n, hends⟩

/-! ### A program that never lets a frame end -/

/-- A program at the entry point that flips the display switch for ever: store A to LCDC, complement
    A, and go back. -/
def switcherByte : Nat → UInt8
  | 0x100 => 0xE0
  | 0x101 => 0x40
  | 0x102 => 0x2F
  | 0x103 => 0x18
  | 0x104 => 0xFB
  | _ => 0

/-- The image of a cartridge with that program and no more than a header. -/
def switcherRom : Array UInt8 :=
  Array.ofFn fun i : Fin Cartridge.headerEnd => switcherByte i

theorem getD_switcherRom {i : Nat} (h : i < Cartridge.headerEnd) (other : UInt8) :
    switcherRom.getD i other = switcherByte i := by
  simp [switcherRom, Array.getD, h]

/-- An image of sufficient size that asks for no banking is accepted. -/
theorem load_of_plain {rom : Array UInt8} (hsize : ¬ rom.size < Cartridge.headerEnd)
    (hkind : rom.getD 0x147 0 = 0) :
    ∃ header ram notes, Cartridge.load rom = (.ok ⟨header, rom, ram, .plain⟩, notes) := by
  have hheader : Cartridge.Header.parse rom = .ok (.ofImage rom) := if_neg hsize
  have hbanking : Cartridge.bankingFor (Cartridge.Header.ofImage rom).kind = some .plain := by
    have hfirst : (Cartridge.Header.ofImage rom).kind = 0 := hkind
    rw [hfirst]
    decide
  unfold Cartridge.load
  rw [hheader]
  dsimp only
  rw [hbanking]
  exact ⟨_, _, _, rfl⟩

/-- Such an image makes a console as the boot program leaves it. -/
theorem powerOn_of_plain {rom : Array UInt8} (hsize : ¬ rom.size < Cartridge.headerEnd)
    (hkind : rom.getD 0x147 0 = 0) :
    ∃ c notes, powerOn rom {} = (.ok c, notes) ∧ c.cpu = .boot ∧ c.picture = {} ∧
      c.board.cartridge.rom = rom ∧ c.board.cartridge.banking = .plain ∧
      c.board.interrupts.enable = 0 := by
  obtain ⟨header, ram, notes, hload⟩ := load_of_plain hsize hkind
  -- the bytes with which the RAM is filled do not matter, so the board stays closed
  obtain ⟨board, hboard⟩ :
      ∃ board, board = Board.powerOn ⟨header, rom, ram, .plain⟩ .standard := ⟨_, rfl⟩
  have hpicture : board.picture = {} := hboard ▸ picture_powerOn _ _
  have hsteady : board.steady = (⟨header, rom, ram, .plain⟩, 0) := hboard ▸ steady_powerOn _ _
  have hcartridge : board.cartridge = ⟨header, rom, ram, .plain⟩ := congrArg Prod.fst hsteady
  refine ⟨⟨⟨.boot, ⟨board, []⟩⟩, {}⟩, notes, ?_, rfl, hpicture, ?_, ?_, congrArg Prod.snd hsteady⟩
  · rw [powerOn, hload, hboard]
  · change board.cartridge.rom = rom
    rw [hcartridge]
  · change board.cartridge.banking = .plain
    rw [hcartridge]

/-- Without a controller the image is seen as it is. -/
theorem read_plain {c : Console} (hbanking : c.board.cartridge.banking = .plain)
    {address : UInt16} (hlow : address.toNat < 0x8000) :
    c.board.read address = c.board.cartridge.rom.getD address.toNat Cartridge.openByte := by
  have htarget : Target.ofAddress address = .rom := if_pos hlow
  unfold Board.read
  rw [htarget]
  simp only [Board.readTarget, Cartridge.readRom, hbanking, Cartridge.Banking.romOffset]

/-- The image of a cartridge with an opcode at the entry point and no more than a header. -/
def entryRom (opcode : UInt8) : Array UInt8 :=
  Array.ofFn fun i : Fin Cartridge.headerEnd => if i.val = 0x100 then opcode else 0

theorem powerOn_entryRom (opcode : UInt8) :
    ∃ c notes, powerOn (entryRom opcode) {} = (.ok c, notes) ∧ c.cpu = .boot ∧ c.picture = {} ∧
      c.board.interrupts.enable = 0 ∧ c.board.read 0x100 = opcode := by
  have hbyte : ∀ {i : Nat} {other : UInt8}, i < Cartridge.headerEnd →
      (entryRom opcode).getD i other = if i = 0x100 then opcode else 0 := by
    intro i other hi
    simp [entryRom, Array.getD, hi]
  have hsize : ¬ (entryRom opcode).size < Cartridge.headerEnd := by simp [entryRom]
  obtain ⟨c, notes, h, hcpu, hpicture, hrom, hbanking, henable⟩ :=
    powerOn_of_plain hsize (hbyte (by decide))
  refine ⟨c, notes, h, hcpu, hpicture, henable, ?_⟩
  have hlow : UInt16.toNat 0x100 < 0x8000 := by decide
  rw [read_plain hbanking hlow, hrom]
  exact hbyte (by decide)

/-- A processor that neither waits for anything nor has locked up. -/
structure Busy (p : Processor) : Prop where
  fault : p.fault = none
  stopped : p.stopped = false
  halted : p.halted = false
  haltBug : p.haltBug = false

theorem Busy.withRegs {p : Processor} (h : Busy p) (regs : Registers) :
    Busy { p with regs } :=
  ⟨h.fault, h.stopped, h.halted, h.haltBug⟩

theorem Busy.settleEnable {p : Processor} (h : Busy p) : Busy p.settleEnable := by
  unfold Processor.settleEnable
  split
  · exact ⟨h.fault, h.stopped, h.halted, h.haltBug⟩
  · split
    · exact ⟨h.fault, h.stopped, h.halted, h.haltBug⟩
    · exact h

/-- What stays so while the program runs. -/
structure Flipping (c : Console) : Prop where
  rom : c.board.cartridge.rom = switcherRom
  banking : c.board.cartridge.banking = .plain
  enable : c.board.interrupts.enable = 0
  busy : Busy c.cpu
  coherent : c.picture.raster.Coherent
  waiting : c.picture.frameReady = false

/-- The switch that A asks for. -/
def asked (c : Console) : Bool :=
  c.cpu.regs.a &&& 0x80 != 0

theorem asks_complement (a : UInt8) : (~~~a &&& 0x80 != 0) = !(a &&& 0x80 != 0) := by
  have hbits : ∀ bits : BitVec 8, (~~~(UInt8.ofBitVec bits) &&& 0x80 != 0) =
      !(UInt8.ofBitVec bits &&& 0x80 != 0) := by
    decide
  exact hbits a.toBitVec

/-- The three places of the program. What A asks for is not what the display does, except between
    the store and the complement, and more is left of the frame than the rest of the round takes. -/
inductive FlipPhase (c : Console) : Prop where
  | store (hpc : c.cpu.regs.pc = 0x100) (hasked : c.asked = !c.picture.lcdOn)
  | complement (hpc : c.cpu.regs.pc = 0x102) (hasked : c.asked = c.picture.lcdOn)
      (hlong : 16 < c.picture.untilFrame)
  | back (hpc : c.cpu.regs.pc = 0x103) (hasked : c.asked = !c.picture.lcdOn)
      (hlong : 12 < c.picture.untilFrame)

theorem Flipping.read {c : Console} (h : c.Flipping) {address : UInt16}
    (hlow : address.toNat < Cartridge.headerEnd) :
    c.board.read address = switcherByte address.toNat := by
  have hrom : address.toNat < 0x8000 := by
    simp only [Cartridge.headerEnd] at hlow
    omega
  rw [read_plain h.banking hrom, h.rom]
  exact getD_switcherRom hlow _

theorem Flipping.coreStep_complete {c : Console} (h : c.Flipping) {opcode : UInt8} {instr : Instr}
    (hopcode : c.board.read c.cpu.regs.pc = opcode) (hdecode : decode opcode = .complete instr) :
    c.core.step = Core.finish (.ok instr) { c.core with cpu.regs.pc := c.cpu.regs.pc + 1 } := by
  subst hopcode
  exact Core.step_complete h.busy.fault h.busy.stopped h.busy.halted h.busy.haltBug h.enable hdecode

theorem Flipping.coreStep_withByte {c : Console} (h : c.Flipping) {opcode value : UInt8}
    {instr : UInt8 → Instr} (hopcode : c.board.read c.cpu.regs.pc = opcode)
    (hvalue : c.board.read (c.cpu.regs.pc + 1) = value) (hdecode : decode opcode = .withByte instr) :
    c.core.step = Core.finish (.ok (instr value))
      { c.core with cpu.regs.pc := c.cpu.regs.pc + 1 + 1 } := by
  subst hopcode hvalue
  exact Core.step_withByte h.busy.fault h.busy.stopped h.busy.halted h.busy.haltBug h.enable hdecode

/-- An instruction that takes less than what is left of the frame once it has acted. -/
theorem Flipping.step {c : Console} (h : c.Flipping) {instr : Instr} {m acted : Core NotedBoard}
    {cycles : Nat} (hstep : c.core.step = Core.finish (.ok instr) m)
    (hacted : m.execute instr = (cycles, acted)) (hbusy : Busy acted.cpu)
    (hsteady : acted.bus.board.steady = c.board.steady)
    (hshort : cycles < acted.bus.board.picture.untilFrame) :
    c.step.1 = .ok cycles ∧ c.step.2.Flipping ∧ c.step.2.cpu.regs = acted.cpu.regs ∧
      c.step.2.picture.lcdOn = acted.bus.board.picture.lcdOn ∧
      c.step.2.picture.untilFrame + cycles = acted.bus.board.picture.untilFrame := by
  have hcore : c.core.step = (.ok ⟨cycles, .executed instr⟩,
      { acted with cpu := acted.cpu.settleEnable }) := by
    rw [hstep, Core.finish, hacted]
  have hresult : c.step = (.ok cycles,
      { c with core := ⟨acted.cpu.settleEnable, acted.bus.advance cycles⟩ }) := by
    rw [step_eq, hcore]
  have hok : c.step.1 = .ok cycles := congrArg Prod.fst hresult
  have hboard : c.step.2.board = (acted.bus.board.advance cycles).1 :=
    congrArg (fun r => r.2.board) hresult
  have hcpu : c.step.2.cpu = acted.cpu.settleEnable := congrArg (fun r => r.2.cpu) hresult
  have hkept : c.step.2.board.steady = c.board.steady := by
    rw [hboard, Board.steady_advance, hsteady]
  have hcartridge : c.step.2.board.cartridge = c.board.cartridge := congrArg Prod.fst hkept
  have henable : c.step.2.board.interrupts.enable = c.board.interrupts.enable :=
    congrArg Prod.snd hkept
  have hlit := lcdOn_step h.coherent hok
  have hneeded := untilFrame_coreStep h.coherent hok
  rw [hcore] at hlit hneeded
  dsimp only at hneeded
  obtain ⟨hready, hless⟩ := pace_step h.coherent hok
  rw [← hneeded] at hready hless
  refine ⟨hok, ?_, ?_, hlit, hless hshort⟩
  · constructor
    · rw [hcartridge]
      exact h.rom
    · rw [hcartridge]
      exact h.banking
    · rw [henable]
      exact h.enable
    · rw [hcpu]
      exact hbusy.settleEnable
    · exact coherent_step h.coherent
    · by_contra hset
      rcases hready.mp ((Bool.not_eq_false _).mp hset) with hbefore | hlong
      · rw [h.waiting] at hbefore
        cases hbefore
      · omega
  · rw [hcpu, Processor.regs_settleEnable]

/-- The store switches the display, and a whole frame is left. -/
theorem Flipping.step_store {c : Console} (h : c.Flipping) (hpc : c.cpu.regs.pc = 0x100)
    (hasked : c.asked = !c.picture.lcdOn) :
    (∃ cycles, c.step.1 = .ok cycles) ∧ c.step.2.Flipping ∧ c.step.2.FlipPhase := by
  have hopcode : c.board.read c.cpu.regs.pc = 0xE0 := by
    rw [hpc]
    exact h.read (by decide)
  have hvalue : c.board.read (c.cpu.regs.pc + 1) = 0x40 := by
    rw [hpc]
    exact h.read (by decide)
  have hstep := h.coreStep_withByte hopcode hvalue rfl
  have hplace : 0xFF00 ||| UInt8.toUInt16 0x40 = lcdcAddress := by decide
  have hacted : Core.execute { c.core with cpu.regs.pc := c.cpu.regs.pc + 1 + 1 }
      (.storeA (.high 0x40)) =
        (12, ⟨{ c.cpu with regs.pc := c.cpu.regs.pc + 1 + 1 },
          Bus.write c.core.bus lcdcAddress c.cpu.regs.a⟩) := by
    rw [← hplace]
    rfl
  have hboard : (Bus.write c.core.bus lcdcAddress c.cpu.regs.a).board =
      (c.board.writePicture .lcdc c.cpu.regs.a).1 := by
    rw [NotedBoard.board_write, Board.write_lcdc]
    rfl
  have hraster : (Bus.write c.core.bus lcdcAddress c.cpu.regs.a).board.picture.raster =
      c.picture.raster.switch c.asked := by
    rw [hboard, Board.picture_writePicture, Picture.write, Picture.raster_writeLcdc, if_neg]
    · rfl
    · intro hsame
      have hkept : c.picture.lcdOn = c.asked := hsame
      rw [hasked] at hkept
      simp at hkept
  have hlong : 65664 ≤ Picture.frameCycles c.asked := by
    unfold Picture.frameCycles
    split <;> decide
  have hleft := Picture.untilFrame_of_switch hraster
  obtain ⟨hok, hflipping, hregs, hlit, hmore⟩ := h.step hstep hacted (h.busy.withRegs _)
    (by rw [hboard, Board.steady_writePicture]) (by rw [hleft]; omega)
  have hon : c.step.2.picture.lcdOn = c.asked := hlit.trans (congrArg Picture.Raster.lit hraster)
  refine ⟨⟨12, hok⟩, hflipping, .complement ?_ ?_ ?_⟩
  · rw [hregs]
    change c.cpu.regs.pc + 1 + 1 = 0x102
    rw [hpc]
    decide
  · rw [hon]
    unfold asked
    rw [hregs]
  · dsimp only at hmore
    omega

/-- The complement of A asks for the other switch. -/
theorem Flipping.step_complement {c : Console} (h : c.Flipping) (hpc : c.cpu.regs.pc = 0x102)
    (hasked : c.asked = c.picture.lcdOn) (hlong : 16 < c.picture.untilFrame) :
    (∃ cycles, c.step.1 = .ok cycles) ∧ c.step.2.Flipping ∧ c.step.2.FlipPhase := by
  have hopcode : c.board.read c.cpu.regs.pc = 0x2F := by
    rw [hpc]
    exact h.read (by decide)
  have hstep := h.coreStep_complete hopcode rfl
  have hacted : ∃ regs : Registers, regs.pc = c.cpu.regs.pc + 1 ∧ regs.a = ~~~c.cpu.regs.a ∧
      Core.execute { c.core with cpu.regs.pc := c.cpu.regs.pc + 1 } .complement =
        (4, ⟨{ c.cpu with regs }, c.core.bus⟩) :=
    ⟨_, rfl, rfl, rfl⟩
  obtain ⟨regs, hpc', ha, hacted⟩ := hacted
  have hshort : 4 < c.picture.untilFrame := by omega
  obtain ⟨hok, hflipping, hregs, hlit, hmore⟩ :=
    h.step hstep hacted (h.busy.withRegs regs) rfl hshort
  have hlit' : c.step.2.picture.lcdOn = c.picture.lcdOn := hlit
  have hmore' : c.step.2.picture.untilFrame + 4 = c.picture.untilFrame := hmore
  refine ⟨⟨4, hok⟩, hflipping, .back ?_ ?_ (by omega)⟩
  · rw [hregs]
    change regs.pc = 0x103
    rw [hpc', hpc]
    decide
  · unfold asked
    rw [hlit', ← hasked, hregs]
    change (regs.a &&& 0x80 != 0) = !(c.cpu.regs.a &&& 0x80 != 0)
    rw [ha, asks_complement]

/-- The jump goes back to the store. -/
theorem Flipping.step_back {c : Console} (h : c.Flipping) (hpc : c.cpu.regs.pc = 0x103)
    (hasked : c.asked = !c.picture.lcdOn) (hlong : 12 < c.picture.untilFrame) :
    (∃ cycles, c.step.1 = .ok cycles) ∧ c.step.2.Flipping ∧ c.step.2.FlipPhase := by
  have hopcode : c.board.read c.cpu.regs.pc = 0x18 := by
    rw [hpc]
    exact h.read (by decide)
  have hvalue : c.board.read (c.cpu.regs.pc + 1) = 0xFB := by
    rw [hpc]
    exact h.read (by decide)
  have hstep := h.coreStep_withByte hopcode hvalue rfl
  -- the target gets a name, so that nothing tries to add it up
  obtain ⟨target, htarget⟩ : ∃ target, c.cpu.regs.pc + 1 + 1 + signExtend 0xFB = target := ⟨_, rfl⟩
  have hacted : Core.execute { c.core with cpu.regs.pc := c.cpu.regs.pc + 1 + 1 }
      (.jumpRelative none 0xFB) = (12, { c.core with cpu.regs.pc := target }) := by
    rw [← htarget]
    rfl
  obtain ⟨hok, hflipping, hregs, hlit, -⟩ :=
    h.step hstep hacted (h.busy.withRegs _) rfl hlong
  have hlit' : c.step.2.picture.lcdOn = c.picture.lcdOn := hlit
  have hpc' : c.step.2.cpu.regs.pc = target := congrArg Registers.pc hregs
  have ha : c.step.2.cpu.regs.a = c.cpu.regs.a := by
    rw [hregs]
    rfl
  refine ⟨⟨12, hok⟩, hflipping, .store ?_ ?_⟩
  · rw [hpc', ← htarget, hpc]
    decide
  · rw [hlit', ← hasked]
    unfold asked
    rw [ha]

/-- No step of the program completes a frame. -/
theorem Flipping.step_flip {c : Console} (h : c.Flipping) (hphase : c.FlipPhase) :
    (∃ cycles, c.step.1 = .ok cycles) ∧ c.step.2.Flipping ∧ c.step.2.FlipPhase := by
  cases hphase with
  | store hpc hasked => exact h.step_store hpc hasked
  | complement hpc hasked hlong => exact h.step_complement hpc hasked hlong
  | back hpc hasked hlong => exact h.step_back hpc hasked hlong

theorem Flipping.after {c : Console} (h : c.Flipping) (hphase : c.FlipPhase) (n : Nat) :
    (c.after n).Flipping ∧ (c.after n).FlipPhase := by
  induction n with
  | zero => exact ⟨h, hphase⟩
  | succ n ih =>
      obtain ⟨-, hnext⟩ := ih.1.step_flip ih.2
      exact hnext

theorem Flipping.waits {c : Console} (h : c.Flipping) (hphase : c.FlipPhase) (n : Nat) :
    c.Waits n := by
  intro i _
  obtain ⟨hflipping, hphase⟩ := h.after hphase i
  obtain ⟨hok, hnext, -⟩ := hflipping.step_flip hphase
  exact ⟨hok, hnext.waiting⟩

/-- A console with that program in it can be built. -/
theorem powerOn_switcherRom : ∃ c notes, powerOn switcherRom {} = (.ok c, notes) ∧
    c.forgetFrame.Flipping ∧ c.forgetFrame.FlipPhase := by
  have hsize : ¬ switcherRom.size < Cartridge.headerEnd := by simp [switcherRom]
  obtain ⟨c, notes, h, hcpu, hpicture, hrom, hbanking, henable⟩ :=
    powerOn_of_plain hsize (getD_switcherRom (by decide) 0)
  have hcpu' : c.forgetFrame.cpu = .boot := hcpu
  have hlit : c.forgetFrame.picture.lcdOn = true := by
    change c.picture.lcdOn = true
    rw [hpicture]
    rfl
  refine ⟨c, notes, h, ⟨hrom, hbanking, henable, ?_, ?_, rfl⟩, ?_⟩
  · rw [hcpu']
    exact ⟨rfl, rfl, rfl, rfl⟩
  · apply coherent_forgetFrame
    rw [hpicture]
    exact Picture.coherent_powerOn
  · have hoff : ((0x01 : UInt8) &&& 0x80 != 0) = false := by decide
    refine .store ?_ ?_
    · rw [hcpu']
      rfl
    · unfold asked
      rw [hcpu', hlit]
      exact hoff

/-- A program that keeps switching the display never completes a frame, however long it runs. -/
theorem switcher_never_ends : ∃ c notes, powerOn switcherRom {} = (.ok c, notes) ∧
    ∀ limit, (c.runFrame limit).1 = .unfinished := by
  obtain ⟨c, notes, h, hflipping, hphase⟩ := powerOn_switcherRom
  refine ⟨c, notes, h, ?_⟩
  intro limit
  exact (stepToFrame_unfinished_iff limit c.forgetFrame).mpr (hflipping.waits hphase limit)

/-- Of that program, both sides of the theorem are false. -/
theorem runFrame_ends_iff_switcher : ∃ c notes, powerOn switcherRom {} = (.ok c, notes) ∧
    ((∃ limit, (c.runFrame limit).1 ≠ .unfinished) ↔ c.forgetFrame.FrameDue) ∧
      ¬ c.forgetFrame.FrameDue := by
  obtain ⟨c, notes, h, hflipping, hphase⟩ := powerOn_switcherRom
  exact ⟨c, notes, h, runFrame_ends_iff (.powerOn h),
    not_frameDue_of_waits hflipping.coherent hflipping.waiting (hflipping.waits hphase)⟩

end Console

end Handheld
