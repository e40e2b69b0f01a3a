/-
Module: Handheld.Proofs.Console.OneClock
Purpose: One clock for all. The divider of the timer and the raster both go on by exactly the cycles
  with which the steps answer, whatever the program does and whatever is done with the buttons, so
  that the two never drift apart. Only a write to the divider clears it, and only switching the
  display moves the raster.
Main exports: dividerAddress, Board.divider_actAll, Console.WritesDivider, Console.stepsAmong,
  Console.Passes, Console.passes_performAll, Console.oneClock
-/
import Handheld.Proofs.Board.Isolation
import Handheld.Proofs.Console.Chronicle

namespace Handheld

/-! ### The divider -/

/-- The address of the divider. -/
def dividerAddress : UInt16 := 0xFF04

namespace Timer

theorem divider_write (t : Timer) (register : Register) (value : UInt8) :
    (t.write register value).1.divider = if register = .divider then 0 else t.divider := by
  cases register with
  | divider | control =>
      unfold write
      dsimp only
      rw [divider_change]
      rfl
  | counter | modulo => rfl

end Timer

namespace Board

theorem divider_writeTarget (b : Board) (address : UInt16) (value : UInt8) (target : Target) :
    (b.writeTarget address value target).1.timer.divider =
      if target = .timer .divider then 0 else b.timer.divider := by
  obtain ⟨oam, hunits⟩ := b.exists_written address value target
  rw [hunits]
  cases target with
  | timer register =>
      simp only [Target.timer.injEq]
      exact b.timer.divider_write register value
  | _ => rfl

/-- The write of the divider, whatever the value. -/
def Act.clearsDivider : Act → Bool
  | .write address _ => address == dividerAddress
  | _ => false

theorem divider_write (b : Board) (address : UInt16) (value : UInt8) :
    (b.write address value).1.timer.divider =
      if address = dividerAddress then 0 else b.timer.divider := by
  have hplace : Target.ofAddress address = .timer .divider ↔ address = dividerAddress := by
    constructor
    · exact Target.ofAddress_eq_timer
    · rintro rfl
      decide +kernel
  unfold write
  rw [divider_writeTarget]
  simp only [hplace]

/-- Of all that a processor does, only a write to the divider changes it. -/
theorem divider_actAll {acts : List Act} (h : ∀ act ∈ acts, act.isProcessor = true) (b : Board) :
    (b.actAll acts).timer.divider =
      if acts.any Act.clearsDivider then 0 else b.timer.divider := by
  induction acts generalizing b with
  | nil => rfl
  | cons act rest ih =>
      obtain ⟨hfirst, hrest⟩ := List.forall_mem_cons.mp h
      have hact : (b.act act).timer.divider =
          if act.clearsDivider then 0 else b.timer.divider := by
        cases act with
        | write address value =>
            unfold Act.clearsDivider
            simp only [beq_iff_eq]
            exact b.divider_write address value
        | takeWake => rfl
        | _ => cases hfirst
      have hall : b.actAll (act :: rest) = (b.act act).actAll rest := rfl
      rw [hall, ih hrest, hact, List.any_cons]
      cases rest.any Act.clearsDivider <;> cases act.clearsDivider <;> rfl

end Board

namespace Console

variable {c : Console} {cycles : Nat}

/-! ### One step -/

/-- The divider as a number. -/
def divider (c : Console) : Nat :=
  c.board.timer.divider.toNat

/-- The next step writes the divider. -/
def WritesDivider (c : Console) : Prop :=
  ∃ value, .write dividerAddress value ∈ c.core.acts

theorem writesDivider_iff : c.WritesDivider ↔ c.core.acts.any Board.Act.clearsDivider = true := by
  rw [List.any_eq_true]
  constructor
  · rintro ⟨value, hmem⟩
    exact ⟨_, hmem, beq_self_eq_true _⟩
  · rintro ⟨act, hmem, hclears⟩
    cases act with
    | write address value =>
        obtain rfl : address = dividerAddress := beq_iff_eq.mp hclears
        exact ⟨value, hmem⟩
    | _ => cases hclears

instance (c : Console) : Decidable c.WritesDivider :=
  decidable_of_iff _ writesDivider_iff.symm

theorem cycles_of_ok (h : c.step.1 = .ok cycles) : c.cycles = cycles := by
  unfold Console.cycles
  rw [h]

/-- A step lets the board follow by the cycles with which it answers. -/
theorem board_step_of_ok (h : c.step.1 = .ok cycles) :
    c.step.2.board = (c.core.step.2.bus.board.advance cycles).1 := by
  rw [step_eq] at h ⊢
  cases hcore : c.core.step.1 with
  | error fault =>
      rw [hcore] at h
      cases h
  | ok report =>
      rw [hcore] at h
      obtain rfl : report.cycles = cycles := Except.ok.inj h
      exact NotedBoard.board_advance _ _

/-- The processor acts before the clock moves, so that a divider that it clears begins with the
    cycles of the same step. -/
theorem divider_step (h : c.step.1 = .ok cycles) :
    c.step.2.divider = ((if c.WritesDivider then 0 else c.divider) + cycles) % 65536 := by
  have hacted : c.core.step.2.bus.board.timer.divider =
      if c.WritesDivider then 0 else c.board.timer.divider := by
    rw [c.core.step_chronicle.2, Board.divider_actAll fun _ => Core.isProcessor_of_mem_acts]
    simp only [writesDivider_iff]
    rfl
  unfold divider
  rw [board_step_of_ok h, Board.advance_eq]
  dsimp only
  rw [Timer.divider_advance, hacted, UInt16.toNat_add, UInt16.toNat_ofNat', Nat.add_mod_mod]
  split <;> rfl

theorem position_step (hon : c.picture.lcdOn = true) (hu : c.picture.raster.Coherent)
    (hstays : ¬ c.Switches 0) (h : c.step.1 = .ok cycles) :
    c.step.2.picture.lcdOn = true ∧
      c.step.2.picture.position = (c.picture.position + cycles) % Picture.cyclesPerFrame := by
  have hlit : c.core.step.2.bus.board.picture.lcdOn = true :=
    (lcdOn_step hu h).symm.trans ((not_not.mp hstays).trans hon)
  -- a switched display would be off now
  have hsame : c.core.step.2.bus.board.picture.raster = c.picture.raster := by
    rcases c.core.raster_step with hsame | hswitch
    · exact hsame
    · have hoff : c.core.step.2.bus.board.picture.lcdOn = !c.picture.lcdOn :=
        congrArg Picture.Raster.lit hswitch
      rw [hlit, hon] at hoff
      cases hoff
  have hposition : c.core.step.2.bus.board.picture.position = c.picture.position := by
    have hly := congrArg Picture.Raster.ly hsame
    have hdot := congrArg Picture.Raster.dot hsame
    exact congrArg₂ (fun ly dot => UInt8.toNat ly * Picture.dotsPerLine + dot) hly hdot
  rw [picture_step_of_ok h, ← hposition]
  exact Picture.position_advance hlit (coherent_coreStep hu) cycles

/-! ### Runs -/

/-- The consoles at which the steps among events begin. -/
def stepsAmong (c : Console) : List Event → List Console
  | [] => []
  | .step :: rest => c :: c.step.2.stepsAmong rest
  | event :: rest => (c.perform event).stepsAmong rest

/-- All other events but a reset let no time pass. -/
structure SameTime (c next : Console) : Prop where
  timer : next.board.timer = c.board.timer
  position : next.picture.position = c.picture.position
  lcdOn : next.picture.lcdOn = c.picture.lcdOn
  coherent : c.picture.raster.Coherent → next.picture.raster.Coherent

theorem sameTime_press (c : Console) (button : Button) : SameTime c (c.press button) := by
  have hboard : (c.board.press button).1.timer = c.board.timer := by
    obtain ⟨joypad, interrupts, hpressed⟩ := c.board.press_units button
    rw [hpressed]
  have hpicture := c.picture_press button
  exact ⟨hboard, by rw [hpicture], by rw [hpicture], by rw [hpicture]; exact id⟩

theorem sameTime_perform (c : Console) {event : Event} (hstep : event ≠ .step)
    (hreset : event ≠ .reset) : SameTime c (c.perform event) := by
  cases event with
  | step => exact absurd rfl hstep
  | reset => exact absurd rfl hreset
  | forgetFrame => exact ⟨rfl, rfl, rfl, coherent_forgetFrame⟩
  | press button => exact c.sameTime_press button
  | release button => exact ⟨rfl, rfl, rfl, id⟩
  | keyDown code =>
      unfold perform keyDown
      dsimp only
      cases c.settings.keyMap.button? code with
      | none => exact ⟨rfl, rfl, rfl, id⟩
      | some button => exact c.sameTime_press button
  | keyUp code =>
      unfold perform keyUp
      dsimp only
      cases c.settings.keyMap.button? code <;> exact ⟨rfl, rfl, rfl, id⟩

/-- Steps that do not fail, with what lets no time pass between them. -/
inductive Passes : Console → List Console → Console → Prop where
  | nil (c : Console) : Passes c [] c
  | step {c last : Console} {cycles : Nat} {steps : List Console} (h : c.step.1 = .ok cycles)
      (hrest : Passes c.step.2 steps last) : Passes c (c :: steps) last
  | still {c next last : Console} {steps : List Console} (h : SameTime c next)
      (hrest : Passes next steps last) : Passes c steps last

theorem passes_performAll {events : List Event} (hreset : .reset ∉ events)
    (hok : ∀ s ∈ c.stepsAmong events, ∃ cycles, s.step.1 = .ok cycles) :
    Passes c (c.stepsAmong events) (c.performAll events) := by
  induction events generalizing c with
  | nil => exact .nil c
  | cons event rest ih =>
      have hrest : .reset ∉ rest := fun hmem => hreset (List.mem_cons_of_mem _ hmem)
      by_cases hstep : event = .step
      · subst hstep
        obtain ⟨⟨cycles, hcycles⟩, hlater⟩ := List.forall_mem_cons.mp hok
        exact .step hcycles (ih hrest hlater)
      · have hsteps : c.stepsAmong (event :: rest) = (c.perform event).stepsAmong rest := by
          cases event with
          | step => exact absurd rfl hstep
          | _ => rfl
        have hevent : event ≠ .reset := fun heq => hreset (heq ▸ List.mem_cons_self)
        rw [hsteps] at hok ⊢
        exact .still (c.sameTime_perform hstep hevent) (ih hrest hok)

variable {last : Console} {steps : List Console}

/-- One of the steps of a run, and the run after it. -/
theorem Passes.split {before later : List Console} {s : Console}
    (h : Passes c (before ++ s :: later) last) :
    ∃ cycles, s.step.1 = .ok cycles ∧ Passes s.step.2 later last := by
  generalize hsteps : before ++ s :: later = steps at h
  induction h generalizing before with
  | nil c => exact absurd hsteps (List.append_ne_nil_of_right_ne_nil _ (List.cons_ne_nil _ _))
  | @step c last cycles steps h hrest ih =>
      cases before with
      | nil =>
          obtain ⟨rfl, rfl⟩ := List.cons.inj hsteps
          exact ⟨cycles, h, hrest⟩
      | cons first before => exact ih (List.cons.inj hsteps).2
  | still h hrest ih => exact ih hsteps

/-- As long as no step writes the divider, it goes on by the cycles of the steps. -/
theorem Passes.divider (h : Passes c steps last) (hkept : ∀ s ∈ steps, ¬ s.WritesDivider) :
    last.divider = (c.divider + (steps.map Console.cycles).sum) % 65536 := by
  induction h with
  | nil c => exact (Nat.mod_eq_of_lt c.board.timer.divider.toNat_lt).symm
  | step h hrest ih =>
      obtain ⟨hnone, hlater⟩ := List.forall_mem_cons.mp hkept
      rw [ih hlater, divider_step h, if_neg hnone, List.map_cons, List.sum_cons, cycles_of_ok h,
        Nat.mod_add_mod, Nat.add_assoc]
  | @still c next last steps h hrest ih =>
      have hsame : next.divider = c.divider :=
        congrArg (fun timer => UInt16.toNat (Timer.divider timer)) h.timer
      rw [ih hkept, hsame]

/-- From a step on that writes the divider, it counts the cycles of that step and of the later
    ones. -/
theorem Passes.divider_of_writes {before later : List Console} {s : Console}
    (h : Passes c (before ++ s :: later) last) (hwrites : s.WritesDivider)
    (hkept : ∀ t ∈ later, ¬ t.WritesDivider) :
    last.divider = ((s :: later).map Console.cycles).sum % 65536 := by
  obtain ⟨cycles, hcycles, hrest⟩ := h.split
  rw [hrest.divider hkept, divider_step hcycles, if_pos hwrites, List.map_cons, List.sum_cons,
    cycles_of_ok hcycles, Nat.mod_add_mod, Nat.zero_add]

/-- As long as no step switches the display, the raster goes on by the cycles of the steps. -/
theorem Passes.position (h : Passes c steps last) (hon : c.picture.lcdOn = true)
    (hu : c.picture.raster.Coherent) (hstays : ∀ s ∈ steps, ¬ s.Switches 0) :
    last.picture.position =
      (c.picture.position + (steps.map Console.cycles).sum) % Picture.cyclesPerFrame := by
  induction h with
  | nil c =>
      rw [List.map_nil, List.sum_nil, Nat.add_zero, Nat.mod_eq_of_lt (Picture.position_lt hon hu)]
  | step h hrest ih =>
      obtain ⟨hfirst, hlater⟩ := List.forall_mem_cons.mp hstays
      obtain ⟨hlit, hposition⟩ := position_step hon hu hfirst h
      rw [ih hlit (coherent_step hu) hlater, hposition, List.map_cons, List.sum_cons,
        cycles_of_ok h, Nat.mod_add_mod, Nat.add_assoc]
  | still h hrest ih =>
      rw [ih (h.lcdOn.trans hon) (h.coherent hu) hstays, h.position]

/-- If some element has a property, there is a last one that has it. -/
theorem exists_last {α : Type} {p : α → Prop} {all : List α} (h : ∃ s ∈ all, p s) :
    ∃ before s later, all = before ++ s :: later ∧ p s ∧ ∀ t ∈ later, ¬ p t := by
  induction all with
  | nil =>
      obtain ⟨s, hmem, -⟩ := h
      cases hmem
  | cons first rest ih =>
      by_cases hlater : ∃ s ∈ rest, p s
      · obtain ⟨before, s, later, rfl, hs, hnone⟩ := ih hlater
        exact ⟨first :: before, s, later, rfl, hs, hnone⟩
      · obtain ⟨s, hmem, hs⟩ := h
        rcases List.mem_cons.mp hmem with rfl | hmem
        · exact ⟨[], s, rest, rfl, hs, fun t ht hp => hlater ⟨t, ht, hp⟩⟩
        · exact absurd ⟨s, hmem, hs⟩ hlater

/-- One clock, for every console that can come about and every run without a fault, whatever is done
    with the buttons between the steps. As long as no step writes the divider, it goes on by exactly
    the cycles with which the steps answer; else it counts the cycles from the last step on that
    wrote it. With the display on and never switched, the raster goes on by exactly the same
    cycles. -/
theorem oneClock (h : c.Reachable) {events : List Event} (hreset : .reset ∉ events)
    (hok : ∀ s ∈ c.stepsAmong events, ∃ cycles, s.step.1 = .ok cycles) :
    ((∀ s ∈ c.stepsAmong events, ¬ s.WritesDivider) → (c.performAll events).divider =
      (c.divider + ((c.stepsAmong events).map Console.cycles).sum) % 65536) ∧
    ((∃ s ∈ c.stepsAmong events, s.WritesDivider) → ∃ before s later,
      c.stepsAmong events = before ++ s :: later ∧ s.WritesDivider ∧
        (∀ t ∈ later, ¬ t.WritesDivider) ∧
        (c.performAll events).divider = ((s :: later).map Console.cycles).sum % 65536) ∧
    (c.picture.lcdOn = true → (∀ s ∈ c.stepsAmong events, ¬ s.Switches 0) →
      (c.performAll events).picture.position =
        (c.picture.position + ((c.stepsAmong events).map Console.cycles).sum) %
          Picture.cyclesPerFrame) := by
  have hpasses := passes_performAll hreset hok
  refine ⟨hpasses.divider, ?_, fun hon => hpasses.position hon (coherent_of_reachable h)⟩
  intro hsome
  obtain ⟨before, s, later, hsteps, hwrites, hnone⟩ := exists_last hsome
  rw [hsteps] at hpasses
  exact ⟨before, s, later, hsteps, hwrites, hnone, hpasses.divider_of_writes hwrites hnone⟩

/-- The image of a program that clears the divider and then does nothing. -/
def clearerRom : Array UInt8 :=
  ((Array.replicate Cartridge.headerEnd 0).setIfInBounds 0x100 0xE0).setIfInBounds 0x101 0x04

/-- Three steps of that program, with a button pressed and let go between them, take 20 cycles. The
    first of them writes the divider. -/
theorem oneClock_clearer : ∃ c notes, powerOn clearerRom { ramFill := .zeros } = (.ok c, notes) ∧
    let run : List Event := [.step, .press .a, .step, .release .a, .step]
    c.Reachable ∧ .reset ∉ run ∧ (∀ s ∈ c.stepsAmong run, ∃ cycles, s.step.1 = .ok cycles) ∧
      (∃ before s later, c.stepsAmong run = before ++ s :: later ∧ s.WritesDivider ∧
        (∀ t ∈ later, ¬ t.WritesDivider) ∧
        (c.performAll run).divider = ((s :: later).map Console.cycles).sum % 65536) ∧
      (c.performAll run).picture.position = 20 := by
  let run : List Event := [.step, .press .a, .step, .release .a, .step]
  have hruns : (match powerOn clearerRom { ramFill := .zeros } with
      | (.error _, _) => false
      | (.ok c, _) => decide ((∀ s ∈ c.stepsAmong run, s.step.1.isOk = true) ∧ c.WritesDivider ∧
          c.picture.lcdOn = true ∧ c.picture.position = 0 ∧
          (∀ s ∈ c.stepsAmong run, s.step.2.picture.lcdOn = s.picture.lcdOn) ∧
          ((c.stepsAmong run).map Console.cycles).sum = 20)) = true := by
    decide +kernel
  cases hstart : powerOn clearerRom { ramFill := .zeros } with
  | mk result notes =>
      rw [hstart] at hruns
      cases result with
      | error e => cases hruns
      | ok c =>
          obtain ⟨hok, hwrites, hon, htop, hstays, hsum⟩ := of_decide_eq_true hruns
          have hreachable : c.Reachable := .powerOn hstart
          have hreset : .reset ∉ run := by decide
          have hsteps : ∀ s ∈ c.stepsAmong run, ∃ cycles, s.step.1 = .ok cycles := by
            intro s hs
            have hresult := hok s hs
            cases hcycles : s.step.1 with
            | ok cycles => exact ⟨cycles, rfl⟩
            | error fault =>
                rw [hcycles] at hresult
                cases hresult
          obtain ⟨-, hdivider, hposition⟩ := oneClock hreachable hreset hsteps
          have hraster := hposition hon fun s hs => not_not.mpr (hstays s hs)
          rw [htop, hsum] at hraster
          exact ⟨c, notes, rfl, hreachable, hreset, hsteps,
            hdivider ⟨c, List.mem_cons_self, hwrites⟩, hraster⟩

end Console

end Handheld
