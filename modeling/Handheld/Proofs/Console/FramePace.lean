/-
Module: Handheld.Proofs.Console.FramePace
Purpose: The pace of frames. A run for a frame ends at the end of the step in which V-blank begins,
  so it overshoots by less than a step. The overshoot is taken off the next frame, and so frames do
  not drift however many are run.
Main exports: Console.stepsToFrame, Console.stepsOfFrames, Console.vblankDots, Console.Paces,
  Console.paces_runFrames, Console.runFrames_keepPace
-/
import Mathlib.Algebra.GroupWithZero.Nat
import Handheld.Proofs.Console.Frame
import Handheld.Proofs.Picture.Passage
import Handheld.Proofs.Processor.Outcome

namespace Handheld

namespace Console

/-- The consoles at which the steps of `stepToFrame` begin. -/
def stepsToFrame : (limit : Nat) → Console → List Console
  | 0, _ => []
  | limit + 1, c =>
    match c.step with
    | (.error _, _) => [c]
    | (.ok _, next) =>
      if next.picture.frameReady then [c] else c :: stepsToFrame limit next

/-- The consoles at which the steps of `runFrames` begin. -/
def stepsOfFrames (limit : Nat) : (frames : Nat) → Console → List Console
  | 0, _ => []
  | frames + 1, c =>
    match c.runFrame limit with
    | (.done, next) => stepsToFrame limit c.forgetFrame ++ stepsOfFrames limit frames next
    | _ => stepsToFrame limit c.forgetFrame

/-- The number of dots of the next step that request the V-blank interrupt. The processor acts
    first, and the dots follow. -/
def vblankDots (c : Console) : Nat :=
  Picture.vblankDots c.cycles c.core.step.2.bus.board.picture

/-- The steps lead from one console to another with `frames` frames on the way, neither losing nor
    gaining time. -/
structure Paces (c : Console) (steps : List Console) (frames : Nat) (next : Console) : Prop where
  lit : next.picture.lcdOn = true
  coherent : next.picture.raster.Coherent
  time : (steps.map cycles).sum + next.picture.untilFrame =
    c.picture.untilFrame + Picture.cyclesPerFrame * frames
  requests : (steps.map vblankDots).sum = frames

/-- V-blank has begun in the last step. -/
def JustEntered (c : Console) : Prop :=
  Picture.cyclesPerFrame < c.picture.untilFrame + longestStep

variable {c next last : Console} {steps later : List Console} {frames more limit : Nat}

/-! ### One step after the other -/

theorem Paces.refl (hon : c.picture.lcdOn = true) (hu : c.picture.raster.Coherent) :
    Paces c [] 0 c := by
  refine ⟨hon, hu, ?_, rfl⟩
  rw [Nat.mul_zero, Nat.add_zero]
  exact Nat.zero_add _

theorem Paces.trans (h : Paces c steps frames next) (hlater : Paces next later more last) :
    Paces c (steps ++ later) (frames + more) last := by
  have htime := h.time
  have htime' := hlater.time
  refine ⟨hlater.lit, hlater.coherent, ?_, ?_⟩
  · rw [List.map_append, List.sum_append_nat, Nat.mul_add]
    omega
  · rw [List.map_append, List.sum_append_nat, h.requests, hlater.requests]

theorem Paces.forgetFrame (h : Paces c steps frames next) :
    Paces c steps frames next.forgetFrame :=
  ⟨h.lit, coherent_forgetFrame h.coherent, h.time, h.requests⟩

theorem needed_of_stays (h : ¬ c.Switches 0) : c.needed = c.picture.untilFrame :=
  needed_of_not_switches (n := 0) h

theorem cycles_le_of_ok {cycles : Nat} (h : c.step.1 = .ok cycles) : cycles ≤ longestStep := by
  rw [step_eq] at h
  cases hcore : c.core.step with
  | mk result core =>
      rw [hcore] at h
      cases result with
      | error fault => cases h
      | ok report =>
          cases h
          exact Core.cycles_step_le hcore

/-- A step that leaves the display on makes a frame or does not, and takes its cycles off what was
    left of the frame. -/
theorem paces_step {cycles : Nat} (hon : c.picture.lcdOn = true) (hu : c.picture.raster.Coherent)
    (hkeep : ¬ c.Switches 0) (h : c.step.1 = .ok cycles) :
    (c.picture.untilFrame ≤ cycles → Paces c [c] 1 c.step.2 ∧ JustEntered c.step.2) ∧
      (cycles < c.picture.untilFrame → Paces c [c] 0 c.step.2) := by
  have hacted := coherent_coreStep hu
  have hlit : c.step.2.picture.lcdOn = true := (not_not.mp hkeep).trans hon
  have hon' : c.core.step.2.bus.board.picture.lcdOn = true := (lcdOn_step hu h).symm.trans hlit
  have hneeded := needed_of_stays hkeep
  have hleft := (untilFrame_coreStep hu h).trans hneeded
  have hcycles : c.cycles = cycles := by
    unfold Console.cycles
    rw [h]
  -- no step is as long as a frame, and so none can pass V-blank twice
  have hshort := cycles_le_of_ok h
  have hframe : longestStep ≤ Picture.cyclesPerFrame := by decide
  have hpos := Picture.untilFrame_pos hu
  have hdots : c.vblankDots = if c.picture.untilFrame ≤ cycles then 1 else 0 := by
    unfold vblankDots
    rw [hcycles, Picture.vblankDots_eq hon' hacted (by omega), hleft]
  constructor
  · intro hpast
    have hover := Picture.untilFrame_advance hon' hacted (n := cycles) (by omega) (by omega)
    rw [← picture_step_of_ok h, hleft] at hover
    refine ⟨⟨hlit, coherent_step hu, ?_, ?_⟩, ?_⟩
    · rw [List.map_singleton, List.sum_singleton, hcycles, Nat.mul_one]
      omega
    · rw [List.map_singleton, List.sum_singleton, hdots, if_pos hpast]
    · unfold JustEntered
      omega
  · intro hbefore
    have hless := (pace_step hu h).2
    rw [hneeded] at hless
    refine ⟨hlit, coherent_step hu, ?_, ?_⟩
    · have hrest := hless hbefore
      rw [List.map_singleton, List.sum_singleton, hcycles, Nat.mul_zero]
      omega
    · rw [List.map_singleton, List.sum_singleton, hdots, if_neg (by omega)]

/-! ### One frame after the other -/

theorem ok_of_done (hdone : (stepToFrame (limit + 1) c).1 = .done) :
    ∃ cycles, c.step.1 = .ok cycles := by
  unfold stepToFrame at hdone
  cases hstep : c.step with
  | mk result next =>
      rw [hstep] at hdone
      cases result with
      | error fault => cases hdone
      | ok cycles => exact ⟨cycles, rfl⟩

theorem stepToFrame_of_ready {cycles : Nat} (h : c.step.1 = .ok cycles)
    (hready : c.step.2.picture.frameReady = true) (limit : Nat) :
    stepToFrame (limit + 1) c = (.done, c.step.2.forgetFrame) ∧
      stepsToFrame (limit + 1) c = [c] := by
  unfold stepToFrame stepsToFrame
  cases hstep : c.step with
  | mk result next =>
      rw [hstep] at h hready
      obtain rfl : result = .ok cycles := h
      exact ⟨if_pos hready, if_pos hready⟩

theorem stepToFrame_of_not_ready {cycles : Nat} (h : c.step.1 = .ok cycles)
    (hready : ¬ c.step.2.picture.frameReady = true) (limit : Nat) :
    stepToFrame (limit + 1) c = stepToFrame limit c.step.2 ∧
      stepsToFrame (limit + 1) c = c :: stepsToFrame limit c.step.2 := by
  rw [stepToFrame, stepsToFrame]
  cases hstep : c.step with
  | mk result next =>
      rw [hstep] at h hready
      obtain rfl : result = .ok cycles := h
      exact ⟨if_neg hready, if_neg hready⟩

/-- A run for one frame makes one, and ends with the step in which V-blank has begun. -/
theorem paces_stepToFrame (hon : c.picture.lcdOn = true) (hu : c.picture.raster.Coherent)
    (hstart : c.picture.frameReady = false) (hdone : (stepToFrame limit c).1 = .done)
    (hkeep : ∀ s ∈ stepsToFrame limit c, ¬ s.Switches 0) :
    Paces c (stepsToFrame limit c) 1 (stepToFrame limit c).2 ∧
      JustEntered (stepToFrame limit c).2 := by
  induction limit generalizing c with
  | zero => cases hdone
  | succ limit ih =>
      rcases ok_of_done hdone with ⟨cycles, hok⟩
      have hready := (pace_step hu hok).1
      rw [hstart] at hready
      by_cases hset : c.step.2.picture.frameReady = true
      · rcases stepToFrame_of_ready hok hset limit with ⟨hrun, hsteps⟩
        rw [hsteps] at hkeep
        have hstays := hkeep c (List.mem_singleton_self c)
        have hpast : c.needed ≤ cycles := by simpa using hready.mp hset
        rw [needed_of_stays hstays] at hpast
        rcases (paces_step hon hu hstays hok).1 hpast with ⟨hpaces, hentered⟩
        rw [hrun, hsteps]
        exact ⟨hpaces.forgetFrame, hentered⟩
      · rcases stepToFrame_of_not_ready hok hset limit with ⟨hrun, hsteps⟩
        rw [hrun] at hdone
        rw [hsteps] at hkeep
        have hstays := hkeep c List.mem_cons_self
        have hbefore : cycles < c.needed := by
          by_contra hpast
          exact hset (hready.mpr (.inr (Nat.not_lt.mp hpast)))
        rw [needed_of_stays hstays] at hbefore
        have hfirst := (paces_step hon hu hstays hok).2 hbefore
        rcases ih hfirst.lit hfirst.coherent ((Bool.not_eq_true _).mp hset) hdone
          (fun s hs => hkeep s (List.mem_cons_of_mem c hs)) with ⟨hrest, hentered⟩
        rw [hrun, hsteps]
        exact ⟨hfirst.trans hrest, hentered⟩

theorem paces_runFrame (hon : c.picture.lcdOn = true) (hu : c.picture.raster.Coherent)
    (hdone : (c.runFrame limit).1 = .done)
    (hkeep : ∀ s ∈ stepsToFrame limit c.forgetFrame, ¬ s.Switches 0) :
    Paces c (stepsToFrame limit c.forgetFrame) 1 (c.runFrame limit).2 ∧
      JustEntered (c.runFrame limit).2 := by
  rcases paces_stepToFrame (c := c.forgetFrame) hon (coherent_forgetFrame hu) rfl hdone hkeep with
    ⟨hpaces, hentered⟩
  exact ⟨⟨hpaces.lit, hpaces.coherent, hpaces.time, hpaces.requests⟩, hentered⟩

theorem runFrames_succ (hdone : (c.runFrame limit).1 = .done) (frames : Nat) :
    runFrames limit (frames + 1) c = runFrames limit frames (c.runFrame limit).2 ∧
      stepsOfFrames limit (frames + 1) c =
        stepsToFrame limit c.forgetFrame ++ stepsOfFrames limit frames (c.runFrame limit).2 := by
  rw [runFrames, stepsOfFrames]
  cases hrun : c.runFrame limit with
  | mk result next =>
      rw [hrun] at hdone
      cases hdone
      exact ⟨rfl, rfl⟩

theorem done_of_runFrames (hdone : (runFrames limit (frames + 1) c).1 = .done) :
    (c.runFrame limit).1 = .done := by
  unfold runFrames at hdone
  cases hrun : c.runFrame limit with
  | mk result next =>
      rw [hrun] at hdone
      cases result with
      | done => rfl
      | fault fault => cases hdone
      | unfinished => cases hdone

/-- Any number of runs make as many frames, and each of them ends with the step in which V-blank has
    begun. -/
theorem paces_runFrames (hon : c.picture.lcdOn = true) (hu : c.picture.raster.Coherent)
    (hdone : (runFrames limit frames c).1 = .done)
    (hkeep : ∀ s ∈ stepsOfFrames limit frames c, ¬ s.Switches 0) :
    Paces c (stepsOfFrames limit frames c) frames (runFrames limit frames c).2 ∧
      ∀ k, 1 ≤ k → k ≤ frames → (runFrames limit k c).2.picture.lcdOn = true ∧
        (runFrames limit k c).2.picture.raster.Coherent ∧ JustEntered (runFrames limit k c).2 := by
  induction frames generalizing c with
  | zero =>
      refine ⟨.refl hon hu, ?_⟩
      intro k hk hk'
      omega
  | succ frames ih =>
      have hfirst := done_of_runFrames hdone
      rcases runFrames_succ hfirst frames with ⟨hrun, hsteps⟩
      rw [hrun] at hdone
      rw [hsteps] at hkeep
      rcases paces_runFrame hon hu hfirst
        (fun s hs => hkeep s (List.mem_append_left _ hs)) with ⟨hpaces, hentered⟩
      rcases ih hpaces.lit hpaces.coherent hdone
        (fun s hs => hkeep s (List.mem_append_right _ hs)) with ⟨hlater, hends⟩
      constructor
      · rw [hrun, hsteps, Nat.add_comm frames 1]
        exact hpaces.trans hlater
      · intro k hk hk'
        cases k with
        | zero => omega
        | succ k =>
            rw [(runFrames_succ hfirst k).1]
            cases k with
            | zero => exact ⟨hpaces.lit, hpaces.coherent, hentered⟩
            | succ k => exact hends (k + 1) (Nat.succ_pos k) (Nat.le_of_succ_le_succ hk')

/-- Frames keep their pace. With the display on and left on, `frames` runs that all end take the
    dots up to the next V-blank and a whole frame's for each but the first, and at most 23 cycles
    more, however many they are. Of their dots exactly `frames` request the V-blank interrupt, and
    after each of them the raster is at the first line of V-blank. -/
theorem runFrames_keepPace (h : c.Reachable) (hon : c.picture.lcdOn = true) (hframes : 1 ≤ frames)
    (hdone : (runFrames limit frames c).1 = .done)
    (hkeep : ∀ s ∈ stepsOfFrames limit frames c, ¬ s.Switches 0) :
    ∃ d, c.picture.FirstEntry d ∧ 1 ≤ d ∧ d ≤ Picture.cyclesPerFrame ∧
      d + Picture.cyclesPerFrame * (frames - 1) ≤ ((stepsOfFrames limit frames c).map cycles).sum ∧
      ((stepsOfFrames limit frames c).map cycles).sum ≤
        d + Picture.cyclesPerFrame * (frames - 1) + 23 ∧
      ((stepsOfFrames limit frames c).map vblankDots).sum = frames ∧
      ∀ k, 1 ≤ k → k ≤ frames → (runFrames limit k c).2.line = 144 := by
  have hu := coherent_of_reachable h
  rcases paces_runFrames hon hu hdone hkeep with ⟨hpaces, hends⟩
  have htime := hpaces.time
  have hleft := Picture.untilFrame_le hpaces.lit
  have hlast := (hends frames hframes (Nat.le_refl frames)).2.2
  have hwhole : Picture.cyclesPerFrame * frames =
      Picture.cyclesPerFrame * (frames - 1) + Picture.cyclesPerFrame := by
    rw [← Nat.mul_succ, Nat.succ_eq_add_one, Nat.sub_add_cancel hframes]
  unfold JustEntered longestStep at hlast
  refine ⟨c.picture.untilFrame, Picture.firstEntry_untilFrame hon hu, Picture.untilFrame_pos hu,
    Picture.untilFrame_le hon, by omega, by omega, hpaces.requests, ?_⟩
  intro k hk hk'
  rcases hends k hk hk' with ⟨hlit, hcoherent, hentered⟩
  have hshort : longestStep ≤ Picture.dotsPerLine := by decide
  unfold JustEntered at hentered
  apply UInt8.toNat_inj.mp
  apply Picture.line_of_untilFrame hlit hcoherent
  exact Nat.lt_of_lt_of_le hentered (Nat.add_le_add_left hshort _)

/-! ### A program that sleeps -/

/-- A processor in HALT. -/
structure Asleep (p : Processor) : Prop where
  fault : p.fault = none
  stopped : p.stopped = false
  halted : p.halted = true

/-- A console in HALT with the display on and no line enabled. -/
structure Sleeping (c : Console) : Prop where
  asleep : Asleep c.cpu
  enable : c.board.interrupts.enable = 0
  lit : c.picture.lcdOn = true
  coherent : c.picture.raster.Coherent

/-- After a step in which the processor does nothing but to go to sleep, or to sleep on. -/
theorem sleeping_step {report : Report} {cpu : Processor}
    (hcore : c.core.step = (.ok report, ⟨cpu, c.core.bus⟩)) (hcpu : Asleep cpu)
    (henable : c.board.interrupts.enable = 0) (hon : c.picture.lcdOn = true)
    (hu : c.picture.raster.Coherent) :
    c.step.1 = .ok report.cycles ∧ ¬ c.Switches 0 ∧ c.step.2.Sleeping := by
  have hstep : c.step = (.ok report.cycles,
      { c with core := ⟨cpu, c.core.bus.advance report.cycles⟩ }) := by
    rw [Console.step_eq, hcore]
  have hok : c.step.1 = .ok report.cycles := congrArg Prod.fst hstep
  have hlit : c.step.2.picture.lcdOn = c.picture.lcdOn := by
    rw [lcdOn_step hu hok, hcore]
    rfl
  have hboard : c.step.2.board = (c.board.advance report.cycles).1 := by
    rw [hstep]
    exact NotedBoard.board_advance _ _
  have hsteady : c.step.2.board.steady = c.board.steady := by
    rw [hboard, Board.steady_advance]
  refine ⟨hok, not_not.mpr hlit, ?_⟩
  constructor
  · rw [hstep]
    exact hcpu
  · exact (congrArg Prod.snd hsteady).trans henable
  · exact hlit.trans hon
  · exact coherent_step hu

theorem Sleeping.step (h : c.Sleeping) :
    c.step.1 = .ok 4 ∧ ¬ c.Switches 0 ∧ c.step.2.Sleeping := by
  have hcore : c.core.step = (.ok ⟨4, .idle⟩, c.core) := by
    rw [Core.step_awake h.asleep.fault h.asleep.stopped, Core.stepAwake_eq,
      Core.poll_of_disabled h.enable]
    exact if_pos h.asleep.halted
  exact sleeping_step hcore h.asleep h.enable h.lit h.coherent

theorem Sleeping.forgetFrame (h : c.Sleeping) : c.forgetFrame.Sleeping :=
  ⟨h.asleep, h.enable, h.lit, coherent_forgetFrame h.coherent⟩

theorem Sleeping.stepToFrame (h : c.Sleeping) (hlong : c.picture.untilFrame ≤ limit) :
    (stepToFrame limit c).1 = .done ∧ (stepToFrame limit c).2.Sleeping ∧
      ∀ s ∈ stepsToFrame limit c, ¬ s.Switches 0 := by
  have hpos := Picture.untilFrame_pos h.coherent
  induction limit generalizing c with
  | zero => omega
  | succ limit ih =>
      rcases h.step with ⟨hok, hstays, hnext⟩
      by_cases hset : c.step.2.picture.frameReady = true
      · rcases stepToFrame_of_ready hok hset limit with ⟨hrun, hsteps⟩
        rw [hrun, hsteps]
        exact ⟨rfl, hnext.forgetFrame, List.forall_mem_singleton.mpr hstays⟩
      · rcases stepToFrame_of_not_ready hok hset limit with ⟨hrun, hsteps⟩
        rcases pace_step h.coherent hok with ⟨hready, hless⟩
        rw [needed_of_stays hstays] at hready hless
        have hbefore : 4 < c.picture.untilFrame := by
          by_contra hpast
          exact hset (hready.mpr (.inr (Nat.not_lt.mp hpast)))
        have hrest := hless hbefore
        rcases ih hnext (by omega) (Picture.untilFrame_pos hnext.coherent) with
          ⟨hdone, hlast, hall⟩
        rw [hrun, hsteps]
        exact ⟨hdone, hlast, List.forall_mem_cons.mpr ⟨hstays, hall⟩⟩

theorem Sleeping.runFrames (h : c.Sleeping) (frames : Nat) :
    (runFrames Picture.cyclesPerFrame frames c).1 = .done ∧
      ∀ s ∈ stepsOfFrames Picture.cyclesPerFrame frames c, ¬ s.Switches 0 := by
  induction frames generalizing c with
  | zero => exact ⟨rfl, fun s hs => absurd hs List.not_mem_nil⟩
  | succ frames ih =>
      rcases h.forgetFrame.stepToFrame (Picture.untilFrame_le h.lit) with ⟨hdone, hnext, hfirst⟩
      rcases runFrames_succ hdone frames with ⟨hrun, hsteps⟩
      rcases ih hnext with ⟨hends, hlater⟩
      rw [hrun, hsteps]
      refine ⟨hends, ?_⟩
      intro s hs
      rcases List.mem_append.mp hs with hs | hs
      · exact hfirst s hs
      · exact hlater s hs

/-- The image of a cartridge with HALT at the entry point and no more than a header. -/
def sleeperRom : Array UInt8 :=
  Array.ofFn fun i : Fin Cartridge.headerEnd => if i.val = 0x100 then 0x76 else 0

/-- A console with that program in it can be built, and sleeps after its first step. -/
theorem powerOn_sleeperRom : ∃ c notes, powerOn sleeperRom {} = (.ok c, notes) ∧
    c.step.2.Sleeping := by
  have hrom : sleeperRom = entryRom 0x76 := rfl
  obtain ⟨c, notes, h, hcpu, hpicture, henable, hopcode⟩ := powerOn_entryRom 0x76
  refine ⟨c, notes, hrom ▸ h, ?_⟩
  rcases c with ⟨⟨cpu, bus⟩, settings⟩
  obtain rfl : cpu = .boot := hcpu
  replace hopcode : bus.board.read 0x100 = 0x76 := hopcode
  have hdecode : decode (bus.board.read 0x100) = .complete .halt := by
    rw [hopcode]
    rfl
  have hcore : Core.step ⟨.boot, bus⟩ = (.ok ⟨4, .executed .halt⟩,
      ⟨{ Processor.boot with regs.pc := 0x101, halted := true }, bus⟩) := by
    have hhalt := Core.halt_of_disabled
      (m := ⟨{ Processor.boot with regs.pc := 0x101 }, bus⟩) henable
    have hacted : Core.execute ⟨{ Processor.boot with regs.pc := 0x101 }, bus⟩ .halt =
        (4, ⟨{ Processor.boot with regs.pc := 0x101, halted := true }, bus⟩) :=
      congrArg (Prod.mk 4) hhalt
    rw [Core.step_complete (m := ⟨.boot, bus⟩) rfl rfl rfl rfl henable hdecode]
    change Core.finish (.ok .halt) ⟨{ Processor.boot with regs.pc := 0x101 }, bus⟩ = _
    rw [Core.finish, hacted]
    rfl
  have hunit : bus.board.picture = {} := hpicture
  have hon : bus.board.picture.lcdOn = true := by
    rw [hunit]
    rfl
  have hu : bus.board.picture.raster.Coherent := by
    rw [hunit]
    exact Picture.coherent_powerOn
  exact (sleeping_step (c := ⟨⟨.boot, bus⟩, settings⟩) hcore ⟨rfl, rfl, rfl⟩ henable hon hu).2.2

/-- Of two frames in which that program does nothing but sleep. -/
theorem runFrames_keepPace_sleeper : ∃ c notes, powerOn sleeperRom {} = (.ok c, notes) ∧
    c.step.2.Reachable ∧ c.step.2.picture.lcdOn = true ∧
      (runFrames Picture.cyclesPerFrame 2 c.step.2).1 = .done ∧
      (∀ s ∈ stepsOfFrames Picture.cyclesPerFrame 2 c.step.2, ¬ s.Switches 0) ∧
      ∃ d, c.step.2.picture.FirstEntry d ∧ 1 ≤ d ∧ d ≤ 70224 ∧
        d + 70224 ≤ ((stepsOfFrames Picture.cyclesPerFrame 2 c.step.2).map cycles).sum ∧
        ((stepsOfFrames Picture.cyclesPerFrame 2 c.step.2).map cycles).sum ≤ d + 70224 + 23 ∧
        ((stepsOfFrames Picture.cyclesPerFrame 2 c.step.2).map vblankDots).sum = 2 ∧
        ∀ k, 1 ≤ k → k ≤ 2 →
          (runFrames Picture.cyclesPerFrame k c.step.2).2.line = 144 := by
  obtain ⟨c, notes, h, hsleeping⟩ := powerOn_sleeperRom
  rcases hsleeping.runFrames 2 with ⟨hdone, hkeep⟩
  have hreachable : c.step.2.Reachable := .step (.powerOn h)
  refine ⟨c, notes, h, hreachable, hsleeping.lit, hdone, hkeep, ?_⟩
  exact runFrames_keepPace hreachable hsleeping.lit (by decide) hdone hkeep

end Console

end Handheld
