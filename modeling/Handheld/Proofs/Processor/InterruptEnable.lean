/-
Module: Handheld.Proofs.Processor.InterruptEnable
Purpose: When interrupts are on, told from what the processor has done and not from its latches. A
  run is a list of activities. Interrupts are on after it exactly if, since the last activity that
  turned them off, a RETI has been executed, or an EI and one more instruction, or if nothing has
  turned them off and they were on at the start.
Main exports: Processor.Run, Activity.disables, Undisturbed, Since, Granted,
  Processor.Run.interrupts_on_iff
-/
import Handheld.Proofs.Processor.FlatStep
import Handheld.Proofs.Processor.Latch

namespace Handheld

/-- `Run σ p past q`: from the state `p` the processor comes to `q` by steps that do not fail and
    that have done what `past` says, the latest last. Between two steps the bus may change in any
    way, as it does on a console, where the units follow the clock and buttons are pressed. -/
inductive Processor.Run (σ : Type) [Bus σ] (p : Processor) : List Activity → Processor → Prop where
  | start : Run σ p [] p
  | step {past : List Activity} {q : Processor} {report : Report} (before : Run σ p past q) (bus : σ)
      (h : (Core.step ⟨q, bus⟩).1 = .ok report) :
      Run σ p (past ++ [report.activity]) (Core.step ⟨q, bus⟩).2.cpu

theorem Processor.Run.after {σ : Type} [Bus σ] {p q : Processor} {past : List Activity}
    {report : Report} {m : Core σ} (before : Run σ p past q) {bus : σ}
    (h : Core.step ⟨q, bus⟩ = (.ok report, m)) : Run σ p (past ++ [report.activity]) m.cpu := by
  have hnext := before.step bus (congrArg Prod.fst h)
  rw [h] at hnext
  exact hnext

/-! ### What a run says about interrupts -/

/-- The activities that turn interrupts off: servicing a line, and DI. -/
def Activity.disables : Activity → Prop
  | .serviced _ => True
  | .executed .disableInterrupts => True
  | _ => False

/-- Nothing turns interrupts off. -/
def Undisturbed (past : List Activity) : Prop :=
  ∀ activity ∈ past, ¬ activity.disables

/-- An instruction has been executed, and nothing has turned interrupts off since. -/
def Since (instr : Instr) (past : List Activity) : Prop :=
  ∃ before after, past = before ++ .executed instr :: after ∧ Undisturbed after

/-- An EI has been executed and after it a further instruction, and nothing has turned interrupts
    off since the EI. -/
def Granted (past : List Activity) : Prop :=
  ∃ before after, past = before ++ .executed .enableInterrupts :: after ∧ Undisturbed after ∧
    ∃ instr, .executed instr ∈ after

theorem undisturbed_append {past : List Activity} {last : Activity} :
    Undisturbed (past ++ [last]) ↔ Undisturbed past ∧ ¬ last.disables := by
  constructor
  · intro h
    exact ⟨fun activity hmem => h activity (List.mem_append_left _ hmem), h last (by simp)⟩
  · rintro ⟨hpast, hlast⟩ activity hmem
    rcases List.mem_append.mp hmem with hmem | hmem
    · exact hpast activity hmem
    · rw [List.mem_singleton.mp hmem]
      exact hlast

/-- A list with one more element at its end splits around an event either at that end or before. -/
theorem append_singleton_eq_split {past before after : List Activity} {last event : Activity} :
    past ++ [last] = before ++ event :: after ↔
      (after = [] ∧ past = before ∧ last = event) ∨
        ∃ rest, after = rest ++ [last] ∧ past = before ++ event :: rest := by
  constructor
  · intro h
    rcases List.eq_nil_or_concat after with rfl | ⟨rest, final, rfl⟩
    · rw [List.append_inj_left' h rfl] at *
      exact .inl ⟨rfl, rfl, by simpa using h⟩
    · refine .inr ⟨rest, ?_⟩
      rw [List.concat_eq_append, ← List.cons_append, ← List.append_assoc] at h
      obtain ⟨hpast, hlast⟩ := List.append_inj' h rfl
      rw [List.concat_eq_append, List.singleton_inj.mp hlast]
      exact ⟨rfl, hpast⟩
  · rintro (⟨rfl, rfl, rfl⟩ | ⟨rest, rfl, rfl⟩)
    · rfl
    · simp

theorem since_append {instr : Instr} {past : List Activity} {last : Activity} :
    Since instr (past ++ [last]) ↔
      last = .executed instr ∨ (Since instr past ∧ ¬ last.disables) := by
  constructor
  · rintro ⟨before, after, hsplit, hafter⟩
    rcases append_singleton_eq_split.mp hsplit with ⟨-, -, hlast⟩ | ⟨rest, rfl, hpast⟩
    · exact .inl hlast
    · obtain ⟨hrest, hlast⟩ := undisturbed_append.mp hafter
      exact .inr ⟨⟨before, rest, hpast, hrest⟩, hlast⟩
  · rintro (rfl | ⟨⟨before, rest, rfl, hrest⟩, hlast⟩)
    · exact ⟨past, [], rfl, fun _ hmem => nomatch hmem⟩
    · exact ⟨before, rest ++ [last], by simp, undisturbed_append.mpr ⟨hrest, hlast⟩⟩

theorem granted_append {past : List Activity} {last : Activity} :
    Granted (past ++ [last]) ↔
      (Granted past ∨ (Since .enableInterrupts past ∧ ∃ instr, last = .executed instr)) ∧
        ¬ last.disables := by
  constructor
  · rintro ⟨before, after, hsplit, hafter, instr, hinstr⟩
    rcases append_singleton_eq_split.mp hsplit with ⟨rfl, -, -⟩ | ⟨rest, rfl, hpast⟩
    · cases hinstr
    · obtain ⟨hrest, hlast⟩ := undisturbed_append.mp hafter
      refine ⟨?_, hlast⟩
      rcases List.mem_append.mp hinstr with hinstr | hinstr
      · exact .inl ⟨before, rest, hpast, hrest, instr, hinstr⟩
      · exact .inr ⟨⟨before, rest, hpast, hrest⟩, instr, (List.mem_singleton.mp hinstr).symm⟩
  · rintro ⟨⟨before, rest, rfl, hrest, instr, hinstr⟩ | ⟨⟨before, rest, rfl, hrest⟩, instr, rfl⟩, hlast⟩
    · exact ⟨before, rest ++ [last], by simp, undisturbed_append.mpr ⟨hrest, hlast⟩, instr,
        List.mem_append_left _ hinstr⟩
    · exact ⟨before, rest ++ [.executed instr], by simp, undisturbed_append.mpr ⟨hrest, hlast⟩, instr,
        by simp⟩

/-! ### The latches follow -/

/-- What the latches say about a run that began with the enable at `ime` and nothing under way. The
    enable itself is told by the history. An enabling under way stems from an EI, and after an EI
    either interrupts are on already or the next instruction will turn them on. A leftover pending
    latch, as two EIs in a row leave it, is therefore harmless. -/
structure Latches.Follow (ime : Bool) (past : List Activity) (l : Latches) : Prop where
  ime_iff : l.ime = true ↔ Since .retEnable past ∨ Granted past ∨ (Undisturbed past ∧ ime = true)
  underWay : l.pending = true ∨ l.delay = true → Since .enableInterrupts past
  due : Since .enableInterrupts past → l.ime = true ∨ l.delay = true

/-- Instructions other than EI, DI and RETI leave the latches to the end of the instruction. -/
theorem Instr.latch_of_ne {instr : Instr} (hei : instr ≠ .enableInterrupts)
    (hdi : instr ≠ .disableInterrupts) (hreti : instr ≠ .retEnable) (l : Latches) :
    instr.latch l = l := by
  cases instr <;> first | rfl | contradiction

theorem Activity.not_disables_of_ne {instr : Instr} (hdi : instr ≠ .disableInterrupts) :
    ¬ (Activity.executed instr).disables := by
  cases instr <;> first | exact id | contradiction

namespace Latches.Follow

variable {ime : Bool} {past : List Activity} {l : Latches}

theorem start (ime : Bool) : Follow ime [] ⟨ime, false, false⟩ where
  ime_iff := by
    constructor
    · intro h
      exact .inr (.inr ⟨fun _ hmem => (nomatch hmem), h⟩)
    · rintro (⟨before, after, h, -⟩ | ⟨before, after, h, -⟩ | ⟨-, h⟩)
      · simp at h
      · simp at h
      · exact h
  underWay := by simp
  due := by
    rintro ⟨before, after, h, -⟩
    simp at h

theorem disabled {last : Activity} (h : last.disables) : Follow ime (past ++ [last]) .off where
  ime_iff := by
    rw [since_append, granted_append, undisturbed_append]
    constructor
    · intro hoff
      cases hoff
    · rintro (h' | ⟨-, h'⟩ | ⟨⟨-, h'⟩, -⟩)
      · rcases h' with rfl | ⟨-, h'⟩
        · exact h.elim
        · exact absurd h h'
      · exact absurd h h'
      · exact absurd h h'
  underWay := by rintro (h | h) <;> cases h
  due := by
    rw [since_append]
    rintro (rfl | ⟨-, h'⟩)
    · exact h.elim
    · exact absurd h h'

/-- Waiting leaves everything as it is. -/
theorem idle (h : Follow ime past l) : Follow ime (past ++ [.idle]) l where
  ime_iff := by
    rw [h.ime_iff, since_append, granted_append, undisturbed_append]
    simp [Activity.disables]
  underWay := by
    rw [since_append]
    exact fun hlatch => .inr ⟨h.underWay hlatch, id⟩
  due := by
    rw [since_append]
    rintro (heq | ⟨hei, -⟩)
    · cases heq
    · exact h.due hei

/-- RETI turns interrupts on, and settles what was under way. -/
theorem returned : Follow ime (past ++ [.executed .retEnable]) ⟨true, false, false⟩ where
  ime_iff := by
    rw [since_append]
    exact ⟨fun _ => .inl (.inl rfl), fun _ => rfl⟩
  underWay := by rintro (h | h) <;> cases h
  due := fun _ => .inl rfl

/-- At the end of an instruction that neither turns interrupts off nor is a RETI, interrupts are on
    if they were before or if an EI came before the instruction. -/
theorem ime_iff_executed {instr : Instr} (h : Follow ime past l)
    (hdi : instr ≠ .disableInterrupts) (hreti : instr ≠ .retEnable) :
    (l.ime = true ∨ l.delay = true) ↔
      Since .retEnable (past ++ [.executed instr]) ∨ Granted (past ++ [.executed instr]) ∨
        (Undisturbed (past ++ [.executed instr]) ∧ ime = true) := by
  have hquiet := Activity.not_disables_of_ne hdi
  have hother : Activity.executed instr ≠ .executed .retEnable := by simpa using hreti
  have hsome : ∃ i, Activity.executed instr = .executed i := ⟨instr, rfl⟩
  rw [since_append, granted_append, undisturbed_append]
  constructor
  · rintro (hime | hdelay)
    · rcases h.ime_iff.mp hime with hsince | hgranted | hstart
      · exact .inl (.inr ⟨hsince, hquiet⟩)
      · exact .inr (.inl ⟨.inl hgranted, hquiet⟩)
      · exact .inr (.inr ⟨⟨hstart.1, hquiet⟩, hstart.2⟩)
    · exact .inr (.inl ⟨.inr ⟨h.underWay (.inr hdelay), hsome⟩, hquiet⟩)
  · rintro ((heq | ⟨hsince, -⟩) | ⟨hgranted | ⟨hei, -⟩, -⟩ | ⟨⟨hpast, -⟩, hime⟩)
    · exact absurd heq hother
    · exact .inl (h.ime_iff.mpr (.inl hsince))
    · exact .inl (h.ime_iff.mpr (.inr (.inl hgranted)))
    · exact h.due hei
    · exact .inl (h.ime_iff.mpr (.inr (.inr ⟨hpast, hime⟩)))

/-- EI starts an enabling, and ends one that was under way. -/
theorem enabled (h : Follow ime past l) :
    Follow ime (past ++ [.executed .enableInterrupts])
      ({ l with pending := true } : Latches).settle where
  ime_iff := by
    rw [← h.ime_iff_executed (by simp) (by simp)]
    cases hdelay : l.delay <;> simp [settle]
  underWay _ := since_append.mpr (.inl rfl)
  due _ := by
    cases hdelay : l.delay <;> simp [settle]

/-- Every other instruction lets an enabling go on. -/
theorem settled {instr : Instr} (h : Follow ime past l) (hei : instr ≠ .enableInterrupts)
    (hdi : instr ≠ .disableInterrupts) (hreti : instr ≠ .retEnable) :
    Follow ime (past ++ [.executed instr]) l.settle where
  ime_iff := by
    rw [← h.ime_iff_executed hdi hreti]
    cases hdelay : l.delay <;> cases hpending : l.pending <;> simp [settle, hdelay, hpending]
  underWay := by
    intro hlatch
    have hbefore : l.pending = true ∨ l.delay = true := by
      cases hdelay : l.delay <;> cases hpending : l.pending <;>
        simp [settle, hdelay, hpending] at hlatch ⊢
    exact since_append.mpr (.inr ⟨h.underWay hbefore, Activity.not_disables_of_ne hdi⟩)
  due := by
    rw [since_append]
    rintro (heq | ⟨hsince, -⟩)
    · exact absurd (Activity.executed.inj heq) hei
    · rcases h.due hsince with hime | hdelay
      · left
        cases hdelay : l.delay <;> cases hpending : l.pending <;>
          simp [settle, hdelay, hpending, hime]
      · simp [settle, hdelay]

/-- What one step preserves: the latches follow the history through every activity. -/
theorem step (h : Follow ime past l) (activity : Activity) :
    Follow ime (past ++ [activity]) (activity.latch l) := by
  cases activity with
  | idle => exact h.idle
  | serviced line => exact disabled trivial
  | executed instr =>
      by_cases hdi : instr = .disableInterrupts
      · subst hdi
        exact disabled trivial
      by_cases hei : instr = .enableInterrupts
      · subst hei
        exact h.enabled
      by_cases hreti : instr = .retEnable
      · subst hreti
        exact returned
      have hlatch : (Activity.executed instr).latch l = l.settle := by
        rw [Activity.latch, Instr.latch_of_ne hei hdi hreti]
      rw [hlatch]
      exact h.settled hei hdi hreti

end Latches.Follow

/-! ### Runs -/

/-- What a whole run preserves, by induction on its steps. -/
theorem Processor.Run.follow {σ : Type} [Bus σ] {p q : Processor} {past : List Activity}
    (hpending : p.enablePending = false) (hdelay : p.enableDelay = false) (h : Run σ p past q) :
    q.latches.Follow p.ime past := by
  induction h with
  | start =>
      have hlatches : p.latches = ⟨p.ime, false, false⟩ := by
        rw [latches, hpending, hdelay]
      rw [hlatches]
      exact Latches.Follow.start p.ime
  | step before bus hstep ih =>
      obtain ⟨hlatches, -⟩ := Core.latches_step (Prod.ext hstep rfl)
      rw [hlatches]
      exact ih.step _

/-- Interrupts after a run that began with no enabling under way. They are on exactly if, with
    nothing turning them off later, a RETI was executed, or an EI and a further instruction, or if
    nothing turned them off in the whole run and they were on at its start. And a line is only
    serviced in a step that begins with interrupts on. -/
theorem Processor.Run.interrupts_on_iff {σ : Type} [Bus σ] {p q : Processor} {past : List Activity}
    (hpending : p.enablePending = false) (hdelay : p.enableDelay = false) (h : Run σ p past q) :
    (q.ime = true ↔
      Since .retEnable past ∨ Granted past ∨ (Undisturbed past ∧ p.ime = true)) ∧
    ∀ (bus : σ) (report : Report) (line : LineSet), (Core.step ⟨q, bus⟩).1 = .ok report →
      report.activity = .serviced line → q.ime = true := by
  constructor
  · exact (h.follow hpending hdelay).ime_iff
  · intro bus report line hstep hserviced
    obtain ⟨-, hime⟩ := Core.latches_step (Prod.ext hstep rfl)
    exact hime line hserviced

/-- Memory that holds zeros, but EI at the start of work RAM. -/
def enablingProgram : FlatMemory :=
  ({} : FlatMemory).set 0xC000 0xFB

theorem get_enablingProgram (address : UInt16) :
    enablingProgram.get address = if address = 0xC000 then 0xFB else 0 := by
  rw [enablingProgram, FlatMemory.get_set, FlatMemory.get_blank]

/-- EI and the instruction after it. -/
theorem run_enablingProgram :
    Processor.Run FlatMemory { regs := { pc := 0xC000 } }
      [.executed .enableInterrupts, .executed .nop] { regs := { pc := 0xC002 }, ime := true } := by
  have hquiet : enablingProgram.get enableAddress &&& enablingProgram.get requestAddress &&& 0x1F =
      0 := by
    rw [get_enablingProgram, get_enablingProgram]
    rfl
  have hei : Core.step ⟨{ regs := { pc := 0xC000 } }, enablingProgram⟩ =
      Core.finish (.ok .enableInterrupts) ⟨{ regs := { pc := 0xC001 } }, enablingProgram⟩ := by
    apply Core.step_flat rfl rfl rfl rfl hquiet
    rw [get_enablingProgram]
    rfl
  have hnop : Core.step ⟨{ regs := { pc := 0xC001 }, enableDelay := true }, enablingProgram⟩ =
      Core.finish (.ok .nop)
        ⟨{ regs := { pc := 0xC002 }, enableDelay := true }, enablingProgram⟩ := by
    apply Core.step_flat rfl rfl rfl rfl hquiet
    rw [get_enablingProgram]
    rfl
  have first : Processor.Run FlatMemory { regs := { pc := 0xC000 } } [.executed .enableInterrupts]
      { regs := { pc := 0xC001 }, enableDelay := true } := Processor.Run.start.after hei
  exact first.after hnop

/-- The same memory with the V-blank line enabled and requested. -/
def requestingProgram : FlatMemory :=
  (enablingProgram.set enableAddress 1).set requestAddress 1

theorem serviced_requestingProgram :
    (Core.step ⟨{ regs := { pc := 0xC002 }, ime := true }, requestingProgram⟩).1 =
      .ok ⟨20, .serviced (.only .vblank)⟩ := by
  have henable : requestingProgram.get enableAddress = 1 := by
    rw [requestingProgram, FlatMemory.get_set_ne _ _ (by decide), FlatMemory.get_set_self]
  have hrequest : requestingProgram.get requestAddress = 1 := FlatMemory.get_set_self _ _ _
  have hlines : Core.pendingLines ⟨{ regs := { pc := 0xC002 }, ime := true }, requestingProgram⟩ =
      (.only .vblank, ⟨{ regs := { pc := 0xC002 }, ime := true }, requestingProgram⟩) := by
    apply Prod.ext
    · show LineSet.ofByte (requestingProgram.get enableAddress &&&
        requestingProgram.get requestAddress) = .only .vblank
      rw [henable, hrequest]
      rfl
    · rfl
  have hpoll : (Core.poll ⟨{ regs := { pc := 0xC002 }, ime := true }, requestingProgram⟩).1 =
      some (.only .vblank) := by
    unfold Core.poll
    rw [hlines]
    rfl
  unfold Core.step
  dsimp only
  rw [if_neg Bool.false_ne_true, Core.stepAwake_eq, hpoll]
  rfl

/-- EI and a NOP turn interrupts on, and a line that is requested then is serviced in the next
    step. -/
theorem interrupts_on_after_enablingProgram :
    Processor.Run FlatMemory { regs := { pc := 0xC000 } }
      [.executed .enableInterrupts, .executed .nop] { regs := { pc := 0xC002 }, ime := true } ∧
    Granted [.executed .enableInterrupts, .executed .nop] ∧
    ({ regs := { pc := 0xC002 }, ime := true } : Processor).ime = true ∧
    (Core.step ⟨{ regs := { pc := 0xC002 }, ime := true }, requestingProgram⟩).1 =
      .ok ⟨20, .serviced (.only .vblank)⟩ := by
  have hgranted : Granted [.executed .enableInterrupts, .executed .nop] :=
    ⟨[], [.executed .nop], rfl, by simp [Undisturbed, Activity.disables], .nop, by simp⟩
  have hime := (run_enablingProgram.interrupts_on_iff rfl rfl).1
  exact ⟨run_enablingProgram, hgranted, hime.mpr (.inr (.inl hgranted)), serviced_requestingProgram⟩

end Handheld
