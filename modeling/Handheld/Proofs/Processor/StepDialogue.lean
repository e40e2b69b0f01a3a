/-
Module: Handheld.Proofs.Processor.StepDialogue
Purpose: A step of the processor is a dialogue with its bus, in which no address but the request
  byte is written twice. Every part of a step has its own lemma here, from a single access up.
Main exports: Core.complete, Core.finish, Core.proceed, Core.resume, Core.speaks_execute,
  Core.speaks_fetch, Core.speaks_step, Core.exists_dialogue_step
-/
import Handheld.Processor.Step
import Handheld.Proofs.Processor.Dialogue

namespace Handheld

theorem Processor.regs_settleEnable (p : Processor) : p.settleEnable.regs = p.regs := by
  unfold settleEnable
  split
  · rfl
  · split <;> rfl

namespace Core

variable {α : Type} {address : UInt16} {n : Nat} (cpu : Processor)

/-! ### Accesses -/

theorem speaks_read (place : UInt16) : Speaks address n fun bus => read ⟨cpu, bus⟩ place :=
  ⟨.read place fun value => .done (value, cpu), fun _ => trivial, fun _ => rfl⟩

theorem speaks_write (result : α) (place : UInt16) (value : UInt8) :
    Speaks address 1 fun bus => (result, write ⟨cpu, bus⟩ place value) :=
  ⟨.write place value (.done (result, cpu)), Dialogue.writesAtMost_write (by trivial) _ _,
    fun _ => rfl⟩

theorem speaks_takeWake : Speaks address n fun bus => takeWake ⟨cpu, bus⟩ :=
  ⟨.takeWake fun wake => .done (wake, cpu), fun _ => trivial, fun _ => rfl⟩

theorem speaks_tell (result : α) (note : Note) :
    Speaks address n fun bus => (result, tell ⟨cpu, bus⟩ note) :=
  ⟨.hear note (.done (result, cpu)), trivial, fun _ => rfl⟩

theorem speaks_fetchByte : Speaks address n fun bus => fetchByte ⟨cpu, bus⟩ := by
  refine ⟨.read cpu.regs.pc fun value =>
    if cpu.haltBug then .done (value, { cpu with haltBug := false })
    else .done (value, { cpu with regs.pc := cpu.regs.pc + 1 }), ?_, ?_⟩
  · intro value
    split <;> trivial
  · intro σ _ bus
    simp only [fetchByte, Dialogue.runCore, Dialogue.run]
    cases h : cpu.haltBug with
    | false => simp [h, read, Dialogue.run, mapRegs]
    | true => simp [h, read, Dialogue.run]

theorem speaks_fetchWord : Speaks address n fun bus => fetchWord ⟨cpu, bus⟩ :=
  Speaks.bind (m := 0) (g := fun low m => (joinBytes m.fetchByte.1 low, m.fetchByte.2))
    (speaks_fetchByte cpu) fun low cpu =>
      Speaks.bind (m := 0) (g := fun high m => (joinBytes high low, m)) (speaks_fetchByte cpu)
        fun _ _ => .still fun _ => rfl

theorem speaks_load (src : Operand) : Speaks address n fun bus => load ⟨cpu, bus⟩ src := by
  cases src with
  | reg r => exact .still fun _ => rfl
  | atHL => exact speaks_read cpu cpu.regs.hl

theorem speaks_store (result : α) (dst : Operand) (value : UInt8) :
    Speaks address 1 fun bus => (result, store ⟨cpu, bus⟩ dst value) := by
  cases dst with
  | reg r => exact .still fun _ => rfl
  | atHL => exact speaks_write cpu result cpu.regs.hl value

theorem speaks_modify (result : α) (dst : Operand) (f : UInt8 → Bool → ByteResult) :
    Speaks address 1 fun bus => (result, modify ⟨cpu, bus⟩ dst f) :=
  Speaks.bind (m := 0)
    (g := fun value m =>
      let r := f value (m.cpu.regs.flag .carry)
      (result, (m.mapRegs fun regs => regs.setFlags r.flags).store dst r.value))
    (speaks_load cpu dst) fun value cpu =>
      let r := f value (cpu.regs.flag .carry)
      speaks_store { cpu with regs := cpu.regs.setFlags r.flags } result dst r.value

/-- The next address is another one. -/
theorem add_one_ne (w : UInt16) : w + 1 ≠ w := by
  intro h
  have hnat := congrArg UInt16.toNat h
  rw [UInt16.toNat_add] at hnat
  have hlt := w.toNat_lt
  have hone : (1 : UInt16).toNat = 1 := rfl
  omega

/-- So is the previous one. -/
theorem sub_one_ne (w : UInt16) : w - 1 ≠ w := by
  intro h
  apply add_one_ne w
  rw [← h, UInt16.sub_add_cancel, h]

/-- The two bytes of a pushed word go to different addresses. -/
theorem speaks_push (result : α) (value : UInt16) :
    Speaks address 1 fun bus => (result, push ⟨cpu, bus⟩ value) :=
  ⟨.write (cpu.regs.sp - 1) (highByte value) (.write (cpu.regs.sp - 1 - 1) (lowByte value)
    (.done (result, { cpu with regs.sp := cpu.regs.sp - 1 - 1 }))),
    Dialogue.writesAtMost_write_write (sub_one_ne _).symm (by trivial) _ _, fun _ => rfl⟩

theorem speaks_pop : Speaks address n fun bus => pop ⟨cpu, bus⟩ :=
  ⟨.read cpu.regs.sp fun low => .read (cpu.regs.sp + 1) fun high =>
    .done (joinBytes high low, { cpu with regs.sp := cpu.regs.sp + 2 }),
    fun _ _ => trivial, fun _ => rfl⟩

theorem speaks_pendingLines : Speaks address n fun bus => pendingLines ⟨cpu, bus⟩ :=
  ⟨.read enableAddress fun enable => .read requestAddress fun request =>
    .done (.ofByte (enable &&& request), cpu), fun _ _ => trivial, fun _ => rfl⟩

theorem speaks_resolve (place : Address) :
    Speaks address n fun bus => resolve ⟨cpu, bus⟩ place := by
  cases place <;> exact .still fun _ => rfl

/-- Pop an address and go there. -/
theorem speaks_return (result : α) :
    Speaks address n fun bus => (result, (pop ⟨cpu, bus⟩).2.jumpTo (pop ⟨cpu, bus⟩).1) :=
  Speaks.bind (m := 0) (g := fun target m => (result, m.jumpTo target)) (speaks_pop cpu)
    fun _ _ => .still fun _ => rfl

/-- Push the program counter and go elsewhere. -/
theorem speaks_enter (result : α) (target : UInt16) :
    Speaks address 1 fun bus => (result, (push ⟨cpu, bus⟩ cpu.regs.pc).jumpTo target) :=
  Speaks.bind (n := 0) (g := fun _ m => (result, m.jumpTo target))
    (speaks_push cpu () cpu.regs.pc) fun _ _ => .still fun _ => rfl

/-! ### Instructions -/

/-- HALT asks for the pending lines if interrupts are off. -/
theorem speaks_halt (result : α) :
    Speaks address n fun bus => (result, halt ⟨cpu, bus⟩) := by
  cases hime : cpu.ime with
  | false =>
      refine ⟨.read enableAddress fun enable => .read requestAddress fun request =>
        .done (result, if (LineSet.ofByte (enable &&& request)).bits = 0
          then { cpu with halted := true } else { cpu with haltBug := true }),
        fun _ _ => trivial, ?_⟩
      intro σ _ bus
      simp only [halt, hime, Dialogue.runCore, Dialogue.run, pendingLines, read]
      split
      · next h => exact absurd h Bool.false_ne_true
      · split <;> rfl
  | true =>
      refine ⟨.done (result, { cpu with halted := true }), trivial, ?_⟩
      intro σ _ bus
      simp only [halt, hime]
      rfl

/-- No instruction writes an address twice. -/
theorem speaks_execute (instr : Instr) :
    Speaks address 1 fun bus => execute ⟨cpu, bus⟩ instr := by
  cases instr with
  | nop => exact .still fun _ => rfl
  | halt => exact speaks_halt cpu 4
  | stop =>
      exact Speaks.bind (m := 0) (n := 1)
        (g := fun _ m => (4, { m with cpu.stopped := true, cpu.halted := false }))
        (speaks_takeWake cpu) fun _ cpu => .still fun _ => rfl
  | disableInterrupts => exact .still fun _ => rfl
  | enableInterrupts => exact .still fun _ => rfl
  | load dst src =>
      exact Speaks.bind (m := 0) (n := 1)
        (g := fun value m => (4 + max (dst.extraCycles 4) (src.extraCycles 4), m.store dst value))
        (speaks_load cpu src) fun value cpu => speaks_store cpu _ dst value
  | loadByte dst value => exact speaks_store cpu _ dst value
  | loadA src =>
      exact Speaks.bind (m := 0) (n := 1)
        (g := fun place m =>
          (src.cycles, (m.read place).2.mapRegs fun r => { r with a := (m.read place).1 }))
        (speaks_resolve cpu src) fun place cpu =>
          Speaks.bind (m := 0) (n := 1)
            (g := fun value m => (src.cycles, m.mapRegs fun r => { r with a := value }))
            (speaks_read cpu place) fun value cpu => .still fun _ => rfl
  | storeA dst =>
      exact Speaks.bind (m := 0) (n := 1)
        (g := fun place m => (dst.cycles, m.write place m.cpu.regs.a))
        (speaks_resolve cpu dst) fun place cpu => speaks_write cpu _ place cpu.regs.a
  | loadWord dst value => exact .still fun _ => rfl
  | storeSP place =>
      exact ⟨.write place (lowByte cpu.regs.sp) (.write (place + 1) (highByte cpu.regs.sp)
          (.done (20, cpu))),
        Dialogue.writesAtMost_write_write (add_one_ne place).symm (by trivial) _ _, fun _ => rfl⟩
  | loadSPFromHL => exact .still fun _ => rfl
  | loadHLFromSP offset => exact .still fun _ => rfl
  | push src => exact speaks_push cpu 16 (cpu.regs.stackPair src)
  | pop dst =>
      exact Speaks.bind (m := 0) (n := 1)
        (g := fun value m => (12, m.mapRegs fun r => r.setStackPair dst value))
        (speaks_pop cpu) fun value cpu => .still fun _ => rfl
  | arith op src =>
      exact Speaks.bind (m := 0) (n := 1)
        (g := fun value m => (4 + src.extraCycles 4,
          m.accept (op.apply m.cpu.regs.a value (m.cpu.regs.flag .carry))))
        (speaks_load cpu src) fun value cpu => .still fun _ => rfl
  | arithByte op value => exact .still fun _ => rfl
  | inc dst => exact speaks_modify cpu (4 + dst.extraCycles 8) dst incrementByte
  | dec dst => exact speaks_modify cpu (4 + dst.extraCycles 8) dst decrementByte
  | incWord dst => exact .still fun _ => rfl
  | decWord dst => exact .still fun _ => rfl
  | addHL src => exact .still fun _ => rfl
  | addSP offset => exact .still fun _ => rfl
  | decimalAdjust => exact .still fun _ => rfl
  | complement => exact .still fun _ => rfl
  | setCarry => exact .still fun _ => rfl
  | flipCarry => exact .still fun _ => rfl
  | rotateA op => exact .still fun _ => rfl
  | shift op dst => exact speaks_modify cpu (8 + dst.extraCycles 8) dst op.apply
  | testBit bit src =>
      exact Speaks.bind (m := 0) (n := 1)
        (g := fun value m => (8 + src.extraCycles 4,
          m.mapRegs fun r => r.setFlags (testBitFlags bit value (r.flag .carry))))
        (speaks_load cpu src) fun value cpu => .still fun _ => rfl
  | clearBit bit dst =>
      exact Speaks.bind (m := 0) (n := 1)
        (g := fun value m => (8 + dst.extraCycles 8, m.store dst (value &&& ~~~bitMask bit)))
        (speaks_load cpu dst) fun value cpu => speaks_store cpu _ dst _
  | setBit bit dst =>
      exact Speaks.bind (m := 0) (n := 1)
        (g := fun value m => (8 + dst.extraCycles 8, m.store dst (value ||| bitMask bit)))
        (speaks_load cpu dst) fun value cpu => speaks_store cpu _ dst _
  | jump condition target =>
      exact Speaks.ite (c := cpu.holds condition = true)
        (f := fun bus => (16, jumpTo ⟨cpu, bus⟩ target))
        (g := fun bus => (12, ⟨cpu, bus⟩)) (.still fun _ => rfl) (.still fun _ => rfl)
  | jumpHL => exact .still fun _ => rfl
  | jumpRelative condition offset =>
      exact Speaks.ite (c := cpu.holds condition = true)
        (f := fun bus => (12, jumpTo ⟨cpu, bus⟩ (cpu.regs.pc + signExtend offset)))
        (g := fun bus => (8, ⟨cpu, bus⟩)) (.still fun _ => rfl) (.still fun _ => rfl)
  | call condition target =>
      exact Speaks.ite (c := cpu.holds condition = true)
        (f := fun bus => (24, (push ⟨cpu, bus⟩ cpu.regs.pc).jumpTo target))
        (g := fun bus => (12, ⟨cpu, bus⟩)) (speaks_enter cpu 24 target) (.still fun _ => rfl)
  | ret condition =>
      cases condition with
      | none => exact speaks_return cpu 16
      | some condition =>
          exact Speaks.ite (c := cpu.holds (some condition) = true)
            (f := fun bus => (20, (pop ⟨cpu, bus⟩).2.jumpTo (pop ⟨cpu, bus⟩).1))
            (g := fun bus => (8, ⟨cpu, bus⟩)) (speaks_return cpu 20) (.still fun _ => rfl)
  | retEnable =>
      exact Speaks.bind (m := 0) (n := 1)
        (g := fun cycles m =>
          (cycles, { m with cpu := { m.cpu.disableInterrupts with ime := true } }))
        (speaks_return cpu 16) fun cycles cpu => .still fun _ => rfl
  | restart target => exact speaks_enter cpu 16 target.toUInt16

/-! ### Steps

A step is cut at its choices: what follows the opcode, what follows the fetch, what follows the look
for a pending line. -/

variable {σ : Type} [Bus σ]

/-- Fetch the immediate bytes that an opcode asks for. -/
def complete (opcode : UInt8) (m : Core σ) : Except Fault Instr × Core σ :=
  match decode opcode with
  | .complete instr => (.ok instr, m)
  | .withByte instr => (.ok (instr m.fetchByte.1), m.fetchByte.2)
  | .withWord instr => (.ok (instr m.fetchWord.1), m.fetchWord.2)
  | .extended => (.ok (decodeExtended m.fetchByte.1), m.fetchByte.2)
  | .illegal => (.error ⟨opcode, m.cpu.regs.pc - 1⟩, m)

/-- Execute what has been fetched, or lock up on it. -/
def finish (fetched : Except Fault Instr) (m : Core σ) : Except Fault Report × Core σ :=
  match fetched with
  | .error fault => (.error fault, m.lock fault)
  | .ok instr =>
    (.ok ⟨(m.execute instr).1, .executed instr⟩,
      { (m.execute instr).2 with cpu := (m.execute instr).2.cpu.settleEnable })

/-- What a step does once it is known whether a line has to be serviced. -/
def proceed (line : Option LineSet) (m : Core σ) : Except Fault Report × Core σ :=
  match line with
  | some line => (.ok ⟨20, .serviced line⟩, m.service line)
  | none => if m.cpu.halted then (.ok ⟨4, .idle⟩, m) else m.runInstruction

/-- What a stopped processor does once it is known whether it is to wake. -/
def resume (wake : Bool) (m : Core σ) : Except Fault Report × Core σ :=
  if wake then stepAwake { m.tell .leftStop with cpu.stopped := false } else (.ok ⟨4, .idle⟩, m)

theorem fetch_eq (m : Core σ) : m.fetch = complete m.fetchByte.1 m.fetchByte.2 := rfl

theorem runInstruction_eq (m : Core σ) : m.runInstruction = finish m.fetch.1 m.fetch.2 := by
  unfold runInstruction finish
  rcases m.fetch with ⟨_ | _, _⟩ <;> rfl

theorem stepAwake_eq (m : Core σ) : m.stepAwake = proceed m.poll.1 m.poll.2 := by
  unfold stepAwake proceed
  rcases m.poll with ⟨_ | _, _⟩ <;> rfl

theorem step_eq (m : Core σ) :
    m.step = match m.cpu.fault with
      | some fault => (.error fault, m)
      | none => if m.cpu.stopped then resume m.takeWake.1 m.takeWake.2 else m.stepAwake := rfl

theorem step_awake {m : Core σ} (hfault : m.cpu.fault = none) (hstopped : m.cpu.stopped = false) :
    m.step = m.stepAwake := by
  rw [step_eq, hfault]
  exact if_neg (by simp [hstopped])

/-- A step that services no line fetches an instruction and executes it. -/
theorem step_running {m polled : Core σ} (hfault : m.cpu.fault = none)
    (hstopped : m.cpu.stopped = false) (hpoll : m.poll = (none, polled))
    (hhalted : polled.cpu.halted = false) :
    m.step = finish polled.fetch.1 polled.fetch.2 := by
  rw [step_awake hfault hstopped, stepAwake_eq, hpoll, ← runInstruction_eq]
  exact if_neg (by simp [hhalted])

/-- The step of a processor that waits for nothing and has no line to service, for an opcode that is
    known. -/
theorem step_executing {m after : Core σ} {instr : Instr} (hfault : m.cpu.fault = none)
    (hstopped : m.cpu.stopped = false) (hhalted : m.cpu.halted = false)
    (hpoll : m.poll = (none, m)) (hfetch : m.fetch = (.ok instr, after)) :
    m.step = finish (.ok instr) after := by
  rw [step_running hfault hstopped hpoll hhalted, hfetch]

theorem speaks_complete (opcode : UInt8) :
    Speaks address n fun bus => complete opcode ⟨cpu, bus⟩ := by
  simp only [complete]
  cases decode opcode with
  | complete instr => exact .still fun _ => rfl
  | withByte instr =>
      exact Speaks.bind (m := 0) (g := fun value m => (Except.ok (instr value), m))
        (speaks_fetchByte cpu) fun value cpu => .still fun _ => rfl
  | withWord instr =>
      exact Speaks.bind (m := 0) (g := fun value m => (Except.ok (instr value), m))
        (speaks_fetchWord cpu) fun value cpu => .still fun _ => rfl
  | extended =>
      exact Speaks.bind (m := 0) (g := fun code m => (Except.ok (decodeExtended code), m))
        (speaks_fetchByte cpu) fun code cpu => .still fun _ => rfl
  | illegal => exact .still fun _ => rfl

theorem speaks_fetch : Speaks address n fun bus => fetch ⟨cpu, bus⟩ :=
  Speaks.bind (m := 0) (g := complete) (speaks_fetchByte cpu) fun opcode cpu =>
    speaks_complete cpu opcode

theorem speaks_finish (fetched : Except Fault Instr) :
    Speaks address 1 fun bus => finish fetched ⟨cpu, bus⟩ := by
  cases fetched with
  | error fault =>
      exact Speaks.bind (m := 0) (n := 1)
        (g := fun _ m => (Except.error fault, { m with cpu.fault := some fault }))
        (speaks_tell cpu () (.locked fault cpu.regs.sp cpu.regs.af cpu.regs.bc cpu.regs.de
          cpu.regs.hl))
        fun _ cpu => .still fun _ => rfl
  | ok instr =>
      exact Speaks.bind (n := 0)
        (g := fun cycles m =>
          (Except.ok (Report.mk cycles (.executed instr)), { m with cpu := m.cpu.settleEnable }))
        (speaks_execute cpu instr) fun cycles cpu => .still fun _ => rfl

theorem speaks_runInstruction : Speaks address 1 fun bus => runInstruction ⟨cpu, bus⟩ := by
  simp only [runInstruction_eq]
  exact Speaks.bind (m := 0) (g := finish) (speaks_fetch cpu) fun fetched cpu =>
    speaks_finish cpu fetched

theorem speaks_poll : Speaks address n fun bus => poll ⟨cpu, bus⟩ :=
  Speaks.bind (m := 0)
    (g := fun lines m =>
      if lines.bits = 0 then (none, m)
      else (if m.cpu.ime then lines.highest? else none, { m with cpu.halted := false }))
    (speaks_pendingLines cpu) fun lines cpu =>
      Speaks.ite (f := fun bus => (none, ⟨cpu, bus⟩))
        (g := fun bus => (if cpu.ime then lines.highest? else none,
          ⟨{ cpu with halted := false }, bus⟩))
        (.still fun _ => rfl) (.still fun _ => rfl)

/-- Servicing a line writes the request byte, and two bytes of the stack, which may be the request
    byte again. -/
theorem speaks_service (result : α) (line : LineSet) (h : address ≠ requestAddress) :
    Speaks address 1 fun bus => (result, service ⟨cpu, bus⟩ line) := by
  let target := returnAddress cpu
  let sp := cpu.regs.sp - 1 - 1
  refine ⟨.read requestAddress fun request =>
    .write requestAddress (request &&& ~~~line.bits)
      (.write (cpu.regs.sp - 1) (highByte target) (.write sp (lowByte target)
        (.hear (.interruptTaken line line.vector target sp)
          (.done (result, { cpu.disableInterrupts with
            haltBug := false
            regs := { cpu.regs with sp := sp, pc := line.vector } }))))), ?_, fun _ => rfl⟩
  intro request
  unfold Dialogue.WritesAtMost
  rw [if_neg h.symm]
  exact Dialogue.writesAtMost_write_write (sub_one_ne _).symm (by trivial) _ _

theorem speaks_proceed (line : Option LineSet) (h : address ≠ requestAddress) :
    Speaks address 1 fun bus => proceed line ⟨cpu, bus⟩ := by
  cases line with
  | none =>
      exact Speaks.ite (c := cpu.halted = true)
        (f := fun bus => (Except.ok (Report.mk 4 .idle), ⟨cpu, bus⟩))
        (g := fun bus => runInstruction ⟨cpu, bus⟩)
        (.still fun _ => rfl) (speaks_runInstruction cpu)
  | some line => exact speaks_service cpu _ line h

theorem speaks_stepAwake (h : address ≠ requestAddress) :
    Speaks address 1 fun bus => stepAwake ⟨cpu, bus⟩ := by
  simp only [stepAwake_eq]
  exact Speaks.bind (m := 0) (g := proceed) (speaks_poll cpu) fun line cpu =>
    speaks_proceed cpu line h

theorem speaks_resume (wake : Bool) (h : address ≠ requestAddress) :
    Speaks address 1 fun bus => resume wake ⟨cpu, bus⟩ := by
  cases wake with
  | false => exact .still fun _ => rfl
  | true =>
      simp only [resume, if_true]
      have hnext : ∀ (_ : Unit) (cpu : Processor), Speaks address 1 fun bus =>
          stepAwake ⟨{ cpu with stopped := false }, bus⟩ :=
        fun _ cpu => speaks_stepAwake { cpu with stopped := false } h
      exact Speaks.bind (m := 0) (n := 1) (f := fun bus => ((), tell ⟨cpu, bus⟩ .leftStop))
        (g := fun _ m => stepAwake { m with cpu.stopped := false }) (speaks_tell cpu () .leftStop)
        hnext

/-- A step is a dialogue with the bus. It writes no address twice, but for the request byte. -/
theorem speaks_step (h : address ≠ requestAddress) :
    Speaks address 1 fun bus => step ⟨cpu, bus⟩ := by
  unfold step
  dsimp only
  cases cpu.fault with
  | some fault => exact .still fun _ => rfl
  | none =>
      exact Speaks.ite (c := cpu.stopped = true)
        (f := fun bus => resume (takeWake ⟨cpu, bus⟩).1 (takeWake ⟨cpu, bus⟩).2)
        (g := fun bus => stepAwake ⟨cpu, bus⟩)
        (Speaks.bind (m := 0) (g := resume) (speaks_takeWake cpu) fun wake cpu =>
          speaks_resume cpu wake h)
        (speaks_stepAwake cpu h)

/-- The dialogue of a step is the same on every bus. -/
theorem exists_dialogue_step : ∃ d : Dialogue (Except Fault Report × Processor),
    ∀ {σ : Type} [Bus σ] (bus : σ), step ⟨cpu, bus⟩ = d.runCore bus := by
  -- which address is counted does not matter here
  have hne : (0 : UInt16) ≠ requestAddress := by decide
  obtain ⟨d, -, hrun⟩ := speaks_step cpu hne
  exact ⟨d, hrun⟩

end Core

end Handheld
