/-
Module: Handheld.Proofs.Processor.RepeatedFetch
Purpose: A HALT that did not halt makes the next byte count twice. On flat memory its next step is
  the step of a processor without the fault whose program counter is one less, on a memory that
  really holds the byte a second time, one address below.
Main exports: Core.dataAccesses, Processor.stepBack, FlatMemory.repeatByte, Core.step_haltBug
-/
import Handheld.Proofs.Processor.FlatStep

namespace Handheld

namespace Core

variable {σ : Type}

/-- The same state, with its bus watched from here on. -/
def watch (m : Core σ) : Core (Watched σ) :=
  ⟨m.cpu, ⟨m.bus, []⟩⟩

/-- The addresses that an instruction or the servicing of a line reads or writes in a step, apart
    from the look for pending lines and the fetch of the instruction. -/
def dataAccesses [Bus σ] (m : Core σ) : List UInt16 :=
  match m.poll with
  | (some line, m) => (m.watch.service line).bus.touched
  | (none, m) =>
    match m.fetch with
    | (.error _, _) => []
    | (.ok instr, m) => (m.watch.execute instr).2.bus.touched

end Core

/-- The processor one byte further back, and free of the fault of a HALT that did not halt. -/
def Processor.stepBack (p : Processor) : Processor :=
  { p with haltBug := false, regs.pc := p.regs.pc - 1 }

/-- Memory that holds the byte at an address at the address below, too. -/
def FlatMemory.repeatByte (m : FlatMemory) (address : UInt16) : FlatMemory :=
  m.set (address - 1) (m.get address)

/-- What two runs of the same step have in common: the result, the processor, and every byte of
    memory but one. -/
def Core.SameOff {α : Type} (address : UInt16) (r r' : α × Core FlatMemory) : Prop :=
  r.1 = r'.1 ∧ r.2.cpu = r'.2.cpu ∧ r.2.bus.AgreesOff address r'.2.bus

namespace Core

variable {address : UInt16} {mem mem' : FlatMemory}

theorem dataAccesses_of_line {m m' : Core FlatMemory} {line : LineSet}
    (hpoll : m.poll = (some line, m')) :
    m.dataAccesses = (m'.watch.service line).bus.touched := by
  rw [dataAccesses, hpoll]

theorem dataAccesses_of_fetch {m m' fetched : Core FlatMemory} {instr : Instr}
    (hpoll : m.poll = (none, m')) (hfetch : m'.fetch = (.ok instr, fetched)) :
    m.dataAccesses = (fetched.watch.execute instr).2.bus.touched := by
  rw [dataAccesses, hpoll]
  dsimp only
  rw [hfetch]

/-! ### The look for pending lines -/

theorem poll_flat (p : Processor) (hhalted : p.halted = false) (mem : FlatMemory) :
    (poll ⟨p, mem⟩).2 = ⟨p, mem⟩ := by
  have hrunning : ({ p with halted := false } : Processor) = p := by
    rw [← hhalted]
  unfold poll
  dsimp only
  split
  · rfl
  · exact congrArg (fun p => Core.mk p mem) hrunning

/-- The look depends on the enable, the enable byte and the request byte alone. -/
theorem poll_congr {p q : Processor} (hime : p.ime = q.ime) (h : mem.AgreesOff address mem')
    (henable : address ≠ enableAddress) (hrequest : address ≠ requestAddress) :
    (poll ⟨p, mem⟩).1 = (poll ⟨q, mem'⟩).1 := by
  have hlines : (pendingLines ⟨p, mem⟩).1 = (pendingLines ⟨q, mem'⟩).1 := by
    have hread := h.get_eq enableAddress henable.symm
    have hread' := h.get_eq requestAddress hrequest.symm
    simp only [pendingLines, read, Bus.read]
    rw [hread, hread']
  unfold poll
  dsimp only
  rw [hlines]
  split
  · rfl
  · have henabled : (pendingLines ⟨p, mem⟩).2.cpu.ime = (pendingLines ⟨q, mem'⟩).2.cpu.ime := hime
    simp only [henabled]

/-! ### Servicing a line -/

/-- The pushed address is the one below the byte that would be read twice. -/
theorem service_stepBack {σ : Type} [Bus σ] {p : Processor} (hbug : p.haltBug = true) (bus : σ)
    (line : LineSet) : service ⟨p, bus⟩ line = service ⟨p.stepBack, bus⟩ line := by
  have htarget : returnAddress p.disableInterrupts = returnAddress p.stepBack.disableInterrupts := by
    simp [returnAddress, Processor.disableInterrupts, Processor.stepBack, hbug]
  unfold service
  simp only [read, write] at *
  rw [htarget]
  rfl

/-! ### Fetching -/

theorem fetchByte_haltBug {p : Processor} (hbug : p.haltBug = true) (mem : FlatMemory) :
    fetchByte ⟨p, mem⟩ = (mem.get p.regs.pc, ⟨{ p with haltBug := false }, mem⟩) := by
  simp [fetchByte, read, Bus.read, hbug]

theorem fetchByte_stepBack (p : Processor) (mem : FlatMemory) :
    fetchByte ⟨p.stepBack, mem⟩ = (mem.get (p.regs.pc - 1), ⟨{ p with haltBug := false }, mem⟩) := by
  have hpc : p.regs.pc - 1 + 1 = p.regs.pc := UInt16.sub_add_cancel _ _
  simp [fetchByte, read, Bus.read, Processor.stepBack, mapRegs, hpc]

/-- The immediate bytes of an instruction stand at the program counter and the address above. -/
theorem touched_complete (opcode : UInt8) {p : Processor} (hbug : p.haltBug = false)
    (mem : FlatMemory) (other : UInt16)
    (h : other ∈ (complete opcode (watch ⟨p, mem⟩)).2.bus.touched) :
    other = p.regs.pc ∨ other = p.regs.pc + 1 := by
  unfold complete at h
  cases hform : decode opcode with
  | complete instr => simp [hform, watch] at h
  | withByte instr =>
      simp [hform, watch, fetchByte, read, Bus.read, hbug, mapRegs] at h
      exact .inl h
  | withWord instr =>
      simp [hform, watch, fetchWord, fetchByte, read, Bus.read, hbug, mapRegs] at h
      exact h.symm
  | extended =>
      simp [hform, watch, fetchByte, read, Bus.read, hbug, mapRegs] at h
      exact .inl h
  | illegal => simp [hform, watch] at h

/-! ### Agreement of the two steps -/

theorem sub_one_ne_add_one (w : UInt16) : w - 1 ≠ w + 1 := by
  intro h
  have hnat := congrArg UInt16.toNat (congrArg (· + 1) h)
  have hlt := w.toNat_lt
  have hone : (1 : UInt16).toNat = 1 := rfl
  simp only [UInt16.sub_add_cancel, UInt16.toNat_add] at hnat
  omega

/-- From here on the two processors are the same, and fetch the same immediate bytes. -/
theorem sameOff_complete (opcode : UInt8) {p : Processor} (hbug : p.haltBug = false)
    (h : mem.AgreesOff (p.regs.pc - 1) mem') :
    SameOff (p.regs.pc - 1) (complete opcode ⟨p, mem⟩) (complete opcode ⟨p, mem'⟩) := by
  have hspeaks : Speaks 0 0 fun bus => complete opcode ⟨p, bus⟩ := speaks_complete p opcode
  apply hspeaks.agree [] h
  intro hmem
  rcases touched_complete opcode hbug mem _ hmem with heq | heq
  · exact sub_one_ne _ heq
  · exact sub_one_ne_add_one _ heq

theorem SameOff.finish {r r' : Except Fault Instr × Core FlatMemory} (h : SameOff address r r')
    (hdata : ∀ instr, r.1 = .ok instr → address ∉ (execute r.2.watch instr).2.bus.touched) :
    SameOff address (Core.finish r.1 r.2) (Core.finish r'.1 r'.2) := by
  obtain ⟨fetched, p, mem⟩ := r
  obtain ⟨fetched', p', mem'⟩ := r'
  obtain ⟨hfetched, hp, hagree⟩ := h
  dsimp only at hfetched hp hagree hdata ⊢
  subst hfetched hp
  have hspeaks : Speaks 0 1 fun bus => Core.finish fetched ⟨p, bus⟩ := speaks_finish p fetched
  apply hspeaks.agree [] hagree
  cases fetched with
  | error fault => exact List.not_mem_nil
  | ok instr => exact hdata instr rfl

/-- A line is serviced alike. -/
theorem sameOff_service {p : Processor} (hbug : p.haltBug = true) (line : LineSet)
    (h : mem.AgreesOff address mem')
    (hdata : address ∉ (service (watch ⟨p, mem⟩) line).bus.touched) :
    SameOff address (proceed (some line) ⟨p, mem⟩) (proceed (some line) ⟨p.stepBack, mem'⟩) := by
  have hspeaks : Speaks 0 1 fun bus => proceed (some line) ⟨p, bus⟩ :=
    speaks_proceed p (some line) (by decide)
  have hback : proceed (some line) ⟨p, mem'⟩ = proceed (some line) ⟨p.stepBack, mem'⟩ :=
    congrArg (Prod.mk (Except.ok (Report.mk 20 (.serviced line)))) (service_stepBack hbug mem' line)
  rw [← hback]
  exact hspeaks.agree [] h hdata

/-- An instruction is fetched and executed alike. -/
theorem sameOff_runInstruction {p : Processor} (hbug : p.haltBug = true)
    (hdata : ∀ instr, (fetch ⟨p, mem⟩).1 = .ok instr →
      p.regs.pc - 1 ∉ (execute (fetch ⟨p, mem⟩).2.watch instr).2.bus.touched) :
    SameOff (p.regs.pc - 1) (runInstruction ⟨p, mem⟩)
      (runInstruction ⟨p.stepBack, mem.repeatByte p.regs.pc⟩) := by
  have hleft : fetch ⟨p, mem⟩ = complete (mem.get p.regs.pc) ⟨{ p with haltBug := false }, mem⟩ := by
    rw [fetch_eq, fetchByte_haltBug hbug]
  have hright : fetch ⟨p.stepBack, mem.repeatByte p.regs.pc⟩ =
      complete (mem.get p.regs.pc) ⟨{ p with haltBug := false }, mem.repeatByte p.regs.pc⟩ := by
    rw [fetch_eq, fetchByte_stepBack, FlatMemory.repeatByte, FlatMemory.get_set_self]
  have hagree := mem.agreesOff_set (p.regs.pc - 1) (mem.get p.regs.pc)
  have hfetch := sameOff_complete (mem.get p.regs.pc) (p := { p with haltBug := false }) rfl hagree
  rw [runInstruction_eq, runInstruction_eq, hright]
  rw [hleft] at hdata ⊢
  exact hfetch.finish hdata

/-- The next step of a processor on which HALT did not halt, as a step of a processor without that
    fault. The two give the same result, cycles or fault, the same processor, and the same memory
    off the address below the program counter, where the second memory has a copy of the next byte.
    The step must not read or write data at that address, and the address must not be that of the
    enable or the request byte, at which every step looks. -/
theorem step_haltBug (p : Processor) (mem : FlatMemory) (hbug : p.haltBug = true)
    (hfault : p.fault = none) (hstopped : p.stopped = false) (hhalted : p.halted = false)
    (henable : p.regs.pc - 1 ≠ enableAddress) (hrequest : p.regs.pc - 1 ≠ requestAddress)
    (hdata : p.regs.pc - 1 ∉ dataAccesses ⟨p, mem⟩) :
    SameOff (p.regs.pc - 1) (step ⟨p, mem⟩) (step ⟨p.stepBack, mem.repeatByte p.regs.pc⟩) := by
  have hagree : mem.AgreesOff (p.regs.pc - 1) (mem.repeatByte p.regs.pc) :=
    mem.agreesOff_set (p.regs.pc - 1) (mem.get p.regs.pc)
  have hline := poll_congr (p := p) (q := p.stepBack) rfl hagree henable hrequest
  have hpoll := poll_flat p hhalted mem
  have hpoll' := poll_flat p.stepBack hhalted (mem.repeatByte p.regs.pc)
  rw [step_awake hfault hstopped, step_awake (m := ⟨p.stepBack, _⟩) hfault hstopped, stepAwake_eq,
    stepAwake_eq, hpoll, hpoll', ← hline]
  cases hdue : (poll ⟨p, mem⟩).1 with
  | some line =>
      have hcase : poll ⟨p, mem⟩ = (some line, ⟨p, mem⟩) := Prod.ext hdue hpoll
      rw [dataAccesses_of_line hcase] at hdata
      exact sameOff_service hbug line hagree hdata
  | none =>
      have hcase : poll ⟨p, mem⟩ = (none, ⟨p, mem⟩) := Prod.ext hdue hpoll
      have hrunning : ∀ mem : FlatMemory, proceed none ⟨p, mem⟩ = runInstruction ⟨p, mem⟩ :=
        fun mem => if_neg (by simp [hhalted])
      have hrunning' : ∀ mem : FlatMemory,
          proceed none ⟨p.stepBack, mem⟩ = runInstruction ⟨p.stepBack, mem⟩ :=
        fun mem => if_neg (by simp [hhalted, Processor.stepBack])
      rw [hrunning, hrunning']
      apply sameOff_runInstruction hbug
      intro instr hinstr
      have hfetch : fetch ⟨p, mem⟩ = (.ok instr, (fetch ⟨p, mem⟩).2) := Prod.ext hinstr rfl
      rw [dataAccesses_of_fetch hcase hfetch] at hdata
      exact hdata

/-- A load of A from an address whose low byte is the opcode once more. -/
def repeatedLoad : FlatMemory :=
  (({} : FlatMemory).set 0xC001 0xFA).set 0xC002 0xC0

theorem get_repeatedLoad (place : UInt16) :
    repeatedLoad.get place = if place = 0xC002 then 0xC0 else if place = 0xC001 then 0xFA else 0 := by
  rw [repeatedLoad, FlatMemory.get_set, FlatMemory.get_set, FlatMemory.get_blank]

theorem dataAccesses_repeatedLoad :
    dataAccesses ⟨{ regs := { pc := 0xC001 }, haltBug := true }, repeatedLoad⟩ = [0xC0FA] := by
  have hpoll : poll ⟨{ regs := { pc := 0xC001 }, haltBug := true }, repeatedLoad⟩ =
      (none, ⟨{ regs := { pc := 0xC001 }, haltBug := true }, repeatedLoad⟩) := by
    apply poll_quiet
    rw [get_repeatedLoad, get_repeatedLoad]
    rfl
  have hfetch : fetch ⟨{ regs := { pc := 0xC001 }, haltBug := true }, repeatedLoad⟩ =
      (.ok (.loadA (.absolute 0xC0FA)), ⟨{ regs := { pc := 0xC003 } }, repeatedLoad⟩) := by
    have hform : decode 0xFA = .withWord fun address => .loadA (.absolute address) := rfl
    rw [fetch_eq, fetchByte_haltBug rfl, get_repeatedLoad]
    simp [complete, hform, fetchWord, fetchByte, read, Bus.read, mapRegs, get_repeatedLoad]
    rfl
  rw [dataAccesses_of_fetch hpoll hfetch]
  rfl

theorem step_haltBug_repeatedLoad :
    SameOff 0xC000 (step ⟨{ regs := { pc := 0xC001 }, haltBug := true }, repeatedLoad⟩)
      (step ⟨{ regs := { pc := 0xC000 } }, repeatedLoad.repeatByte 0xC001⟩) := by
  apply step_haltBug { regs := { pc := 0xC001 }, haltBug := true } repeatedLoad rfl rfl rfl rfl
  · decide
  · decide
  · rw [dataAccesses_repeatedLoad]
    decide

end Core

end Handheld
