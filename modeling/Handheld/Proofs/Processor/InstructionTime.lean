/-
Module: Handheld.Proofs.Processor.InstructionTime
Purpose: How long an instruction is, where it leaves the program counter, and how long it takes.
  What an instruction does on a watched memory is told instruction by instruction, and the table of
  opcodes turns it into a statement about the bytes that stand at the program counter.
Main exports: Destination.target, Instr.operands, Core.traffic, Core.cycles_execute,
  Core.touched_execute, Core.pc_execute, Core.fetch_watched, Core.FollowsTable, Core.step_tabled
-/
import Handheld.Proofs.Processor.OpcodeTable
import Handheld.Proofs.Processor.RepeatedFetch

namespace Handheld

/-! ### Branches -/

/-- Where a branch leads, on flat memory and with the following instruction at `next`. -/
def Destination.target (regs : Registers) (mem : FlatMemory) (next : UInt16) : Destination → UInt16
  | .address target => target
  | .relative offset => next + offset.toInt8.toInt16.toUInt16
  | .atHL => joinBytes regs.h regs.l
  | .stacked => joinBytes (mem.get (regs.sp + 1)) (mem.get regs.sp)

theorem signExtend_eq (x : UInt8) : signExtend x = x.toInt8.toInt16.toUInt16 := by
  have h : ∀ bits : BitVec 8, signExtend (UInt8.ofBitVec bits) =
      (UInt8.ofBitVec bits).toInt8.toInt16.toUInt16 := by
    decide +kernel
  exact h x.toBitVec

/-- A branch is taken when the processor says that its condition holds. -/
theorem Branch.taken_eq (p : Processor) (branch : Branch) :
    branch.taken p.regs.f = p.holds branch.condition := by
  have hflag : ∀ bits : BitVec 8,
      (UInt8.ofBitVec bits).toNat.testBit 7 = (UInt8.ofBitVec bits &&& 0x80 != 0) ∧
        (UInt8.ofBitVec bits).toNat.testBit 4 = (UInt8.ofBitVec bits &&& 0x10 != 0) := by
    decide +kernel
  rcases hflag p.regs.f.toBitVec with ⟨hzero, hcarry⟩
  obtain ⟨condition, destination, links⟩ := branch
  cases condition with
  | none => rfl
  | some condition =>
      cases condition with
      | nonZero => exact congrArg (!·) hzero
      | zero => exact hzero
      | noCarry => exact congrArg (!·) hcarry
      | carry => exact hcarry

namespace Registers

@[simp] theorem pc_set (r : Registers) (reg : Reg) (value : UInt8) :
    (r.set reg value).pc = r.pc := by
  cases reg <;> rfl

@[simp] theorem pc_setPair (r : Registers) (pair : Pair) (value : UInt16) :
    (r.setPair pair value).pc = r.pc := by
  cases pair <;> rfl

@[simp] theorem pc_setStackPair (r : Registers) (pair : StackPair) (value : UInt16) :
    (r.setStackPair pair value).pc = r.pc := by
  cases pair <;> rfl

@[simp] theorem pc_setFlags (r : Registers) (flags : Flags) : (r.setFlags flags).pc = r.pc := rfl

@[simp] theorem pc_setFlag (r : Registers) (flag : Flag) (b : Bool) :
    (r.setFlag flag b).pc = r.pc := rfl

@[simp] theorem pc_setHL (r : Registers) (value : UInt16) : (r.setHL value).pc = r.pc := rfl

end Registers

/-! ### Instructions -/

/-- The address of an operand, if it is in memory. -/
def Operand.places (regs : Registers) : Operand → List UInt16
  | .reg _ => []
  | .atHL => [regs.hl]

/-- The address of the byte of A. -/
def Address.place (regs : Registers) : Address → UInt16
  | .bc => regs.bc
  | .de => regs.de
  | .hlThenUp | .hlThenDown => regs.hl
  | .high offset => 0xFF00 ||| offset.toUInt16
  | .highC => 0xFF00 ||| regs.c.toUInt16
  | .absolute address => address

/-- The addresses of the memory bytes that an instruction reads or writes as operands, in order. -/
def Instr.operands (p : Processor) : Instr → List UInt16
  | .load dst src => src.places p.regs ++ dst.places p.regs
  | .loadByte dst _ => dst.places p.regs
  | .arith _ src | .testBit _ src => src.places p.regs
  | .inc dst | .dec dst | .shift _ dst | .clearBit _ dst | .setBit _ dst =>
    dst.places p.regs ++ dst.places p.regs
  | .loadA place | .storeA place => [place.place p.regs]
  | .storeSP address => [address, address + 1]
  | .push _ | .restart _ => [p.regs.sp - 1, p.regs.sp - 1 - 1]
  | .pop _ | .ret none | .retEnable => [p.regs.sp, p.regs.sp + 1]
  | .call condition _ => if p.holds condition then [p.regs.sp - 1, p.regs.sp - 1 - 1] else []
  | .ret (some condition) => if p.holds (some condition) then [p.regs.sp, p.regs.sp + 1] else []
  | _ => []

/-- The look of HALT at the enable byte and the request byte, if interrupts are off. -/
def Instr.looks (p : Processor) : Instr → List UInt16
  | .halt => if p.ime then [] else [enableAddress, requestAddress]
  | _ => []

/-- The branch of an instruction, if it has one and it is taken. -/
def Instr.takenBranch? (f : UInt8) (instr : Instr) : Option Branch :=
  instr.branch?.filter (Branch.taken f)

namespace Core

section
variable {σ : Type} [Bus σ]

/-- Four cycles for each byte of the instruction and for each byte of its operands, and the cycles
    inside the processor. -/
theorem cycles_execute (m : Core σ) {instr : Instr} (hstop : instr ≠ .stop)
    (hload : instr ≠ .load .atHL .atHL) :
    (m.execute instr).1 = 4 * (instr.length + (instr.operands m.cpu).length) +
      instr.internalCycles (instr.takenBranch? m.cpu.regs.f).isSome := by
  cases instr with
  | stop => exact absurd rfl hstop
  | load dst src =>
      cases dst <;> cases src
      case atHL.atHL => exact absurd rfl hload
      all_goals rfl
  | loadByte o value | arith op o | testBit bit o | inc o | dec o | shift op o | clearBit bit o
  | setBit bit o => cases o <;> rfl
  | loadA place | storeA place => cases place <;> rfl
  | jump condition target | jumpRelative condition target | call condition target =>
      -- both sides hang on the condition: the cycles by the processor, the table by the flags
      unfold Instr.operands Instr.internalCycles
      simp only [execute, Instr.takenBranch?, Instr.branch?, Option.filter_some, Branch.taken_eq]
      cases m.cpu.holds condition <;> rfl
  | ret condition =>
      cases condition with
      | none => rfl
      | some condition =>
          unfold Instr.operands Instr.internalCycles
          simp only [execute, Instr.takenBranch?, Instr.branch?, Option.filter_some,
            Branch.taken_eq]
          cases m.cpu.holds (some condition) <;> rfl
  | _ => rfl

/-- An instruction asks for its operands alone, but for the look of HALT at the pending lines. -/
theorem touched_execute (m : Core (Watched σ)) (instr : Instr) :
    (m.execute instr).2.bus.touched =
      (instr.operands m.cpu ++ instr.looks m.cpu).reverse ++ m.bus.touched := by
  cases instr with
  | load dst src => cases dst <;> cases src <;> rfl
  | loadByte o value | arith op o | testBit bit o | inc o | dec o | shift op o | clearBit bit o
  | setBit bit o => cases o <;> rfl
  | loadA place | storeA place => cases place <;> rfl
  | jump condition target | jumpRelative condition target | call condition target =>
      unfold Instr.operands
      simp only [execute]
      cases m.cpu.holds condition <;> rfl
  | ret condition =>
      cases condition with
      | none => rfl
      | some condition =>
          unfold Instr.operands
          simp only [execute]
          cases m.cpu.holds (some condition) <;> rfl
  | halt =>
      simp only [execute, halt, Instr.looks]
      cases m.cpu.ime with
      | true => rfl
      | false =>
          simp only [Bool.false_eq_true, if_false]
          split <;> rfl
  | _ => rfl

end

/-- Control leaves the following instruction by a branch that is taken, and in no other way. -/
theorem pc_execute (p : Processor) (mem : FlatMemory) (seen : List UInt16) (instr : Instr) :
    (execute ⟨p, (⟨mem, seen⟩ : Watched FlatMemory)⟩ instr).2.cpu.regs.pc =
      match instr.takenBranch? p.regs.f with
      | some branch => branch.destination.target p.regs mem p.regs.pc
      | none => p.regs.pc := by
  cases instr with
  | jump condition target | call condition target =>
      simp only [execute, Instr.takenBranch?, Instr.branch?, Option.filter_some, Branch.taken_eq]
      cases p.holds condition <;> rfl
  | jumpRelative condition offset =>
      simp only [execute, Instr.takenBranch?, Instr.branch?, Option.filter_some, Branch.taken_eq]
      cases p.holds condition with
      | false => rfl
      | true => exact congrArg (p.regs.pc + ·) (signExtend_eq offset)
  | ret condition =>
      cases condition with
      | none => rfl
      | some condition =>
          simp only [execute, Instr.takenBranch?, Instr.branch?, Option.filter_some,
            Branch.taken_eq]
          cases p.holds (some condition) <;> rfl
  | load dst src =>
      cases dst <;> cases src <;>
        simp [execute, load, store, mapRegs, read, write, Instr.takenBranch?, Instr.branch?]
  | loadByte o value | arith op o | testBit bit o | inc o | dec o | shift op o | clearBit bit o
  | setBit bit o =>
      cases o <;>
        simp [execute, modify, load, store, mapRegs, read, write, accept, Instr.takenBranch?,
          Instr.branch?]
  | loadA place | storeA place => cases place <;> rfl
  | halt =>
      simp only [execute, halt, Instr.takenBranch?, Instr.branch?]
      split
      · rfl
      · split <;> rfl
  | pop dst => simp [execute, Instr.takenBranch?, Instr.branch?, mapRegs, pop, read]
  | loadWord dst value | incWord dst | decWord dst =>
      simp [execute, mapRegs, Instr.takenBranch?, Instr.branch?]
  | _ => rfl

/-- A branch that links pushes the program counter. -/
theorem link_execute (p : Processor) (mem : FlatMemory) (seen : List UInt16) {instr : Instr}
    {branch : Branch} (htaken : instr.takenBranch? p.regs.f = some branch)
    (hlinks : branch.links = true) :
    (execute ⟨p, (⟨mem, seen⟩ : Watched FlatMemory)⟩ instr).2.cpu.regs.sp = p.regs.sp - 1 - 1 ∧
      (execute ⟨p, (⟨mem, seen⟩ : Watched FlatMemory)⟩ instr).2.bus.bus =
        (mem.set (p.regs.sp - 1) (highByte p.regs.pc)).set (p.regs.sp - 1 - 1)
          (lowByte p.regs.pc) := by
  obtain ⟨hbranch, hholds⟩ := Option.filter_eq_some_iff.mp htaken
  cases instr with
  | call condition target =>
      cases hbranch
      rw [Branch.taken_eq] at hholds
      simp only [execute]
      rw [if_pos hholds]
      exact ⟨rfl, rfl⟩
  | restart target => exact ⟨rfl, rfl⟩
  | _ =>
      cases hbranch
      try cases hlinks

/-! ### Fetching -/

/-- The addresses of the bytes of an instruction. -/
def instructionBytes (pc : UInt16) (length : Nat) : List UInt16 :=
  (List.range length).map fun i => pc + UInt16.ofNat i

variable {p : Processor} {mem : FlatMemory} (seen : List UInt16)

theorem fetchByte_watched (hbug : p.haltBug = false) :
    fetchByte ⟨p, (⟨mem, seen⟩ : Watched FlatMemory)⟩ =
      (mem.get p.regs.pc, ⟨{ p with regs.pc := p.regs.pc + 1 }, ⟨mem, p.regs.pc :: seen⟩⟩) := by
  simp [fetchByte, read, Bus.read, mapRegs, hbug]

/-- All bytes of an instruction are fetched before it is executed. -/
theorem fetch_watched (hbug : p.haltBug = false) :
    fetch ⟨p, (⟨mem, seen⟩ : Watched FlatMemory)⟩ =
      (match (decode (mem.get p.regs.pc)).instr? (mem.get (p.regs.pc + 1))
          (mem.get (p.regs.pc + 2)) with
        | some instr => .ok instr
        | none => .error ⟨mem.get p.regs.pc, p.regs.pc⟩,
      ⟨{ p with regs.pc := p.regs.pc + UInt16.ofNat (decode (mem.get p.regs.pc)).length },
        ⟨mem, (instructionBytes p.regs.pc (decode (mem.get p.regs.pc)).length).reverse ++
          seen⟩⟩) := by
  have htwo : p.regs.pc + 1 + 1 = p.regs.pc + 2 := by grind
  have hthree : p.regs.pc + 2 + 1 = p.regs.pc + 3 := by grind
  rw [fetch_eq, fetchByte_watched seen hbug]
  unfold complete
  cases decode (mem.get p.regs.pc) with
  | complete instr => simp [Form.instr?, Form.length, instructionBytes]
  | withByte instr =>
      dsimp only
      rw [fetchByte_watched (p := { p with regs.pc := p.regs.pc + 1 }) _ hbug]
      simp [Form.instr?, Form.length, instructionBytes, htwo, List.range_succ]
  | withWord instr =>
      dsimp only [fetchWord]
      rw [fetchByte_watched (p := { p with regs.pc := p.regs.pc + 1 }) _ hbug]
      dsimp only
      rw [fetchByte_watched (p := { p with regs.pc := p.regs.pc + 1 + 1 }) _ hbug]
      simp [Form.instr?, Form.length, instructionBytes, htwo, hthree, List.range_succ]
  | extended =>
      dsimp only
      rw [fetchByte_watched (p := { p with regs.pc := p.regs.pc + 1 }) _ hbug]
      simp [Form.instr?, Form.length, instructionBytes, htwo, List.range_succ]
  | illegal => simp [Form.instr?, Form.length, instructionBytes]

/-! ### Steps -/

/-- The look for pending lines, when it finds none to service. -/
theorem poll_watched (hhalted : p.halted = false)
    (hquiet : p.ime = false ∨ mem.get enableAddress &&& mem.get requestAddress &&& 0x1F = 0) :
    poll (watch ⟨p, mem⟩) = (none, ⟨p, ⟨mem, [requestAddress, enableAddress]⟩⟩) := by
  have hrunning : ({ p with halted := false } : Processor) = p := by
    rw [← hhalted]
  unfold poll
  dsimp only [pendingLines, watch, read, Bus.read]
  split
  · rfl
  · next hlines =>
    rcases hquiet with hime | hzero
    · rw [if_neg (by simp [hime]), hrunning]
    · exact absurd hzero hlines

/-- Watching a step does not change it. -/
theorem step_watch {σ : Type} [Bus σ] (m : Core σ) :
    m.watch.step.1 = m.step.1 ∧ m.watch.step.2.cpu = m.step.2.cpu ∧
      m.watch.step.2.bus.bus = m.step.2.bus := by
  obtain ⟨d, hrun⟩ := exists_dialogue_step m.cpu
  have hplain : m.step = d.runCore m.bus := hrun m.bus
  have hwatched : m.watch.step = d.runCore (⟨m.bus, []⟩ : Watched σ) := hrun _
  rw [hplain, hwatched, Dialogue.runCore, Dialogue.run_watched]
  exact ⟨rfl, rfl, rfl⟩

/-- The addresses that a step asks of its bus, in order. -/
def traffic {σ : Type} [Bus σ] (m : Core σ) : List UInt16 :=
  m.watch.step.2.bus.touched.reverse

/-- The branch of the instruction at the program counter, if there is one and it is taken. -/
def takenBranch? (p : Processor) (mem : FlatMemory) : Option Branch :=
  (Opcode.branch? (mem.get p.regs.pc) (mem.get (p.regs.pc + 1)) (mem.get (p.regs.pc + 2))).filter
    (Branch.taken p.regs.f)

/-- The address behind the instruction at the program counter. -/
def following (p : Processor) (mem : FlatMemory) : UInt16 :=
  p.regs.pc + UInt16.ofNat (Opcode.length (mem.get p.regs.pc))

/-- What a step that executes an instruction has done, by the table: where it has left the program
    counter, what a call has left on the stack, and how long it took. -/
structure FollowsTable (p : Processor) (mem : FlatMemory) (cycles : Nat) (after : Core FlatMemory) :
    Prop where
  counter : after.cpu.regs.pc = match takenBranch? p mem with
    | some branch => branch.destination.target p.regs mem (following p mem)
    | none => following p mem
  link : ∀ branch, takenBranch? p mem = some branch → branch.links = true →
    after.cpu.regs.sp = p.regs.sp - 2 ∧
      after.bus.get (p.regs.sp - 1) = highByte (following p mem) ∧
      after.bus.get (p.regs.sp - 2) = lowByte (following p mem)
  /-- Four cycles for each byte of the instruction and of its operands, but none for the bytes that
      tell of pending lines, and the cycles inside the processor. -/
  time : ∃ operands, traffic ⟨p, mem⟩ = [enableAddress, requestAddress] ++
      instructionBytes p.regs.pc (Opcode.length (mem.get p.regs.pc)) ++ operands ++
      (if mem.get p.regs.pc = Opcode.halt ∧ p.ime = false then [enableAddress, requestAddress]
        else []) ∧
    cycles = if mem.get p.regs.pc = Opcode.stop then 4
      else 4 * (Opcode.length (mem.get p.regs.pc) + operands.length) +
        Opcode.internalCycles (mem.get p.regs.pc) (takenBranch? p mem).isSome

/-- The processor with the instruction fetched, on a memory that was watched from the look for
    pending lines on. -/
def fetched (p : Processor) (mem : FlatMemory) : Core (Watched FlatMemory) :=
  ⟨{ p with regs.pc := following p mem },
    ⟨mem, (instructionBytes p.regs.pc (Opcode.length (mem.get p.regs.pc))).reverse ++
      [requestAddress, enableAddress]⟩⟩

/-- A step that is watched, up to the execution of what has been fetched. -/
theorem step_watched (hfault : p.fault = none) (hstopped : p.stopped = false)
    (hhalted : p.halted = false) (hbug : p.haltBug = false)
    (hquiet : p.ime = false ∨ mem.get enableAddress &&& mem.get requestAddress &&& 0x1F = 0) :
    step (watch ⟨p, mem⟩) = finish
      (match (decode (mem.get p.regs.pc)).instr? (mem.get (p.regs.pc + 1))
          (mem.get (p.regs.pc + 2)) with
        | some instr => .ok instr
        | none => .error ⟨mem.get p.regs.pc, p.regs.pc⟩) (fetched p mem) := by
  rw [step_running hfault hstopped (poll_watched hhalted hquiet) hhalted, fetch_watched _ hbug,
    Form.length_decode]
  rfl

variable {instr : Instr}

/-- The processor executes the branch that the table has for the opcode. -/
theorem takenBranch?_of_row (row : Opcode.Tabled (mem.get p.regs.pc) (mem.get (p.regs.pc + 1))
    (mem.get (p.regs.pc + 2)) instr) : instr.takenBranch? p.regs.f = takenBranch? p mem := by
  unfold Instr.takenBranch? takenBranch?
  rw [row.branch]

theorem traffic_of_watched (hstep : step (watch ⟨p, mem⟩) = finish (.ok instr) (fetched p mem)) :
    traffic ⟨p, mem⟩ = [enableAddress, requestAddress] ++
      instructionBytes p.regs.pc (Opcode.length (mem.get p.regs.pc)) ++
      instr.operands (fetched p mem).cpu ++ instr.looks (fetched p mem).cpu := by
  have htouched : traffic ⟨p, mem⟩ = ((fetched p mem).execute instr).2.bus.touched.reverse := by
    unfold traffic
    rw [hstep]
    rfl
  rw [htouched, touched_execute]
  simp [fetched]

/-- HALT alone looks for pending lines, and only with interrupts off. -/
theorem looks_of_row (row : Opcode.Tabled (mem.get p.regs.pc) (mem.get (p.regs.pc + 1))
      (mem.get (p.regs.pc + 2)) instr) :
    instr.looks (fetched p mem).cpu =
      if mem.get p.regs.pc = Opcode.halt ∧ p.ime = false then [enableAddress, requestAddress]
      else [] := by
  by_cases hhalt : instr = .halt
  · subst hhalt
    rw [row.halt.mp rfl]
    show (if p.ime then _ else _) = _
    cases p.ime <;> rfl
  · rw [if_neg (fun h => hhalt (row.halt.mpr h.1))]
    cases instr with
    | halt => exact absurd rfl hhalt
    | _ => rfl

/-- An instruction that the table has is executed as the table says. -/
theorem followsTable_finish (row : Opcode.Tabled (mem.get p.regs.pc) (mem.get (p.regs.pc + 1))
      (mem.get (p.regs.pc + 2)) instr)
    (hstep : step (watch ⟨p, mem⟩) = finish (.ok instr) (fetched p mem)) :
    FollowsTable p mem ((fetched p mem).execute instr).1 (step ⟨p, mem⟩).2 := by
  obtain ⟨-, hcpu, hbus⟩ := step_watch ⟨p, mem⟩
  have hregs : (step ⟨p, mem⟩).2.cpu.regs = ((fetched p mem).execute instr).2.cpu.regs := by
    rw [← hcpu, hstep]
    exact Processor.regs_settleEnable _
  have hmem : (step ⟨p, mem⟩).2.bus = ((fetched p mem).execute instr).2.bus.bus := by
    rw [← hbus, hstep]
    rfl
  have hbranch := takenBranch?_of_row row
  refine { counter := ?_, link := ?_, time := ⟨instr.operands (fetched p mem).cpu, ?_, ?_⟩ }
  · rw [hregs]
    refine (pc_execute _ mem _ instr).trans ?_
    rw [hbranch]
    cases takenBranch? p mem with
    | none => rfl
    | some branch =>
        obtain ⟨condition, destination, links⟩ := branch
        cases destination <;> rfl
  · intro branch htaken hlinks
    obtain ⟨hsp, hpushed⟩ := link_execute (fetched p mem).cpu mem (fetched p mem).bus.touched
      (hbranch.trans htaken) hlinks
    have htwo : p.regs.sp - 2 = p.regs.sp - 1 - 1 := by grind
    rw [hregs, hmem, htwo]
    refine ⟨hsp, ?_, ?_⟩
    · refine (congrArg (FlatMemory.get · _) hpushed).trans ?_
      exact (FlatMemory.get_set_ne _ _ (sub_one_ne _).symm).trans (FlatMemory.get_set_self _ _ _)
    · refine (congrArg (FlatMemory.get · _) hpushed).trans ?_
      exact FlatMemory.get_set_self _ _ _
  · rw [traffic_of_watched hstep, looks_of_row row]
  · by_cases hstop : instr = .stop
    · rw [if_pos (row.stop.mp hstop), hstop]
      rfl
    · rw [if_neg (fun h => hstop (row.stop.mpr h)), cycles_execute _ hstop row.load, row.length,
        row.internal]
      exact congrArg (fun taken => _ + Opcode.internalCycles _ taken.isSome) hbranch

/-- A step of a processor that waits for nothing and has no line to service, on flat memory. An
    opcode without an instruction is a fault; every other one is executed as the table says. -/
theorem step_tabled (p : Processor) (mem : FlatMemory) (hfault : p.fault = none)
    (hstopped : p.stopped = false) (hhalted : p.halted = false) (hbug : p.haltBug = false)
    (hquiet : p.ime = false ∨ mem.get enableAddress &&& mem.get requestAddress &&& 0x1F = 0) :
    (mem.get p.regs.pc ∈ illegalOpcodes →
      (step ⟨p, mem⟩).1 = .error ⟨mem.get p.regs.pc, p.regs.pc⟩) ∧
    (mem.get p.regs.pc ∉ illegalOpcodes →
      ∃ report after, step ⟨p, mem⟩ = (.ok report, after) ∧
        FollowsTable p mem report.cycles after) := by
  have hstep := step_watched hfault hstopped hhalted hbug hquiet
  have hresult := (step_watch ⟨p, mem⟩).1
  rw [← Form.instr?_eq_none_iff _ (mem.get (p.regs.pc + 1)) (mem.get (p.regs.pc + 2))]
  cases hinstr : (decode (mem.get p.regs.pc)).instr? (mem.get (p.regs.pc + 1))
      (mem.get (p.regs.pc + 2)) with
  | none =>
      rw [hinstr] at hstep
      rw [hstep] at hresult
      exact ⟨fun _ => hresult.symm, fun hlegal => absurd rfl hlegal⟩
  | some instr =>
      rw [hinstr] at hstep
      refine ⟨nofun, fun _ => ⟨⟨((fetched p mem).execute instr).1, .executed instr⟩, _,
        Prod.ext ?_ rfl, ?_⟩⟩
      · rw [← hresult, hstep]
        rfl
      · exact followsTable_finish (Opcode.tabled_of_decode hinstr) hstep

/-- A memory of one instruction, which leads back to itself across the end of memory. -/
def wrappedLoop : FlatMemory :=
  (({} : FlatMemory).set 0xFFFF 0x18).set 0x0000 0xFE

theorem get_wrappedLoop (place : UInt16) :
    wrappedLoop.get place =
      if place = 0x0000 then 0xFE else if place = 0xFFFF then 0x18 else 0 := by
  rw [wrappedLoop, FlatMemory.get_set, FlatMemory.get_set, FlatMemory.get_blank]

theorem traffic_wrappedLoop :
    traffic ⟨{ regs := { pc := 0xFFFF } }, wrappedLoop⟩ = [0xFFFF, 0xFF0F, 0xFFFF, 0x0000] := by
  have hstep : step (watch ⟨{ regs := { pc := 0xFFFF } }, wrappedLoop⟩) =
      finish (.ok (.jumpRelative none 0xFE))
        (fetched { regs := { pc := 0xFFFF } } wrappedLoop) := by
    rw [step_watched rfl rfl rfl rfl (.inl rfl), get_wrappedLoop, get_wrappedLoop]
    rfl
  rw [traffic_of_watched hstep, get_wrappedLoop]
  rfl

/-- A jump to itself, whose two bytes lie at either end of memory. -/
theorem step_tabled_wrappedLoop :
    ∃ report after, step ⟨{ regs := { pc := 0xFFFF } }, wrappedLoop⟩ = (.ok report, after) ∧
      after.cpu.regs.pc = 0xFFFF ∧ report.cycles = 12 := by
  obtain ⟨-, hlegal⟩ :=
    step_tabled { regs := { pc := 0xFFFF } } wrappedLoop rfl rfl rfl rfl (.inl rfl)
  obtain ⟨report, after, hstep, htable⟩ := hlegal (by rw [get_wrappedLoop]; decide)
  have htaken : takenBranch? { regs := { pc := 0xFFFF } } wrappedLoop =
      some ⟨none, .relative 0xFE, false⟩ := by
    rw [takenBranch?, get_wrappedLoop, get_wrappedLoop]
    rfl
  obtain ⟨operands, htraffic, hcycles⟩ := htable.time
  refine ⟨report, after, hstep, ?_, ?_⟩
  · rw [htable.counter, htaken, following, get_wrappedLoop]
    rfl
  · rw [traffic_wrappedLoop, get_wrappedLoop] at htraffic
    have hlength := congrArg List.length htraffic
    have htwo : Opcode.length 0x18 = 2 := rfl
    obtain rfl : operands = [] := by
      simpa [instructionBytes, Opcode.halt, htwo] using hlength
    rw [hcycles, htaken, get_wrappedLoop]
    rfl

end Core

end Handheld
