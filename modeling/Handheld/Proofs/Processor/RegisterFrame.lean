/-
Module: Handheld.Proofs.Processor.RegisterFrame
Purpose: An instruction writes its footprint and nothing else. Each part of an execution has its own
  footprint, and an instruction is made of such parts; a step adds nothing but the course of the
  program counter.
Main exports: Registers.Framed, Core.Framed, Core.Framed.trans, Core.framed_execute,
  Core.fetch_flat, Core.step_framed
-/
import Handheld.Proofs.Processor.FaultAddress
import Handheld.Proofs.Processor.Footprint

namespace Handheld

/-- The value of one flag of four. -/
def Flags.get (flags : Flags) : Flag → Bool
  | .zero => flags.zero
  | .subtract => flags.subtract
  | .halfCarry => flags.halfCarry
  | .carry => flags.carry

/-- Outside of a footprint two register files are the same. The program counter is left out. -/
structure Registers.Framed (fp : Footprint) (r r' : Registers) : Prop where
  get_eq : ∀ reg, reg ∉ fp.registers → r'.get reg = r.get reg
  sp_eq : fp.stackPointer = false → r'.sp = r.sp
  flag_eq : ∀ flag, flag ∉ fp.flags → r'.flag flag = r.flag flag
  /-- The unused bits of F are kept, unless F is written as a whole. -/
  unused_eq : r'.f &&& 0x0F = if fp.wholeF then 0 else r.f &&& 0x0F

/-- Outside of a footprint two states on flat memory are the same. -/
structure Core.Framed (fp : Footprint) (m m' : Core FlatMemory) : Prop where
  regs : m.cpu.regs.Framed fp m'.cpu.regs
  byte_eq : ∀ address, address ∉ fp.memory → m'.bus.get address = m.bus.get address

/-! ### Flags in their byte -/

theorem Flag.not_mem_all {p : Prop} {flag : Flag} (h : flag ∉ Flag.all) : p :=
  absurd (by cases flag <;> decide) h

theorem Flag.eq_carry_of_not_mem {flag : Flag} (h : flag ∉ [.zero, .subtract, .halfCarry]) :
    flag = .carry := by
  cases flag <;> first | rfl | exact absurd (by decide) h

theorem Flags.flag_toByte (flags : Flags) (flag : Flag) :
    (flags.toByte &&& flag.mask != 0) = flags.get flag := by
  obtain ⟨z, n, h, c⟩ := flags
  cases z <;> cases n <;> cases h <;> cases c <;> cases flag <;> rfl

theorem Flags.unused_toByte (flags : Flags) : flags.toByte &&& 0x0F = 0 := by
  obtain ⟨z, n, h, c⟩ := flags
  cases z <;> cases n <;> cases h <;> cases c <;> rfl

/-- Setting or clearing bits keeps every bit outside of them. -/
theorem and_setBits_of_disjoint (f kept : UInt8) {mask : UInt8} (value : Bool)
    (h : mask &&& kept = 0) : (if value then f ||| mask else f &&& ~~~mask) &&& kept = f &&& kept := by
  apply UInt8.toBitVec_inj.mp
  have hbits := congrArg UInt8.toBitVec h
  ext i hi
  have hbit := congrArg (·[i]) hbits
  cases value <;> simp at hbit ⊢ <;> grind

namespace Registers

variable {r r' r'' : Registers} {fp fp' : Footprint}

namespace Framed

theorem refl (r : Registers) (h : fp.wholeF = false) : Framed fp r r where
  get_eq _ _ := rfl
  sp_eq _ := rfl
  flag_eq _ _ := rfl
  unused_eq := by rw [h, if_neg Bool.false_ne_true]

/-- Footprints add up. -/
theorem trans (h : Framed fp r r') (h' : Framed fp' r' r'') : Framed (fp.append fp') r r'' where
  get_eq reg hreg := by
    obtain ⟨hfirst, hsecond⟩ := not_or.mp fun hmem => hreg (List.mem_append.mpr hmem)
    exact (h'.get_eq reg hsecond).trans (h.get_eq reg hfirst)
  sp_eq hsp := by
    obtain ⟨hfirst, hsecond⟩ := Bool.or_eq_false_iff.mp hsp
    exact (h'.sp_eq hsecond).trans (h.sp_eq hfirst)
  flag_eq flag hflag := by
    obtain ⟨hfirst, hsecond⟩ := not_or.mp fun hmem => hflag (List.mem_append.mpr hmem)
    exact (h'.flag_eq flag hsecond).trans (h.flag_eq flag hfirst)
  unused_eq := by
    have hor : (fp.append fp').wholeF = (fp.wholeF || fp'.wholeF) := rfl
    rw [h'.unused_eq, h.unused_eq, hor]
    cases fp.wholeF <;> cases fp'.wholeF <;> rfl

/-- A larger footprint will do. -/
theorem mono (h : Framed fp r r') (hregisters : fp.registers ⊆ fp'.registers)
    (hsp : fp'.stackPointer = false → fp.stackPointer = false) (hflags : fp.flags ⊆ fp'.flags)
    (hwhole : fp.wholeF = fp'.wholeF) : Framed fp' r r' where
  get_eq reg hreg := h.get_eq reg fun hmem => hreg (hregisters hmem)
  sp_eq hfalse := h.sp_eq (hsp hfalse)
  flag_eq flag hflag := h.flag_eq flag fun hmem => hflag (hflags hmem)
  unused_eq := hwhole ▸ h.unused_eq

end Framed

/-! ### Register files -/

theorem get_set_ne (r : Registers) {reg other : Reg} (value : UInt8) (h : other ≠ reg) :
    (r.set reg value).get other = r.get other := by
  cases reg <;> cases other <;> first | rfl | exact absurd rfl h

theorem framed_set (r : Registers) (reg : Reg) (value : UInt8) :
    Framed { registers := [reg] } r (r.set reg value) where
  get_eq other hother := get_set_ne r value fun heq => hother (heq ▸ List.mem_singleton_self reg)
  sp_eq _ := by cases reg <;> rfl
  flag_eq _ _ := by cases reg <;> rfl
  unused_eq := by cases reg <;> rfl

theorem framed_sp (r : Registers) (value : UInt16) :
    Framed { stackPointer := true } r { r with sp := value } where
  get_eq reg _ := by cases reg <;> rfl
  sp_eq h := by cases h
  flag_eq _ _ := rfl
  unused_eq := rfl

theorem framed_pc (r : Registers) (value : UInt16) : Framed {} r { r with pc := value } where
  get_eq reg _ := by cases reg <;> rfl
  sp_eq _ := rfl
  flag_eq _ _ := rfl
  unused_eq := rfl

theorem framed_setPair (r : Registers) (pair : Pair) (value : UInt16) :
    Framed { registers := pair.registers, stackPointer := pair.isSP } r (r.setPair pair value) := by
  cases pair with
  | bc => exact (framed_set r .b (highByte value)).trans (framed_set _ .c (lowByte value))
  | de => exact (framed_set r .d (highByte value)).trans (framed_set _ .e (lowByte value))
  | hl => exact (framed_set r .h (highByte value)).trans (framed_set _ .l (lowByte value))
  | sp => exact framed_sp r value

/-- The flags that a computation reports as they were are kept, though the byte is replaced. -/
theorem framed_setFlags (r : Registers) {flags : Flags} {written : List Flag}
    (h : ∀ flag, flag ∉ written → flags.get flag = r.flag flag) :
    Framed { flags := written, wholeF := true } r (r.setFlags flags) where
  get_eq reg _ := by cases reg <;> rfl
  sp_eq _ := rfl
  flag_eq flag hflag := (flags.flag_toByte flag).trans (h flag hflag)
  unused_eq := flags.unused_toByte

theorem framed_setFlag (r : Registers) (flag : Flag) (value : Bool) :
    Framed { flags := [flag] } r (r.setFlag flag value) where
  get_eq reg _ := by cases reg <;> rfl
  sp_eq _ := rfl
  flag_eq other hother := by
    have hdisjoint : flag.mask &&& other.mask = 0 := by
      cases flag <;> cases other <;> first | rfl | exact absurd (List.mem_singleton_self _) hother
    unfold Registers.flag setFlag
    dsimp only
    rw [and_setBits_of_disjoint r.f other.mask value hdisjoint]
  unused_eq := and_setBits_of_disjoint r.f 0x0F value (by cases flag <;> rfl)

theorem framed_setAF (r : Registers) (value : UInt16) :
    Framed StackPair.af.footprint r (r.setAF value) where
  get_eq reg hreg := by
    cases reg <;> first | rfl | exact absurd (List.mem_singleton_self _) hreg
  sp_eq _ := rfl
  flag_eq flag hflag := absurd (by cases flag <;> decide) hflag
  unused_eq := by
    have hmask : (0xF0 : UInt8) &&& 0x0F = 0 := rfl
    change lowByte value &&& 0xF0 &&& 0x0F = 0
    rw [UInt8.and_assoc, hmask, UInt8.and_zero]

theorem framed_setStackPair (r : Registers) (pair : StackPair) (value : UInt16) :
    Framed pair.footprint r (r.setStackPair pair value) := by
  cases pair with
  | bc => exact framed_setPair r .bc value
  | de => exact framed_setPair r .de value
  | hl => exact framed_setPair r .hl value
  | af => exact framed_setAF r value

end Registers

namespace Core

variable {m m' m'' : Core FlatMemory} {fp fp' : Footprint}

/-! ### Parts of an execution -/

theorem Framed.trans (h : Framed fp m m') (h' : Framed fp' m' m'') :
    Framed (fp.append fp') m m'' where
  regs := h.regs.trans h'.regs
  byte_eq address haddress := by
    obtain ⟨hfirst, hsecond⟩ := not_or.mp fun hmem => haddress (List.mem_append.mpr hmem)
    exact (h'.byte_eq address hsecond).trans (h.byte_eq address hfirst)

/-- Nothing counts but the registers and the bytes in memory. -/
theorem framed_of_eq (hregs : m'.cpu.regs = m.cpu.regs)
    (hbytes : ∀ address, m'.bus.get address = m.bus.get address) : Framed {} m m' where
  regs := hregs ▸ .refl _ rfl
  byte_eq address _ := hbytes address

theorem bytes_takeWake (m : Core FlatMemory) (address : UInt16) :
    m.takeWake.2.bus.get address = m.bus.get address := by
  unfold takeWake
  simp only [Bus.takeWake]
  split <;> rfl

theorem framed_of_regs (h : m.cpu.regs.Framed fp m'.cpu.regs) (hbus : m'.bus = m.bus) :
    Framed fp m m' where
  regs := h
  byte_eq address _ := congrArg (·.get address) hbus

theorem framed_write (m : Core FlatMemory) (address : UInt16) (value : UInt8) :
    Framed { memory := [address] } m (m.write address value) where
  regs := .refl _ rfl
  byte_eq _ hother :=
    FlatMemory.get_set_ne m.bus value fun heq => hother (heq ▸ List.mem_singleton_self address)

theorem framed_jumpTo (m : Core FlatMemory) (target : UInt16) : Framed {} m (m.jumpTo target) :=
  framed_of_regs (Registers.framed_pc m.cpu.regs target) rfl

theorem framed_store (m : Core FlatMemory) (dst : Operand) (value : UInt8) :
    Framed { registers := dst.registers, memory := dst.places m.cpu.regs } m
      (m.store dst value) := by
  cases dst with
  | reg reg =>
      have hregs := Registers.framed_set m.cpu.regs reg value
      exact ⟨⟨hregs.get_eq, hregs.sp_eq, hregs.flag_eq, hregs.unused_eq⟩, fun _ _ => rfl⟩
  | atHL => exact framed_write m m.cpu.regs.hl value

theorem framed_accept (m : Core FlatMemory) {result : ByteResult} {written : List Flag}
    (h : ∀ flag, flag ∉ written → result.flags.get flag = m.cpu.regs.flag flag) :
    Framed { registers := [.a], flags := written, wholeF := true } m (m.accept result) :=
  framed_of_regs ((Registers.framed_set m.cpu.regs .a result.value).trans
    (Registers.framed_setFlags _ h)) rfl

/-- Everything but the carry is computed anew. -/
theorem framed_modify (m : Core FlatMemory) (dst : Operand) {f : UInt8 → Bool → ByteResult}
    {written : List Flag}
    (h : ∀ value carry flag, flag ∉ written → flag = .carry ∧ (f value carry).flags.carry = carry) :
    Framed (dst.modified m.cpu.regs written) m (m.modify dst f) := by
  have hflags (value : UInt8) : Framed { flags := written, wholeF := true } m
      (m.mapRegs fun regs => regs.setFlags (f value (m.cpu.regs.flag .carry)).flags) := by
    refine framed_of_regs (Registers.framed_setFlags m.cpu.regs ?_) rfl
    intro flag hflag
    obtain ⟨rfl, hcarry⟩ := h value (m.cpu.regs.flag .carry) flag hflag
    exact hcarry
  have hmodified : Footprint.append { flags := written, wholeF := true }
      { registers := dst.registers, memory := dst.places m.cpu.regs } =
        dst.modified m.cpu.regs written := by
    simp [Footprint.append, Operand.modified]
  have hwhole (value : UInt8) := (hflags value).trans
    (framed_store _ dst (f value (m.cpu.regs.flag .carry)).value)
  rw [← hmodified]
  cases dst with
  | reg reg => exact hwhole (m.cpu.regs.get reg)
  | atHL => exact hwhole (m.bus.get m.cpu.regs.hl)

theorem framed_setSP (m : Core FlatMemory) (value : UInt16) :
    Framed { stackPointer := true } m (m.mapRegs fun r => { r with sp := value }) :=
  framed_of_regs (Registers.framed_sp m.cpu.regs value) rfl

theorem framed_push (m : Core FlatMemory) (value : UInt16) :
    Framed (.push m.cpu.regs true) m (m.push value) :=
  (framed_setSP m (m.cpu.regs.sp - 1)).trans <|
    (framed_write _ (m.cpu.regs.sp - 1) (highByte value)).trans <|
      (framed_setSP _ (m.cpu.regs.sp - 1 - 1)).trans <|
        framed_write _ (m.cpu.regs.sp - 1 - 1) (lowByte value)

theorem framed_pop (m : Core FlatMemory) : Framed { stackPointer := true } m m.pop.2 :=
  framed_setSP m (m.cpu.regs.sp + 2)

theorem framed_resolve (m : Core FlatMemory) (place : Address) :
    Framed { registers := place.registers } m (m.resolve place).2 := by
  cases place with
  | hlThenUp => exact framed_of_regs (Registers.framed_setPair m.cpu.regs .hl _) rfl
  | hlThenDown => exact framed_of_regs (Registers.framed_setPair m.cpu.regs .hl _) rfl
  | _ => exact framed_of_eq rfl fun _ => rfl

theorem framed_setA (m : Core FlatMemory) (value : UInt8) :
    Framed { registers := [.a] } m (m.mapRegs fun r => { r with a := value }) :=
  framed_of_regs (Registers.framed_set m.cpu.regs .a value) rfl

theorem framed_setFlag (m : Core FlatMemory) (flag : Flag) (value : Bool) :
    Framed { flags := [flag] } m (m.mapRegs fun r => r.setFlag flag value) :=
  framed_of_regs (Registers.framed_setFlag m.cpu.regs flag value) rfl

/-- A comparison puts A back as it was. -/
theorem framed_arith (m : Core FlatMemory) (op : Arith) (value : UInt8) (carry : Bool) :
    Framed { registers := op.registers, flags := Flag.all, wholeF := true } m
      (m.accept (op.apply m.cpu.regs.a value carry)) := by
  cases op with
  | compare =>
      have hflags (flags : Flags) : Registers.Framed { flags := Flag.all, wholeF := true } m.cpu.regs
          (m.cpu.regs.setFlags flags) :=
        Registers.framed_setFlags m.cpu.regs fun _ => Flag.not_mem_all
      exact framed_of_regs (hflags _) rfl
  | _ => exact framed_accept m fun _ => Flag.not_mem_all

theorem framed_return (m : Core FlatMemory) :
    Framed { stackPointer := true } m (m.pop.2.jumpTo m.pop.1) :=
  (framed_pop m).trans (framed_jumpTo m.pop.2 m.pop.1)

theorem framed_enter (m : Core FlatMemory) (value target : UInt16) :
    Framed (.push m.cpu.regs true) m ((m.push value).jumpTo target) :=
  (framed_push m value).trans (framed_jumpTo (m.push value) target)

/-! ### Instructions -/

/-- A branch is taken if its condition holds. -/
theorem isSome_takenBranch? {p : Processor} {instr : Instr} {condition : Option Condition}
    {destination : Destination} {links : Bool}
    (h : instr.branch? = some ⟨condition, destination, links⟩) :
    (instr.takenBranch? p.regs.f).isSome = p.holds condition := by
  unfold Instr.takenBranch?
  rw [h, Option.filter_some, Branch.taken_eq]
  cases p.holds condition <;> rfl

/-- An instruction writes its footprint and nothing else. -/
theorem framed_execute (m : Core FlatMemory) (instr : Instr) :
    Framed (instr.footprint m.cpu.regs) m (m.execute instr).2 := by
  cases instr with
  | nop | disableInterrupts | enableInterrupts => exact framed_of_eq rfl fun _ => rfl
  | halt =>
      apply framed_of_eq
      · simp only [execute, halt]
        split
        · rfl
        · split <;> rfl
      · intro address
        simp only [execute, halt]
        split
        · rfl
        · split <;> rfl
  | stop => exact framed_of_eq rfl (bytes_takeWake m)
  | load dst src => cases src <;> exact framed_store m dst _
  | loadByte dst value => exact framed_store m dst value
  | clearBit bit dst | setBit bit dst => cases dst <;> exact framed_store m _ _
  | loadA src => exact (framed_resolve m src).trans (framed_setA (m.resolve src).2 _)
  | storeA dst =>
      have hstore := (framed_resolve m dst).trans
        (framed_write (m.resolve dst).2 (m.resolve dst).1 (m.resolve dst).2.cpu.regs.a)
      cases dst <;> exact hstore
  | loadWord dst value => exact framed_of_regs (Registers.framed_setPair m.cpu.regs dst value) rfl
  | incWord dst | decWord dst =>
      exact framed_of_regs (Registers.framed_setPair m.cpu.regs dst _) rfl
  | storeSP address => exact (framed_write m address _).trans (framed_write _ (address + 1) _)
  | loadSPFromHL => exact framed_setSP m m.cpu.regs.hl
  | loadHLFromSP offset =>
      exact framed_of_regs ((Registers.framed_setFlags m.cpu.regs fun _ => Flag.not_mem_all).trans
        (Registers.framed_setPair _ .hl _)) rfl
  | push src => exact framed_push m _
  | restart target => exact framed_enter m _ _
  | pop dst =>
      have hset : Framed dst.footprint m.pop.2
          (m.pop.2.mapRegs fun r => r.setStackPair dst m.pop.1) :=
        framed_of_regs (Registers.framed_setStackPair m.pop.2.cpu.regs dst m.pop.1) rfl
      have hpop := (framed_pop m).trans hset
      cases dst <;> exact hpop
  | arith op src => cases src <;> exact framed_arith m op _ _
  | arithByte op value => exact framed_arith m op value _
  | inc dst => exact framed_modify m dst fun value carry flag h => ⟨Flag.eq_carry_of_not_mem h, rfl⟩
  | dec dst => exact framed_modify m dst fun value carry flag h => ⟨Flag.eq_carry_of_not_mem h, rfl⟩
  | shift op dst => exact framed_modify m dst fun value carry flag => Flag.not_mem_all
  | addHL src =>
      have hzero (flag : Flag) (h : flag ∉ [.subtract, .halfCarry, .carry]) :
          (addWords m.cpu.regs.hl (m.cpu.regs.pair src) (m.cpu.regs.flag .zero)).flags.get flag =
            m.cpu.regs.flag flag := by
        cases flag <;> first | rfl | exact absurd (by decide) h
      exact framed_of_regs ((Registers.framed_setFlags m.cpu.regs hzero).trans
        (Registers.framed_setPair _ .hl _)) rfl
  | addSP offset =>
      exact framed_of_regs ((Registers.framed_setFlags m.cpu.regs fun _ => Flag.not_mem_all).trans
        (Registers.framed_sp _ _)) rfl
  | decimalAdjust =>
      apply framed_accept
      intro flag h
      cases flag <;> first | rfl | exact absurd (by decide) h
  | complement =>
      exact (framed_setA m (~~~m.cpu.regs.a)).trans
        ((framed_setFlag _ .subtract true).trans (framed_setFlag _ .halfCarry true))
  | setCarry | flipCarry =>
      exact (framed_setFlag m .subtract false).trans
        ((framed_setFlag _ .halfCarry false).trans (framed_setFlag _ .carry _))
  | rotateA op =>
      have hrotated (result : ByteResult) :
          Framed { registers := [.a], flags := Flag.all, wholeF := true } m (m.accept result) :=
        framed_accept m fun _ => Flag.not_mem_all
      have hrotate := (hrotated (op.apply m.cpu.regs.a (m.cpu.regs.flag .carry))).trans
        (framed_setFlag _ .zero false)
      have hflags : Flag.all ++ [.zero] ⊆ Flag.all := by decide
      exact ⟨hrotate.regs.mono (List.Subset.refl _) id hflags rfl, hrotate.byte_eq⟩
  | testBit bit src =>
      have hcarry (value : UInt8) (flag : Flag) (h : flag ∉ [.zero, .subtract, .halfCarry]) :
          (testBitFlags bit value (m.cpu.regs.flag .carry)).get flag = m.cpu.regs.flag flag := by
        rw [Flag.eq_carry_of_not_mem h]
        rfl
      cases src <;> exact framed_of_regs (Registers.framed_setFlags m.cpu.regs (hcarry _)) rfl
  | jump condition target =>
      simp only [execute]
      split
      · exact framed_jumpTo m target
      · exact framed_of_eq rfl fun _ => rfl
  | jumpHL => exact framed_jumpTo m _
  | jumpRelative condition offset =>
      simp only [execute]
      split
      · exact framed_jumpTo m _
      · exact framed_of_eq rfl fun _ => rfl
  | call condition target =>
      have htaken : ((Instr.call condition target).takenBranch? m.cpu.regs.f).isSome =
          m.cpu.holds condition := isSome_takenBranch? rfl
      change Framed (.push m.cpu.regs _) m _
      rw [htaken]
      simp only [execute]
      cases m.cpu.holds condition with
      | false => exact framed_of_eq rfl fun _ => rfl
      | true => exact framed_enter m _ target
  | ret condition =>
      cases condition with
      | none => exact framed_return m
      | some condition =>
          have htaken : ((Instr.ret (some condition)).takenBranch? m.cpu.regs.f).isSome =
              m.cpu.holds (some condition) := isSome_takenBranch? rfl
          change Framed { stackPointer := _ } m _
          rw [htaken]
          simp only [execute]
          cases m.cpu.holds (some condition) with
          | false => exact framed_of_eq rfl fun _ => rfl
          | true => exact framed_return m
  | retEnable => exact ⟨(framed_return m).regs, fun _ _ => rfl⟩

/-! ### Steps -/

/-- The footprint of an instruction does not hang on the program counter. -/
theorem footprint_setPC (instr : Instr) (r : Registers) (value : UInt16) :
    instr.footprint { r with pc := value } = instr.footprint r := by
  cases instr with
  | load dst src | loadByte dst value | clearBit bit dst | setBit bit dst | inc dst | dec dst
  | shift op dst | storeA dst => cases dst <;> rfl
  | _ => rfl

/-- Where the byte behind the opcode is fetched: at the address above, unless the opcode has to be
    read twice. -/
def operandAddress (p : Processor) : UInt16 :=
  if p.haltBug then p.regs.pc else p.regs.pc + 1

theorem fetchByte_flat (m : Core FlatMemory) : m.fetchByte = (m.bus.get m.cpu.regs.pc,
    ⟨{ m.cpu with haltBug := false, regs.pc := operandAddress m.cpu }, m.bus⟩) := by
  cases hbug : m.cpu.haltBug with
  | true => simp [fetchByte, read, Bus.read, operandAddress, hbug]
  | false =>
      have hsame : ({ m.cpu with haltBug := false } : Processor) = m.cpu := by
        rw [← hbug]
      simp [fetchByte, read, Bus.read, mapRegs, operandAddress, hbug]

/-- What is fetched, and what the fetch does to the registers. -/
theorem fetch_flat {m fetched : Core FlatMemory} {instr : Instr}
    (h : m.fetch = (.ok instr, fetched)) :
    (decode (m.bus.get m.cpu.regs.pc)).instr? (m.bus.get (operandAddress m.cpu))
        (m.bus.get (operandAddress m.cpu + 1)) = some instr ∧
      fetched.bus = m.bus ∧ ∃ pc, fetched.cpu.regs = { m.cpu.regs with pc } := by
  rw [fetch_eq, fetchByte_flat, complete] at h
  cases hform : decode (m.bus.get m.cpu.regs.pc) with
  | complete instr =>
      rw [hform] at h
      cases h
      exact ⟨rfl, rfl, _, rfl⟩
  | withByte instr | extended =>
      rw [hform] at h
      dsimp only at h
      rw [fetchByte_flat] at h
      cases h
      exact ⟨rfl, rfl, _, rfl⟩
  | withWord instr =>
      rw [hform] at h
      dsimp only [fetchWord] at h
      rw [fetchByte_flat] at h
      dsimp only at h
      rw [fetchByte_flat] at h
      cases h
      exact ⟨rfl, rfl, _, rfl⟩
  | illegal =>
      rw [hform] at h
      cases h

theorem framed_of_awake {m awake : Core FlatMemory} (h : Awake m awake) : Framed {} m awake := by
  cases h with
  | already => exact framed_of_eq rfl fun _ => rfl
  | woken => exact framed_of_eq rfl (bytes_takeWake m)

theorem framed_poll (m : Core FlatMemory) : Framed {} m m.poll.2 :=
  framed_of_eq (regs_poll m) fun address => congrArg (·.get address) (bus_poll (fun _ _ => rfl) m)

/-- A step that executes an instruction writes what the row of its opcode says, and nothing else. The
    row is looked up with the bytes in front of the processor at the beginning of the step. -/
theorem step_framed {m m' : Core FlatMemory} {report : Report} {instr : Instr}
    (h : m.step = (.ok report, m')) (hinstr : report.activity = .executed instr) :
    Framed (Opcode.footprint m.cpu.regs (m.bus.get m.cpu.regs.pc)
      (m.bus.get (operandAddress m.cpu)) (m.bus.get (operandAddress m.cpu + 1))) m m' := by
  obtain ⟨awake, fetched, hawake, -, hfetch, rfl⟩ := (outcome_step h).executed_inv hinstr
  obtain ⟨hdecode, hbus, pc, hregs⟩ := fetch_flat hfetch
  have hbefore : Framed {} m awake.poll.2 := (framed_of_awake hawake).trans (framed_poll awake)
  -- looking for pending lines and waking leave registers and bytes alone
  have hcpu : awake.poll.2.cpu.regs = m.cpu.regs :=
    (regs_poll awake).trans (by cases hawake <;> rfl)
  have hoperand : operandAddress awake.poll.2.cpu = operandAddress m.cpu := by
    unfold operandAddress
    rw [hcpu, haltBug_poll, show awake.cpu.haltBug = m.cpu.haltBug by cases hawake <;> rfl]
  have hbyte (address : UInt16) : awake.poll.2.bus.get address = m.bus.get address :=
    hbefore.byte_eq address List.not_mem_nil
  rw [hcpu, hoperand, hbyte, hbyte, hbyte] at hdecode
  have hfetched : Framed {} m fetched := by
    refine ⟨?_, fun address _ => ?_⟩
    · rw [hregs, hcpu]
      exact Registers.framed_pc m.cpu.regs pc
    · rw [hbus, hbyte]
  have hrow : instr.footprint fetched.cpu.regs = Opcode.footprint m.cpu.regs
      (m.bus.get m.cpu.regs.pc) (m.bus.get (operandAddress m.cpu))
      (m.bus.get (operandAddress m.cpu + 1)) := by
    rw [hregs, hcpu, footprint_setPC, Opcode.footprint_of_decode hdecode]
  have hexecute := hfetched.trans (framed_execute fetched instr)
  rw [hrow] at hexecute
  refine ⟨?_, hexecute.byte_eq⟩
  rw [Processor.regs_settleEnable]
  exact hexecute.regs

/-- INC (HL). -/
def countedByte : FlatMemory :=
  ({} : FlatMemory).set 0x0000 0x34

/-- A byte in memory is counted up: no register changes, the carry flag is kept, and so is every
    other byte. -/
theorem step_framed_countedByte :
    ∃ m', step ⟨{ regs := { h := 0xC0, l := 0x12, f := 0x10 } }, countedByte⟩ =
        (.ok ⟨12, .executed (.inc .atHL)⟩, m') ∧
      (∀ reg, m'.cpu.regs.get reg = Registers.get { h := 0xC0, l := 0x12, f := 0x10 } reg) ∧
      m'.cpu.regs.flag .carry = true ∧
      ∀ address, address ≠ 0xC012 → m'.bus.get address = countedByte.get address := by
  have hopcode : countedByte.get 0x0000 = 0x34 := FlatMemory.get_set_self _ _ _
  have hdecode : decode (countedByte.get 0x0000) = .complete (.inc .atHL) := by
    rw [hopcode]
    rfl
  have hstep := step_flat (p := { regs := { h := 0xC0, l := 0x12, f := 0x10 } }) rfl rfl rfl rfl
    (by simp only [countedByte, FlatMemory.get_set, FlatMemory.get_blank]; decide) hdecode
  have hframed := step_framed hstep rfl
  simp only [hopcode] at hframed
  refine ⟨_, hstep, fun reg => hframed.regs.get_eq reg List.not_mem_nil,
    hframed.regs.flag_eq .carry (by decide), fun address haddress => ?_⟩
  exact hframed.byte_eq address fun hmem => haddress (List.mem_singleton.mp hmem)

/-- The four bits of F that carry no flag are not kept by an instruction that writes some of the
    flags: counting B up clears them. -/
theorem step_clears_unused :
    ∃ m', step ⟨{ regs := { f := 0x0F } }, ({} : FlatMemory).set 0x0000 0x04⟩ =
        (.ok ⟨4, .executed (.inc (.reg .b))⟩, m') ∧
      m'.cpu.regs.f &&& 0x0F = 0 ∧ (0x0F : UInt8) &&& 0x0F ≠ 0 := by
  have hopcode : (({} : FlatMemory).set 0x0000 0x04).get 0x0000 = 0x04 :=
    FlatMemory.get_set_self _ _ _
  have hdecode : decode ((({} : FlatMemory).set 0x0000 0x04).get 0x0000) =
      .complete (.inc (.reg .b)) := by
    rw [hopcode]
    rfl
  have hstep := step_flat (p := { regs := { f := 0x0F } }) rfl rfl rfl rfl
    (by simp only [FlatMemory.get_set, FlatMemory.get_blank]; decide) hdecode
  exact ⟨_, hstep, rfl, by decide⟩

end Core

end Handheld
