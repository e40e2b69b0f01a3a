/-
Module: Handheld.Proofs.Processor.Stack
Purpose: The stack is last in, first out. Words are saved by pushes, calls, restarts and the servicing
  of interrupts, and fetched back by pops and returns; where these are nested like brackets and nothing
  else writes to the saved bytes, every word comes back to its own bracket, also when the stack pointer
  wraps. The induction is on the nesting: what lies between two brackets writes only below them.
Main exports: Below, Core.Pushes, Core.Pops, Core.Elsewhere, Core.Balanced, Saving, Restoring,
  Bracket, Nested, Core.step_executes, Core.step_services, stack_lastInFirstOut
-/
import Handheld.Proofs.Processor.RegisterFrame

namespace Handheld

/-! ### The bytes below the stack pointer -/

/-- An address is one of the `n` below the stack pointer, with the end of memory below its beginning. -/
def Below (sp : UInt16) (n : Nat) (address : UInt16) : Prop :=
  (sp - 1 - address).toNat < n

variable {sp address : UInt16} {n : Nat}

theorem Below.mono {n' : Nat} (h : Below sp n address) (hle : n ≤ n') : Below sp n' address :=
  Nat.lt_of_lt_of_le h hle

theorem below_two_iff : Below sp 2 address ↔ address = sp - 1 ∨ address = sp - 2 := by
  unfold Below
  constructor
  · intro h
    have hoffset : sp - 1 - address = 0 ∨ sp - 1 - address = 1 := by
      rw [← UInt16.toNat_inj, ← UInt16.toNat_inj]
      change _ = 0 ∨ _ = 1
      omega
    grind
  · rintro (rfl | rfl)
    · rw [show sp - 1 - (sp - 1) = 0 by grind]
      decide
    · rw [show sp - 1 - (sp - 2) = 1 by grind]
      decide

/-- Two bytes and those below them. -/
theorem below_add_two (h : ¬ Below sp 2 address) :
    Below (sp - 2) n address ↔ Below sp (n + 2) address := by
  unfold Below at h ⊢
  have hle : (2 : UInt16) ≤ sp - 1 - address := UInt16.le_iff_toNat_le.mpr (Nat.le_of_not_lt h)
  rw [show sp - 2 - 1 - address = sp - 1 - address - 2 by grind, UInt16.toNat_sub_of_le _ _ hle]
  change _ - 2 < n ↔ _
  omega

/-- Two bytes are out of reach of all that lies below them, unless this goes once around memory. -/
theorem not_below_of_saved (hn : n ≤ 65534) (h : Below sp 2 address) : ¬ Below (sp - 2) n address := by
  unfold Below
  rcases below_two_iff.mp h with rfl | rfl
  · rw [show sp - 2 - 1 - (sp - 1) = 65534 by grind]
    change ¬ 65534 < n
    omega
  · rw [show sp - 2 - 1 - (sp - 2) = 65535 by grind]
    change ¬ 65535 < n
    omega

namespace Core

/-! ### Pushing and popping -/

/-- From `m` to `m'` a word has been pushed. Of the other bytes only those at `writes` may have
    changed. -/
structure Pushes (writes : List UInt16) (word : UInt16) (m m' : Core FlatMemory) : Prop where
  sp_eq : m'.cpu.regs.sp = m.cpu.regs.sp - 2
  high_eq : m'.bus.get (m.cpu.regs.sp - 1) = highByte word
  low_eq : m'.bus.get (m.cpu.regs.sp - 2) = lowByte word
  byte_eq : ∀ address, address ∉ writes → ¬ Below m.cpu.regs.sp 2 address →
    m'.bus.get address = m.bus.get address

/-- From `m` to `m'` a word has been popped, and no byte has changed. -/
structure Pops (m m' : Core FlatMemory) : Prop where
  sp_eq : m'.cpu.regs.sp = m.cpu.regs.sp + 2
  bus_eq : m'.bus = m.bus

/-- Something else has happened: the stack pointer is where it was, and only the bytes at `writes` may
    have changed. -/
structure Elsewhere (writes : List UInt16) (m m' : Core FlatMemory) : Prop where
  sp_eq : m'.cpu.regs.sp = m.cpu.regs.sp
  byte_eq : ∀ address, address ∉ writes → m'.bus.get address = m.bus.get address

theorem pushes_push (m : Core FlatMemory) (word : UInt16) : Pushes [] word m (m.push word) := by
  have hlow : m.cpu.regs.sp - 1 - 1 = m.cpu.regs.sp - 2 := by grind
  have hbus : (m.push word).bus = (m.bus.set (m.cpu.regs.sp - 1) (highByte word)).set
      (m.cpu.regs.sp - 2) (lowByte word) := by
    rw [← hlow]
    rfl
  refine ⟨hlow, ?_, ?_, fun address _ hbelow => ?_⟩
  · rw [hbus, FlatMemory.get_set_ne _ _ (by grind), FlatMemory.get_set_self]
  · rw [hbus, FlatMemory.get_set_self]
  · obtain ⟨hhigh, hlow⟩ := not_or.mp (mt below_two_iff.mpr hbelow)
    rw [hbus, FlatMemory.get_set_ne _ _ hlow, FlatMemory.get_set_ne _ _ hhigh]

theorem Pushes.jumpTo {m m' : Core FlatMemory} {writes : List UInt16} {word : UInt16}
    (h : Pushes writes word m m') (target : UInt16) : Pushes writes word m (m'.jumpTo target) :=
  ⟨h.sp_eq, h.high_eq, h.low_eq, h.byte_eq⟩

/-- The request is withdrawn before the return address is pushed. -/
theorem pushes_service (m : Core FlatMemory) (line : LineSet) :
    Pushes [requestAddress] (returnAddress m.cpu) m (m.service line) := by
  let withdrawn : Core FlatMemory :=
    ⟨{ m.cpu.disableInterrupts with haltBug := false },
      m.bus.set requestAddress (m.bus.get requestAddress &&& ~~~line.bits)⟩
  have hpush := (pushes_push withdrawn (returnAddress m.cpu)).jumpTo line.vector
  refine ⟨hpush.sp_eq, hpush.high_eq, hpush.low_eq, fun address hother hbelow => ?_⟩
  have hwithdrawn : withdrawn.bus.get address = m.bus.get address :=
    FlatMemory.get_set_ne _ _ fun heq => hother (heq ▸ List.mem_singleton_self _)
  rw [← hwithdrawn]
  exact hpush.byte_eq address List.not_mem_nil hbelow

/-- Between `m` and `m'` as much has been popped as pushed: the stack pointer is where it was, and only
    the bytes at `writes` and the two for each of `depth` levels below the stack pointer may have
    changed. -/
structure Balanced (depth : Nat) (writes : List UInt16) (m m' : Core FlatMemory) : Prop where
  sp_eq : m'.cpu.regs.sp = m.cpu.regs.sp
  byte_eq : ∀ address, address ∉ writes → ¬ Below m.cpu.regs.sp (2 * depth) address →
    m'.bus.get address = m.bus.get address

variable {depth depth' : Nat} {writes writes' : List UInt16} {word : UInt16}
  {m opened closing m' m'' : Core FlatMemory}

theorem Elsewhere.balanced (h : Elsewhere writes m m') : Balanced 0 writes m m' :=
  ⟨h.sp_eq, fun address hwrites _ => h.byte_eq address hwrites⟩

/-- One after the other, two stretches go no deeper than the deeper of them. -/
theorem Balanced.trans (h : Balanced depth writes m m') (h' : Balanced depth' writes' m' m'') :
    Balanced (max depth depth') (writes ++ writes') m m'' := by
  refine ⟨h'.sp_eq.trans h.sp_eq, fun address hwrites hbelow => ?_⟩
  obtain ⟨hfirst, hsecond⟩ := not_or.mp (mt List.mem_append.mpr hwrites)
  have hlater : ¬ Below m'.cpu.regs.sp (2 * depth') address := by
    rw [h.sp_eq]
    exact fun hlow => hbelow (hlow.mono (by omega))
  have hearlier : ¬ Below m.cpu.regs.sp (2 * depth) address := fun hlow =>
    hbelow (hlow.mono (by omega))
  exact (h'.byte_eq address hsecond hlater).trans (h.byte_eq address hfirst hearlier)

/-- A push before and a pop after go one level deeper. -/
theorem Balanced.enclosed (hpush : Pushes writes word m opened)
    (h : Balanced depth writes' opened closing) (hpop : Pops closing m') :
    Balanced (depth + 1) (writes ++ writes') m m' := by
  have hbytes := h.byte_eq
  rw [hpush.sp_eq] at hbytes
  constructor
  · rw [hpop.sp_eq, h.sp_eq, hpush.sp_eq]
    grind
  · intro address hwrites hbelow
    obtain ⟨hsaving, hinside⟩ := not_or.mp (mt List.mem_append.mpr hwrites)
    have houtside : ¬ Below m.cpu.regs.sp 2 address := fun hsaved => hbelow (hsaved.mono (by omega))
    have hdeeper : ¬ Below (m.cpu.regs.sp - 2) (2 * depth) address :=
      mt (below_add_two houtside).mp hbelow
    rw [hpop.bus_eq, hbytes address hinside hdeeper, hpush.byte_eq address hsaving houtside]

/-- What is popped is what has been pushed, if nothing else has been written in its place and the
    stack has not gone once around memory. -/
theorem Balanced.pop_eq (hpush : Pushes writes word m opened)
    (h : Balanced depth writes' opened closing) (hdepth : depth ≤ 32767)
    (hkept : ∀ address, Below m.cpu.regs.sp 2 address → address ∉ writes') :
    closing.pop.1 = word := by
  have hbyte (address : UInt16) (hsaved : Below m.cpu.regs.sp 2 address) :
      closing.bus.get address = opened.bus.get address := by
    refine h.byte_eq address (hkept address hsaved) ?_
    rw [hpush.sp_eq]
    exact not_below_of_saved (by omega) hsaved
  have hlow := hbyte _ (below_two_iff.mpr (.inr rfl))
  have hhigh := hbyte _ (below_two_iff.mpr (.inl rfl))
  have hword : closing.pop.1 = joinBytes (closing.bus.get (closing.cpu.regs.sp + 1))
      (closing.bus.get closing.cpu.regs.sp) := rfl
  rw [hword, h.sp_eq, hpush.sp_eq, show m.cpu.regs.sp - 2 + 1 = m.cpu.regs.sp - 1 by grind, hlow,
    hhigh, hpush.low_eq, hpush.high_eq, joinBytes_highByte_lowByte]

end Core

/-! ### Brackets -/

/-- The ways to put a word on the stack. -/
inductive Saving where
  | word (w : UInt16)
  | push (src : StackPair)
  | call (condition : Option Condition) (target : UInt16)
  | restart (target : UInt8)
  | service (line : LineSet)

namespace Saving

/-- The word that is saved. -/
def saved (s : Saving) (m : Core FlatMemory) : UInt16 :=
  match s with
  | .word w => w
  | .push src => m.cpu.regs.stackPair src
  | .call _ _ | .restart _ => m.cpu.regs.pc
  | .service _ => Core.returnAddress m.cpu

def run (s : Saving) (m : Core FlatMemory) : Core FlatMemory :=
  match s with
  | .word w => m.push w
  | .push src => (m.execute (.push src)).2
  | .call condition target => (m.execute (.call condition target)).2
  | .restart target => (m.execute (.restart target)).2
  | .service line => m.service line

/-- The condition of a call holds. -/
def Taken (s : Saving) (m : Core FlatMemory) : Prop :=
  match s with
  | .call condition _ => m.cpu.holds condition = true
  | _ => True

/-- What is written besides the saved word. -/
def writes : Saving → List UInt16
  | .service _ => [requestAddress]
  | _ => []

theorem pushes (s : Saving) {m : Core FlatMemory} (h : s.Taken m) :
    Core.Pushes s.writes (s.saved m) m (s.run m) := by
  cases s with
  | word w => exact Core.pushes_push m w
  | push src => exact Core.pushes_push m _
  | call condition target =>
      have htaken : m.cpu.holds condition = true := h
      unfold run Core.execute
      dsimp only
      rw [if_pos htaken]
      exact (Core.pushes_push m _).jumpTo target
  | restart target => exact (Core.pushes_push m _).jumpTo _
  | service line => exact Core.pushes_service m line

end Saving

/-- The ways to take a word from the stack. -/
inductive Restoring where
  | word
  | pop (dst : StackPair)
  | ret (condition : Option Condition)
  | retEnable

namespace Restoring

def run (r : Restoring) (m : Core FlatMemory) : Core FlatMemory :=
  match r with
  | .word => m.pop.2
  | .pop dst => (m.execute (.pop dst)).2
  | .ret condition => (m.execute (.ret condition)).2
  | .retEnable => (m.execute .retEnable).2

/-- The condition of a return holds. -/
def Taken (r : Restoring) (m : Core FlatMemory) : Prop :=
  match r with
  | .ret condition => m.cpu.holds condition = true
  | _ => True

/-- A word has come back to where it is wanted. F takes no more of it than the flags. -/
def Restored (r : Restoring) (w : UInt16) (m : Core FlatMemory) : Prop :=
  match r with
  | .word => m.pop.1 = w
  | .pop .af => (r.run m).cpu.regs.a = highByte w ∧ (r.run m).cpu.regs.f = lowByte w &&& 0xF0
  | .pop dst => (r.run m).cpu.regs.stackPair dst = w
  | .ret _ | .retEnable => (r.run m).cpu.regs.pc = w

theorem run_ret {condition : Option Condition} {m : Core FlatMemory}
    (h : m.cpu.holds condition = true) : (ret condition).run m = m.pop.2.jumpTo m.pop.1 := by
  cases condition with
  | none => rfl
  | some condition =>
      unfold run Core.execute
      dsimp only
      rw [if_pos h]

theorem pops (r : Restoring) {m : Core FlatMemory} (h : r.Taken m) : Core.Pops m (r.run m) := by
  cases r with
  | word => exact ⟨rfl, rfl⟩
  | pop dst => cases dst <;> exact ⟨rfl, rfl⟩
  | ret condition =>
      rw [run_ret h]
      exact ⟨rfl, rfl⟩
  | retEnable => exact ⟨rfl, rfl⟩

theorem restored (r : Restoring) {m : Core FlatMemory} (h : r.Taken m) :
    r.Restored m.pop.1 m := by
  cases r with
  | word => rfl
  | pop dst =>
      cases dst with
      | af => exact ⟨rfl, rfl⟩
      | bc | de | hl => exact joinBytes_highByte_lowByte _
  | ret condition => exact congrArg (·.cpu.regs.pc) (run_ret h)
  | retEnable => rfl

end Restoring

/-- A word that is saved and taken back. -/
structure Bracket where
  saving : Saving
  /-- The state in which the word is saved. -/
  before : Core FlatMemory
  restoring : Restoring
  /-- The state in which it is taken back. -/
  closing : Core FlatMemory

def Bracket.Restored (b : Bracket) : Prop :=
  b.restoring.Restored (b.saving.saved b.before) b.closing

/-- A run in which words are saved and taken back like brackets, up to `depth` of them within one
    another. Between the brackets anything else may happen, and write to the addresses in `writes`, as
    long as these are not of bytes that are saved at the time. -/
inductive Nested : (depth : Nat) → (writes : List UInt16) → List Bracket →
    Core FlatMemory → Core FlatMemory → Prop
  | done (m : Core FlatMemory) : Nested 0 [] [] m m
  | other {d : Nat} {ws ws' : List UInt16} {bs : List Bracket} {m m₁ m' : Core FlatMemory}
      (hother : m.Elsewhere ws m₁) (hrest : Nested d ws' bs m₁ m') : Nested d (ws ++ ws') bs m m'
  | bracket {d d' : Nat} {ws ws' : List UInt16} {bs bs' : List Bracket} {s : Saving} {r : Restoring}
      {m closing m' : Core FlatMemory} (hsave : s.Taken m) (hinner : Nested d ws bs (s.run m) closing)
      (hkept : ∀ address, Below m.cpu.regs.sp 2 address → address ∉ ws)
      (hrestore : r.Taken closing) (hrest : Nested d' ws' bs' (r.run closing) m') :
      Nested (max (d + 1) d') (s.writes ++ ws ++ ws') (⟨s, m, r, closing⟩ :: (bs ++ bs')) m m'

/-- Words can be saved as deep within one another as one likes. -/
theorem exists_nested (word : UInt16) (depth : Nat) (m : Core FlatMemory) :
    ∃ brackets m', Nested depth [] brackets m m' := by
  induction depth generalizing m with
  | zero => exact ⟨[], m, .done m⟩
  | succ depth ih =>
      obtain ⟨brackets, closing, hinner⟩ := ih (m.push word)
      have hnested := Nested.bracket (s := .word word) (r := .word) trivial hinner
        (fun _ _ => List.not_mem_nil) trivial (.done _)
      rw [Nat.max_zero] at hnested
      exact ⟨_, _, hnested⟩

/-! ### Steps of the machine -/

namespace Core

variable {m m' : Core FlatMemory} {report : Report} {instr : Instr}

theorem Framed.elsewhere {fp : Footprint} (h : Framed fp m m') (hsp : fp.stackPointer = false) :
    Elsewhere fp.memory m m' :=
  ⟨h.regs.sp_eq hsp, h.byte_eq⟩

/-- A step with an instruction that leaves the stack pointer alone is something else. -/
theorem elsewhere_step (h : m.step = (.ok report, m')) (hinstr : report.activity = .executed instr)
    (hsp : (Opcode.footprint m.cpu.regs (m.bus.get m.cpu.regs.pc) (m.bus.get (operandAddress m.cpu))
      (m.bus.get (operandAddress m.cpu + 1))).stackPointer = false) :
    Elsewhere (Opcode.footprint m.cpu.regs (m.bus.get m.cpu.regs.pc)
      (m.bus.get (operandAddress m.cpu)) (m.bus.get (operandAddress m.cpu + 1))).memory m m' :=
  (step_framed h hinstr).elsewhere hsp

/-- A step that executes an instruction does nothing to the stack but what the instruction does. -/
theorem step_executes (h : m.step = (.ok report, m')) (hinstr : report.activity = .executed instr) :
    ∃ before, Elsewhere [] m before ∧ Elsewhere [] (before.execute instr).2 m' := by
  obtain ⟨awake, fetched, hawake, -, hfetch, rfl⟩ := (outcome_step h).executed_inv hinstr
  obtain ⟨-, hbus, pc, hregs⟩ := fetch_flat hfetch
  have hpolled := ((framed_of_awake hawake).trans (framed_poll awake)).elsewhere rfl
  refine ⟨fetched, ⟨?_, fun address hwrites => ?_⟩, ?_, fun _ _ => rfl⟩
  · rw [hregs]
    exact hpolled.sp_eq
  · rw [hbus]
    exact hpolled.byte_eq address hwrites
  · rw [Processor.regs_settleEnable]

/-- A step that services a line does nothing to the stack but what the servicing does. -/
theorem step_services {line : LineSet} (h : m.step = (.ok report, m'))
    (hline : report.activity = .serviced line) :
    ∃ before, Elsewhere [] m before ∧ m' = before.service line := by
  obtain ⟨awake, hawake, -, rfl⟩ := (outcome_step h).serviced_inv hline
  exact ⟨_, ((framed_of_awake hawake).trans (framed_poll awake)).elsewhere rfl, rfl⟩

end Core

/-! ### Main statement -/

namespace Nested

variable {depth : Nat} {writes : List UInt16} {brackets : List Bracket} {m m' : Core FlatMemory}

theorem balanced (h : Nested depth writes brackets m m') : m.Balanced depth writes m' := by
  induction h with
  | done m => exact ⟨rfl, fun _ _ _ => rfl⟩
  | other hother hrest ih =>
      have hboth := hother.balanced.trans ih
      rwa [Nat.zero_max] at hboth
  | bracket hsave hinner hkept hrestore hrest ih ih' =>
      exact (ih.enclosed (Saving.pushes _ hsave) (Restoring.pops _ hrestore)).trans ih'

theorem restored (h : Nested depth writes brackets m m') (hdepth : depth ≤ 32768) :
    ∀ b ∈ brackets, b.Restored := by
  induction h with
  | done m => exact fun b hb => (List.not_mem_nil hb).elim
  | other hother hrest ih => exact ih hdepth
  | @bracket d d' ws ws' bs bs' s r m closing m' hsave hinner hkept hrestore hrest ih ih' =>
      intro b hb
      rcases List.mem_cons.mp hb with rfl | hb
      · have hword := hinner.balanced.pop_eq (s.pushes hsave) (by omega) hkept
        unfold Bracket.Restored
        rw [← hword]
        exact r.restored hrestore
      · rcases List.mem_append.mp hb with hb | hb
        · exact ih (by omega) b hb
        · exact ih' (by omega) b hb

end Nested

/-- The stack is last in, first out. If words are saved and taken back like brackets, not more than
    32768 of them within one another, and nothing else writes to bytes that are saved at the time, then
    every word comes back to its own bracket, the stack pointer ends where it began, and beyond what is
    written elsewhere no byte is changed but the two for each level below the stack pointer. -/
theorem stack_lastInFirstOut {depth : Nat} {writes : List UInt16} {brackets : List Bracket}
    {m m' : Core FlatMemory} (h : Nested depth writes brackets m m') (hdepth : depth ≤ 32768) :
    (∀ b ∈ brackets, b.Restored) ∧ m'.cpu.regs.sp = m.cpu.regs.sp ∧
      ∀ address, address ∉ writes → ¬ Below m.cpu.regs.sp (2 * depth) address →
        m'.bus.get address = m.bus.get address :=
  ⟨h.restored hdepth, h.balanced.sp_eq, h.balanced.byte_eq⟩

/-- An interrupt whose handler pushes AF and pops it as BC, with a stack pointer that wraps between the
    two bytes of the return address. -/
theorem stack_lastInFirstOut_wrapped :
    let m : Core FlatMemory := ⟨{ regs := { a := 0x12, f := 0xFF, sp := 0x0001, pc := 0x1234 } }, {}⟩
    let opened := Saving.run (.service (.only .timer)) m
    let pushed := Saving.run (.push .af) opened
    let popped := Restoring.run (.pop .bc) pushed
    let m' := Restoring.run .retEnable popped
    2 ≤ 32768 ∧ popped.cpu.regs.bc = 0x12F0 ∧ m'.cpu.regs.pc = 0x1234 ∧
      m'.cpu.regs.sp = 0x0001 ∧ m'.bus.get 0xC000 = 0x00 := by
  intro m opened pushed popped m'
  have hnested : Nested 2 [requestAddress] [⟨.service (.only .timer), m, .retEnable, popped⟩,
      ⟨.push .af, opened, .pop .bc, pushed⟩] m m' :=
    .bracket (s := .service _) (r := .retEnable) trivial
      (.bracket (s := .push _) (r := .pop _) trivial (.done pushed) (fun _ _ => List.not_mem_nil)
        trivial (.done popped))
      (fun _ _ => List.not_mem_nil) trivial (.done m')
  obtain ⟨hrestored, hsp, hbytes⟩ := stack_lastInFirstOut hnested (by decide)
  refine ⟨by decide, ?_, ?_, hsp, ?_⟩
  · have hpopped : popped.cpu.regs.bc = opened.cpu.regs.af :=
      hrestored _ (List.mem_cons_of_mem _ (List.mem_singleton_self _))
    have hpushed : opened.cpu.regs.af = joinBytes 0x12 (0xFF &&& 0xF0) := rfl
    rw [hpopped, hpushed]
    decide
  · exact hrestored _ List.mem_cons_self
  · rw [hbytes 0xC000 (by decide) (by unfold Below; decide)]
    exact FlatMemory.get_blank _

end Handheld
