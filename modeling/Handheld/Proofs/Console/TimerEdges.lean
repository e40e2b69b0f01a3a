/-
Module: Handheld.Proofs.Console.TimerEdges
Purpose: The counter of the timer counts the falling edges of its signal and nothing else. Three
  operations can make the signal fall: a cycle, a write to the divider and one to the control
  register. What they do is said once for all: an operation sets its register, and the counter counts
  if the signal falls by that. Over any number of operations the counter follows from how often the
  signal has fallen.
Main exports: Timer.Operation, Timer.set, Timer.operate_eq, Timer.edges,
  Timer.operateAll_counted, Board.operateTimer, Board.EdgeCounted, Board.timer_act,
  Console.counter_counts_edges
-/
import Handheld.Proofs.Board.TimerCount
import Handheld.Proofs.Console.Halt
import Handheld.Proofs.Console.OneClock

namespace Handheld

namespace Timer

variable {t : Timer}

/-! ### One operation -/

/-- What can happen to a timer: a cycle passes, or a register is written. -/
inductive Operation where
  | cycle
  | write (register : Register) (value : UInt8)
deriving DecidableEq, Repr

/-- The timer with what an operation sets, before anything is counted. -/
def set (t : Timer) : Operation → Timer
  | .cycle => { t with divider := t.divider + 1 }
  | .write .divider _ => { t with divider := 0 }
  | .write .counter value => { t with counter := value }
  | .write .modulo value => { t with modulo := value }
  | .write .control value => { t with control := value &&& 0x07 }

/-- An operation. The answer says whether an interrupt is due. -/
def operate (t : Timer) : Operation → Timer × Bool
  | .cycle => t.advance 1
  | .write register value => t.write register value

/-- The signal falls by an operation. -/
def Falls (t : Timer) (op : Operation) : Prop :=
  t.SignalUp ∧ ¬ (t.set op).SignalUp

instance (t : Timer) (op : Operation) : Decidable (t.Falls op) :=
  inferInstanceAs (Decidable (_ ∧ _))

/-- Whether an operation writes the counter itself, or what it is loaded with. -/
def Operation.loads : Operation → Bool
  | .write .counter _ | .write .modulo _ => true
  | _ => false

/-- An operation that writes the counter or the modulo leaves the signal alone. -/
theorem not_falls_of_loads (t : Timer) (op : Operation) (h : op.loads = true) : ¬ t.Falls op := by
  rintro ⟨hup, hdown⟩
  cases op with
  | cycle => cases h
  | write register value =>
      cases register with
      | counter | modulo => exact hdown hup
      | divider | control => cases h

theorem change_of_falls {op : Operation} (h : t.Falls op) :
    t.change (fun t => t.set op) = (t.set op).count := by
  have hbefore : t.signal = true := t.signal_iff_up.mpr h.1
  have hafter : (t.set op).signal = false :=
    (Bool.not_eq_true _).mp (mt (t.set op).signal_iff_up.mp h.2)
  unfold change
  dsimp only
  rw [hbefore, hafter]
  rfl

theorem change_of_not_falls {op : Operation} (h : ¬ t.Falls op) :
    t.change (fun t => t.set op) = (t.set op, false) := by
  have hsteady : ¬ (t.signal && !(t.set op).signal) = true := by
    rw [Bool.and_eq_true, Bool.not_eq_true', ← Bool.not_eq_true, t.signal_iff_up,
      (t.set op).signal_iff_up]
    exact h
  unfold change
  exact if_neg hsteady

/-- An operation sets its register and counts if the signal falls by that, whichever it is. -/
theorem operate_eq (t : Timer) (op : Operation) :
    t.operate op = if t.Falls op then (t.set op).count else (t.set op, false) := by
  have hchange : t.operate op = t.change fun t => t.set op := by
    cases op with
    | cycle => exact congrArg (Prod.mk t.tick.1) (Bool.false_or t.tick.2)
    | write register value =>
        cases register with
        | divider | control => rfl
        | counter =>
            exact (change_of_not_falls (t.not_falls_of_loads (.write .counter value) rfl)).symm
        | modulo =>
            exact (change_of_not_falls (t.not_falls_of_loads (.write .modulo value) rfl)).symm
  rw [hchange]
  split
  · next hfalls => exact change_of_falls hfalls
  · next hsteady => exact change_of_not_falls hsteady

/-- Counting once, told from the counter. -/
theorem count_eq (t : Timer) :
    t.count = ({ t with counter := if t.counter = 0xFF then t.modulo else t.counter + 1 },
      decide (t.counter = 0xFF)) := by
  unfold count
  split
  · next hlast => rw [decide_eq_true hlast]
  · next hbelow => rw [decide_eq_false hbelow]

/-- The counter keeps its value, unless the operation writes it. -/
theorem counter_set {op : Operation} (h : ∀ value, op ≠ .write .counter value) :
    (t.set op).counter = t.counter := by
  cases op with
  | cycle => rfl
  | write register value =>
      cases register with
      | counter => exact absurd rfl (h value)
      | _ => rfl

/-- Whether the signal is up hangs on divider and control register alone. -/
theorem signalUp_congr {t' : Timer} (hdivider : t'.divider = t.divider)
    (hcontrol : t'.control = t.control) : t'.SignalUp ↔ t.SignalUp := by
  unfold SignalUp selectedBit
  rw [hdivider, hcontrol]

/-- Counting shows in the counter alone. -/
theorem operate_registers (t : Timer) (op : Operation) :
    (t.operate op).1 = { t.set op with counter := (t.operate op).1.counter } := by
  rw [operate_eq, apply_ite Prod.fst, count_eq]
  split <;> rfl

theorem signalUp_operate (t : Timer) (op : Operation) :
    (t.operate op).1.SignalUp ↔ (t.set op).SignalUp := by
  have hregisters := t.operate_registers op
  apply signalUp_congr
  · rw [hregisters]
  · rw [hregisters]

/-! ### Any number of operations -/

/-- The timer after operations from a timer on, and whether an interrupt has become due. -/
def operateAll (t : Timer) (due : Bool) : List Operation → Timer × Bool
  | [] => (t, due)
  | op :: rest => operateAll (t.operate op).1 (due || (t.operate op).2) rest

/-- How often the signal falls. -/
def edges (t : Timer) : List Operation → Nat
  | [] => 0
  | op :: rest => (if t.Falls op then 1 else 0) + (t.operate op).1.edges rest

theorem modulo_set {op : Operation} (h : op.loads = false) : (t.set op).modulo = t.modulo := by
  cases op with
  | cycle => rfl
  | write register value =>
      cases register with
      | modulo => cases h
      | _ => rfl

theorem ne_write_counter {op : Operation} (h : op.loads = false) (value : UInt8) :
    op ≠ .write .counter value := by
  rintro rfl
  cases h

/-- One more operation, on a timer `t'` that has counted `n` times since it was `t`. -/
theorem counted_operate {t' : Timer} {op : Operation} {n : Nat} (h : op.loads = false)
    (hmodulo : t'.modulo = t.modulo) (hcounter : t'.counter.toNat = t.countedTo n) :
    (t'.operate op).1.modulo = t.modulo ∧
      (t'.operate op).1.counter.toNat = t.countedTo (n + if t'.Falls op then 1 else 0) ∧
      ((t'.operate op).2 = true ↔ t'.Falls op ∧ t.countedTo n = 255) := by
  have hset : (t'.set op).modulo = t.modulo := (modulo_set h).trans hmodulo
  have hkept : (t'.set op).counter.toNat = t.countedTo n := by
    rw [counter_set (ne_write_counter h), hcounter]
  rw [operate_eq]
  by_cases hfalls : t'.Falls op
  · obtain ⟨hvalue, hover⟩ := count_countedTo (t'.set op) hset hkept
    rw [if_pos hfalls, if_pos hfalls]
    refine ⟨?_, hvalue, hover.trans (and_iff_right hfalls).symm⟩
    rw [modulo_count]
    exact hset
  · rw [if_neg hfalls, if_neg hfalls]
    exact ⟨hset, hkept, iff_of_false Bool.false_ne_true fun hboth => hfalls hboth.1⟩

theorem operateAll_countedFrom {t' : Timer} {due : Bool} {n : Nat} {ops : List Operation}
    (h : ∀ op ∈ ops, op.loads = false) (hmodulo : t'.modulo = t.modulo)
    (hcounter : t'.counter.toNat = t.countedTo n)
    (hdue : due = true ↔ 256 ≤ t.counter.toNat + n) :
    (t'.operateAll due ops).1.counter.toNat = t.countedTo (n + t'.edges ops) ∧
      ((t'.operateAll due ops).2 = true ↔ 256 ≤ t.counter.toNat + (n + t'.edges ops)) := by
  induction ops generalizing t' due n with
  | nil => exact ⟨hcounter, hdue⟩
  | cons op rest ih =>
      obtain ⟨hfirst, hrest⟩ := List.forall_mem_cons.mp h
      obtain ⟨hmodulo', hcounter', hover⟩ := counted_operate hfirst hmodulo hcounter
      have hdue' : (due || (t'.operate op).2) = true ↔
          256 ≤ t.counter.toNat + (n + if t'.Falls op then 1 else 0) := by
        rw [Bool.or_eq_true, hdue, hover]
        by_cases hfalls : t'.Falls op
        · rw [if_pos hfalls, overflowed_succ, and_iff_right hfalls]
        · rw [if_neg hfalls, Nat.add_zero]
          exact or_iff_left fun hboth => hfalls hboth.1
      have hall := ih hrest hmodulo' hcounter' hdue'
      rw [Nat.add_assoc] at hall
      exact hall

/-- Over any operations that load neither register, the counter has counted once for each time that
    the signal has fallen, and an interrupt has become due if it has overflowed by that. -/
theorem operateAll_counted (t : Timer) {ops : List Operation} (h : ∀ op ∈ ops, op.loads = false) :
    (t.operateAll false ops).1.counter.toNat = t.countedTo (t.edges ops) ∧
      ((t.operateAll false ops).2 = true ↔ 256 ≤ t.counter.toNat + t.edges ops) := by
  have hcounter := t.counter.toNat_lt
  have hstart : t.counter.toNat = t.countedTo 0 := (countedTo_of_lt (n := 0) hcounter).symm
  have hnone : false = true ↔ 256 ≤ t.counter.toNat + 0 :=
    iff_of_false Bool.false_ne_true (Nat.not_le_of_lt hcounter)
  have hall := operateAll_countedFrom h rfl hstart hnone
  rw [Nat.zero_add] at hall
  exact hall

end Timer

/-! ### On the board -/

namespace Board

/-- An operation of the timer on the board. -/
def operateTimer (b : Board) : Timer.Operation → Board
  | .cycle => b.advanceTimer 1
  | .write register value => (b.write register.address value).1

theorem operateTimer_eq (b : Board) (op : Timer.Operation) :
    b.operateTimer op =
      { b with
        timer := (b.timer.operate op).1
        interrupts := b.interrupts.raise (.onlyIf (b.timer.operate op).2 .timer) } := by
  cases op with
  | cycle => exact b.advanceTimer_eq 1
  | write register value =>
      have hplace : Target.ofAddress register.address = .timer register := by
        cases register <;> decide +kernel
      unfold operateTimer write
      dsimp only
      rw [hplace]
      exact requestIf_eq _ _ _

/-- What an operation of the timer leaves behind: its register is set, the counter counts exactly if
    the signal falls, unless it is itself written, and nothing else changes. -/
structure EdgeCounted (b : Board) (op : Timer.Operation) (after : Board) : Prop where
  elsewhere : after = { b with timer := after.timer, interrupts := after.interrupts }
  registers : after.timer = { b.timer.set op with counter := after.timer.counter }
  falling : (∀ value, op ≠ .write .counter value) →
    b.timer.SignalUp → ¬ after.timer.SignalUp →
      after.timer.counter =
          (if b.timer.counter = 0xFF then b.timer.modulo else b.timer.counter + 1) ∧
        after.interrupts =
          (if b.timer.counter = 0xFF then b.interrupts.raise (.only .timer) else b.interrupts)
  steady : (∀ value, op ≠ .write .counter value) →
    ¬ (b.timer.SignalUp ∧ ¬ after.timer.SignalUp) →
      after.timer.counter = b.timer.counter ∧ after.interrupts = b.interrupts
  direct : ∀ value, op = .write .counter value →
    after.timer.counter = value ∧ after.interrupts = b.interrupts

theorem operateTimer_of_not_falls {b : Board} {op : Timer.Operation} (h : ¬ b.timer.Falls op) :
    b.operateTimer op = { b with timer := b.timer.set op } := by
  rw [operateTimer_eq, Timer.operate_eq, if_neg h]
  have hnone : LineSet.onlyIf false .timer = ⟨0⟩ := rfl
  rw [hnone, InterruptController.raise_empty]

theorem interrupts_of_falls {b : Board} {op : Timer.Operation} (h : b.timer.Falls op) :
    (b.operateTimer op).interrupts =
      if (b.timer.set op).counter = 0xFF then b.interrupts.raise (.only .timer)
      else b.interrupts := by
  rw [operateTimer_eq, Timer.operate_eq, if_pos h, Timer.count_eq]
  split
  · next hlast =>
    rw [decide_eq_true hlast]
    rfl
  · next hbelow =>
    rw [decide_eq_false hbelow]
    exact b.interrupts.raise_empty

theorem operateTimer_edgeCounted (b : Board) (op : Timer.Operation) :
    b.EdgeCounted op (b.operateTimer op) := by
  have hoperated := b.operateTimer_eq op
  have htimer : (b.operateTimer op).timer = (b.timer.operate op).1 := by rw [hoperated]
  have hsignal : (b.operateTimer op).timer.SignalUp ↔ (b.timer.set op).SignalUp := by
    rw [htimer]
    exact b.timer.signalUp_operate op
  refine ⟨?elsewhere, ?registers, ?falling, ?steady, ?direct⟩
  case elsewhere => rw [hoperated]
  case registers =>
    rw [htimer]
    exact b.timer.operate_registers op
  case falling =>
    intro hother hup hdown
    have hfalls : b.timer.Falls op := ⟨hup, mt hsignal.mpr hdown⟩
    have hloads : op.loads = false := by
      cases hop : op.loads with
      | false => rfl
      | true => exact absurd hfalls (b.timer.not_falls_of_loads op hop)
    have hkept := Timer.counter_set (t := b.timer) hother
    rw [interrupts_of_falls hfalls, htimer, Timer.operate_eq, if_pos hfalls, Timer.count_eq, hkept,
      Timer.modulo_set hloads]
    exact ⟨rfl, rfl⟩
  case steady =>
    intro hother hsteady
    rw [hsignal] at hsteady
    rw [operateTimer_of_not_falls hsteady]
    exact ⟨Timer.counter_set hother, rfl⟩
  case direct =>
    rintro value rfl
    rw [operateTimer_of_not_falls (b.timer.not_falls_of_loads _ rfl)]
    exact ⟨rfl, rfl⟩

/-- The board after operations of the timer in order. -/
def operateTimers (b : Board) (ops : List Timer.Operation) : Board :=
  ops.foldl operateTimer b

theorem operateTimers_eq (b : Board) (ops : List Timer.Operation) (due : Bool) :
    ({ b with interrupts := b.interrupts.raise (.onlyIf due .timer) } : Board).operateTimers ops =
      { b with
        timer := (b.timer.operateAll due ops).1
        interrupts := b.interrupts.raise (.onlyIf (b.timer.operateAll due ops).2 .timer) } := by
  induction ops generalizing b due with
  | nil => rfl
  | cons op rest ih =>
      have hfirst : ({ b with interrupts := b.interrupts.raise (.onlyIf due .timer) } :
          Board).operateTimer op =
            { b with
              timer := (b.timer.operate op).1
              interrupts :=
                b.interrupts.raise (.onlyIf (due || (b.timer.operate op).2) .timer) } := by
        rw [operateTimer_eq]
        dsimp only
        rw [InterruptController.raise_raise, LineSet.onlyIf_or]
      unfold operateTimers at ih ⊢
      rw [List.foldl_cons, hfirst]
      exact ih { b with timer := (b.timer.operate op).1 } _

/-- The falling edges of a whole run show in the counter and in the interrupt. -/
theorem operateTimers_counted (b : Board) {ops : List Timer.Operation}
    (h : ∀ op ∈ ops, op.loads = false) :
    (b.operateTimers ops).timer.counter.toNat = b.timer.countedTo (b.timer.edges ops) ∧
      (b.operateTimers ops).interrupts =
        if 256 ≤ b.timer.counter.toNat + b.timer.edges ops then b.interrupts.raise (.only .timer)
        else b.interrupts := by
  have hnone : b.interrupts.raise (.onlyIf false .timer) = b.interrupts :=
    b.interrupts.raise_empty
  have hall := b.operateTimers_eq ops false
  rw [hnone] at hall
  obtain ⟨hcounter, hdue⟩ := b.timer.operateAll_counted h
  rw [hall]
  refine ⟨hcounter, ?_⟩
  by_cases hover : 256 ≤ b.timer.counter.toNat + b.timer.edges ops
  · rw [if_pos hover, hdue.mpr hover]
    rfl
  · rw [if_neg hover, (Bool.not_eq_true _).mp (mt hdue.mp hover)]
    exact hnone

/-! ### The control register -/

/-- What an act can do to the timer. -/
inductive TimerAct (t : Timer) : Timer → Prop where
  | left : TimerAct t t
  | advanced (cycles : Nat) : TimerAct t (t.advance cycles).1
  | written (register : Timer.Register) (value : UInt8) : TimerAct t (t.write register value).1
  | fresh : TimerAct t {}

theorem timer_writeTarget (b : Board) (address : UInt16) (value : UInt8) (target : Target) :
    TimerAct b.timer (b.writeTarget address value target).1.timer := by
  obtain ⟨oam, hunits⟩ := b.exists_written address value target
  rw [hunits]
  cases target with
  | timer register => exact .written register value
  | _ => exact .left

theorem timer_act (b : Board) (act : Act) : TimerAct b.timer (b.act act).timer := by
  cases act with
  | write address value => exact b.timer_writeTarget address value (.ofAddress address)
  | timer cycles =>
      unfold Board.act
      dsimp only
      rw [advanceTimer_eq]
      exact .advanced cycles
  | picture cycles =>
      unfold Board.act
      dsimp only
      rw [advancePicture_eq]
      exact .left
  | press button =>
      obtain ⟨joypad, interrupts, hpressed⟩ := b.press_units button
      rw [Board.act, hpressed]
      exact .left
  | reset fill =>
      have hfresh : (b.reset fill).timer = {} := rfl
      unfold Board.act
      dsimp only
      rw [hfresh]
      exact .fresh
  | _ => exact .left

/-- Only the three lower bits of the control register are ever set. -/
theorem control_lt_of_timerAct {t t' : Timer} (h : TimerAct t t') (ht : t.control.toNat < 8) :
    t'.control.toNat < 8 := by
  cases h with
  | left => exact ht
  | advanced cycles =>
      rw [(t.advance_counted cycles).control_eq]
      exact ht
  | written register value =>
      have hset := t.operate_registers (.write register value)
      have hcontrol : (t.write register value).1.control =
          (t.set (.write register value)).control :=
        (congrArg Timer.control hset).trans rfl
      rw [hcontrol]
      cases register with
      | control =>
          have hmask := toNat_and_mask value 0x07 (n := 3) rfl
          have hlow : (value &&& 0x07).toNat < 8 := hmask ▸ Nat.mod_lt _ (by decide)
          exact hlow
      | _ => exact ht
  | fresh => decide

theorem control_lt_actAll (acts : List Act) {b : Board} (h : b.timer.control.toNat < 8) :
    (b.actAll acts).timer.control.toNat < 8 := by
  induction acts generalizing b with
  | nil => exact h
  | cons act rest ih => exact ih (control_lt_of_timerAct (b.timer_act act) h)

/-- The control register reads as it is, with the five bits above its own set. -/
theorem testBit_read_control (b : Board) {i : Nat} (hi : i < 8) :
    (b.read Timer.Register.control.address).toNat.testBit i =
      (decide (3 ≤ i) || b.timer.control.toNat.testBit i) := by
  have hplace : Target.ofAddress Timer.Register.control.address = .timer .control := by
    decide +kernel
  have hread : b.read Timer.Register.control.address = b.timer.control ||| 0xF8 := by
    unfold Board.read
    rw [hplace]
    rfl
  have hupper : (0xF8 : UInt8).toNat.testBit i = decide (3 ≤ i) := by
    match i, hi with
    | 0, _ | 1, _ | 2, _ | 3, _ | 4, _ | 5, _ | 6, _ | 7, _ => rfl
  rw [hread, UInt8.toNat_or, Nat.testBit_or, hupper, Bool.or_comm]

end Board

namespace Console

theorem control_lt_start {rom : Array UInt8} {settings : Settings} {c : Console} {notes : List Note}
    (h : powerOn rom settings = (.ok c, notes)) : c.board.timer.control.toNat < 8 := by
  unfold powerOn at h
  split at h
  · cases h
  · have hfresh : ({} : Timer).control.toNat < 8 := by decide
    cases h
    exact hfresh

theorem Reachable.control_lt {c : Console} (h : c.Reachable) : c.board.timer.control.toNat < 8 := by
  obtain ⟨events, rom, settings, start, notes, hstart, rfl⟩ := h.exists_events
  rw [board_performAll]
  exact Board.control_lt_actAll _ (control_lt_start hstart)

/-- The timer's counter counts falling edges, for every timer and every operation: a cycle, or a write
    of any value to one of its registers. Unless the operation writes the counter, it counts once if
    the signal was up before and is not after, is loaded from the modulo and requests the interrupt
    if it overflows by that, and else is left alone. So over any run that loads neither register it
    is told by the number of falling edges. In every console that can come about the control register
    is below 8 and reads with its upper five bits set. -/
theorem counter_counts_edges :
    (∀ (b : Board) (op : Timer.Operation), b.EdgeCounted op (b.operateTimer op)) ∧
      (∀ (b : Board) (ops : List Timer.Operation), (∀ op ∈ ops, op.loads = false) →
        (b.operateTimers ops).timer.counter.toNat = b.timer.countedTo (b.timer.edges ops) ∧
          (b.operateTimers ops).interrupts =
            if 256 ≤ b.timer.counter.toNat + b.timer.edges ops then
              b.interrupts.raise (.only .timer)
            else b.interrupts) ∧
      ∀ c : Console, c.Reachable → c.board.timer.control.toNat < 8 ∧
        ∀ i < 8, (c.board.read Timer.Register.control.address).toNat.testBit i =
          (decide (3 ≤ i) || c.board.timer.control.toNat.testBit i) := by
  refine ⟨Board.operateTimer_edgeCounted, fun b ops => b.operateTimers_counted, ?_⟩
  intro c hc
  exact ⟨hc.control_lt, fun i hi => c.board.testBit_read_control hi⟩

/-- A timer that watches bit 3 of its divider, which is up, is made to watch bit 9, which is not: the
    full counter overflows by that write. A second write that gives bit 3 back counts nothing. And a
    console of a program that has written nothing yet reads the control register as 0xF8. -/
theorem counter_counts_edges_otherBit :
    let b : Board := { timerWaiter.board with
      timer := { divider := 0x0008, counter := 0xFF, modulo := 0x42, control := 0x05 } }
    let ops : List Timer.Operation := [.write .control 0x04, .write .control 0x05]
    let after := b.operateTimer (.write .control 0x04)
    (b.timer.SignalUp ∧ ¬ after.timer.SignalUp ∧ after.timer.counter = 0x42 ∧
        after.interrupts = b.interrupts.raise (.only .timer)) ∧
      ((∀ op ∈ ops, op.loads = false) ∧ b.timer.edges ops = 1 ∧
        (b.operateTimers ops).timer.counter.toNat = 0x42 ∧
        (b.operateTimers ops).interrupts = b.interrupts.raise (.only .timer)) ∧
      ∃ c notes, powerOn clearerRom { ramFill := .zeros } = (.ok c, notes) ∧ c.Reachable ∧
        c.board.timer.control.toNat < 8 ∧
        ∀ i < 8, (c.board.read Timer.Register.control.address).toNat.testBit i = decide (3 ≤ i) := by
  intro b ops after
  obtain ⟨hstep, hrun, hreachable⟩ := counter_counts_edges
  have hup : b.timer.SignalUp := by decide
  have hdown : ¬ after.timer.SignalUp := by decide +kernel
  obtain ⟨hcounter, hinterrupts⟩ :=
    (hstep b (.write .control 0x04)).falling (fun value h => by cases h) hup hdown
  have hloads : ∀ op ∈ ops, op.loads = false := by decide
  have hedges : b.timer.edges ops = 1 := by decide
  obtain ⟨hcounted, hdue⟩ := hrun b ops hloads
  rw [hedges] at hcounted hdue
  refine ⟨⟨hup, hdown, hcounter, hinterrupts⟩, ⟨hloads, hedges, hcounted, hdue⟩, ?_⟩
  have hstarts : (powerOn clearerRom { ramFill := .zeros }).1.isOk = true := by decide +kernel
  cases hstart : powerOn clearerRom { ramFill := .zeros } with
  | mk result notes =>
      rw [hstart] at hstarts
      cases result with
      | error e => cases hstarts
      | ok c =>
          have hc : c.Reachable := .powerOn hstart
          obtain ⟨hlow, hbits⟩ := hreachable c hc
          have hfresh : c.board.timer.control = 0 := by
            unfold powerOn at hstart
            split at hstart
            · cases hstart
            · cases hstart
              rfl
          refine ⟨c, notes, rfl, hc, hlow, ?_⟩
          intro i hi
          rw [hbits i hi, hfresh]
          exact (congrArg _ (Nat.zero_testBit i)).trans (Bool.or_false _)

end Console

end Handheld
