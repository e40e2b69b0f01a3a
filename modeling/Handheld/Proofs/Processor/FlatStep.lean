/-
Module: Handheld.Proofs.Processor.FlatStep
Purpose: Steps on flat memory. Two memories that differ in one byte look the same to a computation
  that never asks for that byte; a watched memory says which bytes were asked for.
Main exports: Watched, FlatMemory.AgreesOff, Dialogue.trail, Speaks.agree, Core.step_flat
-/
import Handheld.Processor.FlatMemory
import Handheld.Proofs.Processor.StepDialogue

namespace Handheld

/-- A machine with a record of the addresses it has been asked to read or write, the latest
    first. -/
structure Watched (σ : Type) where
  bus : σ
  touched : List UInt16 := []

instance {σ : Type} [Bus σ] : Bus (Watched σ) where
  read w address :=
    let (value, bus) := Bus.read w.bus address
    (value, ⟨bus, address :: w.touched⟩)
  write w address value := ⟨Bus.write w.bus address value, address :: w.touched⟩
  takeWake w :=
    let (wake, bus) := Bus.takeWake w.bus
    (wake, { w with bus })
  hear w note := { w with bus := Bus.hear w.bus note }

namespace FlatMemory

/-- Two memories are the same but for the byte at one address. -/
structure AgreesOff (address : UInt16) (m m' : FlatMemory) : Prop where
  get_eq : ∀ other, other ≠ address → m.get other = m'.get other
  wake_eq : m.wake = m'.wake
  wakeWired_eq : m.wakeWired = m'.wakeWired

theorem agreesOff_set (m : FlatMemory) (address : UInt16) (value : UInt8) :
    AgreesOff address m (m.set address value) where
  get_eq _ h := (get_set_ne m value h).symm
  wake_eq := rfl
  wakeWired_eq := rfl

/-- The same write to both memories keeps their agreement. -/
theorem AgreesOff.write {address : UInt16} {m m' : FlatMemory} (h : AgreesOff address m m')
    (place : UInt16) (value : UInt8) : AgreesOff address (m.set place value) (m'.set place value) where
  get_eq other hother := by
    by_cases heq : other = place
    · subst heq
      rw [get_set_self, get_set_self]
    · rw [get_set_ne m value heq, get_set_ne m' value heq]
      exact h.get_eq other hother
  wake_eq := h.wake_eq
  wakeWired_eq := h.wakeWired_eq

theorem AgreesOff.takeWake {address : UInt16} {m m' : FlatMemory} (h : AgreesOff address m m') :
    (Bus.takeWake m).1 = (Bus.takeWake m').1 ∧
      AgreesOff address (Bus.takeWake m).2 (Bus.takeWake m').2 := by
  have hwired := h.wakeWired_eq
  simp only [Bus.takeWake]
  by_cases hm : m.wakeWired = true
  · rw [if_pos hm, if_pos (hwired ▸ hm)]
    exact ⟨h.wake_eq, ⟨h.get_eq, rfl, hwired⟩⟩
  · rw [if_neg hm, if_neg (hwired ▸ hm)]
    exact ⟨rfl, h⟩

/-- What is read after a write. -/
theorem get_set (m : FlatMemory) (address other : UInt16) (value : UInt8) :
    (m.set address value).get other = if other = address then value else m.get other := by
  split
  · next h => rw [h, get_set_self]
  · next h => exact get_set_ne m value h

theorem get_blank (address : UInt16) : ({} : FlatMemory).get address = 0 := by
  simp [get]

end FlatMemory

namespace Dialogue

variable {α σ : Type} [Bus σ]

/-- The addresses that a dialogue asks of a bus, in order. -/
def trail : Dialogue α → σ → List UInt16
  | done _, _ => []
  | read address next, bus =>
    address :: (next (Bus.read bus address).1).trail (Bus.read bus address).2
  | write address value next, bus => address :: next.trail (Bus.write bus address value)
  | takeWake next, bus => (next (Bus.takeWake bus).1).trail (Bus.takeWake bus).2
  | hear note next, bus => next.trail (Bus.hear bus note)

/-- Watching a bus changes nothing but the record. -/
theorem run_watched (d : Dialogue α) (bus : σ) (seen : List UInt16) :
    d.run (⟨bus, seen⟩ : Watched σ) =
      ((d.run bus).1, ⟨(d.run bus).2, (d.trail bus).reverse ++ seen⟩) := by
  induction d generalizing bus seen with
  | done result => rfl
  | read address next ih =>
      have hnext := ih (Bus.read bus address).1 (Bus.read bus address).2 (address :: seen)
      rw [← List.singleton_append, ← List.append_assoc, ← List.reverse_cons] at hnext
      exact hnext
  | write address value next ih =>
      have hnext := ih (Bus.write bus address value) (address :: seen)
      rw [← List.singleton_append, ← List.append_assoc, ← List.reverse_cons] at hnext
      exact hnext
  | takeWake next ih => exact ih _ _ _
  | hear note next ih => exact ih _ _

/-- A dialogue that never mentions an address cannot tell apart memories that differ only there. -/
theorem run_agree {address : UInt16} (d : Dialogue α) {m m' : FlatMemory}
    (h : m.AgreesOff address m') (hoff : address ∉ d.trail m) :
    (d.run m).1 = (d.run m').1 ∧ (d.run m).2.AgreesOff address (d.run m').2 := by
  induction d generalizing m m' with
  | done result => exact ⟨rfl, h⟩
  | read place next ih =>
      obtain ⟨hplace, hrest⟩ := not_or.mp (fun h => hoff (List.mem_cons.mpr h))
      have hvalue : m.get place = m'.get place := h.get_eq place fun heq => hplace heq.symm
      have hnext := ih (m.get place) h hrest
      unfold run
      simp only [Bus.read]
      rw [← hvalue]
      exact hnext
  | write place value next ih =>
      obtain ⟨-, hrest⟩ := not_or.mp (fun h => hoff (List.mem_cons.mpr h))
      exact ih (h.write place value) hrest
  | takeWake next ih =>
      obtain ⟨hwake, hagree⟩ := h.takeWake
      have hnext := ih (Bus.takeWake m).1 hagree hoff
      unfold run
      rw [← hwake]
      exact hnext
  | hear note next ih => exact ih h hoff

end Dialogue

/-- Watching changes neither the result of a computation nor the processor, and two memories that
    differ in a byte it never asks for lead to the same result, the same processor, and memories
    that still differ in no other byte. -/
theorem Speaks.agree {α : Type} {place address : UInt16} {n : Nat}
    {f : {σ : Type} → [Bus σ] → σ → α × Core σ} (hf : Speaks place n f) {m m' : FlatMemory}
    (seen : List UInt16) (h : m.AgreesOff address m')
    (hoff : address ∉ (f (⟨m, seen⟩ : Watched FlatMemory)).2.bus.touched) :
    (f m).1 = (f m').1 ∧ (f m).2.cpu = (f m').2.cpu ∧
      (f m).2.bus.AgreesOff address (f m').2.bus := by
  obtain ⟨d, -, hrun⟩ := hf
  have hplain : f m = d.runCore m := hrun m
  have hplain' : f m' = d.runCore m' := hrun m'
  have hwatched : f ⟨m, seen⟩ = d.runCore (⟨m, seen⟩ : Watched FlatMemory) := hrun _
  rw [hwatched, Dialogue.runCore, Dialogue.run_watched] at hoff
  have htrail : address ∉ d.trail m := by
    intro hmem
    apply hoff
    exact List.mem_append_left _ (List.mem_reverse.mpr hmem)
  obtain ⟨hresult, hagree⟩ := d.run_agree h htrail
  obtain ⟨hvalue, hcpu⟩ := Prod.ext_iff.mp hresult
  rw [hplain, hplain']
  exact ⟨hvalue, hcpu, hagree⟩

namespace Core

theorem poll_quiet {p : Processor} {mem : FlatMemory}
    (hquiet : mem.get enableAddress &&& mem.get requestAddress &&& 0x1F = 0) :
    poll ⟨p, mem⟩ = (none, ⟨p, mem⟩) := by
  have hlines : (pendingLines ⟨p, mem⟩).1.bits = 0 := hquiet
  unfold poll
  dsimp only
  rw [if_pos hlines]
  rfl

/-- A step on flat memory without a line to service, for an opcode that stands alone. -/
theorem step_flat {p : Processor} {mem : FlatMemory} {instr : Instr} (hfault : p.fault = none)
    (hstopped : p.stopped = false) (hhalted : p.halted = false) (hbug : p.haltBug = false)
    (hquiet : mem.get enableAddress &&& mem.get requestAddress &&& 0x1F = 0)
    (hdecode : decode (mem.get p.regs.pc) = .complete instr) :
    step ⟨p, mem⟩ = finish (.ok instr) ⟨{ p with regs.pc := p.regs.pc + 1 }, mem⟩ := by
  have hbyte : fetchByte ⟨p, mem⟩ =
      (mem.get p.regs.pc, ⟨{ p with regs.pc := p.regs.pc + 1 }, mem⟩) := by
    simp [fetchByte, read, Bus.read, mapRegs, hbug]
  apply step_executing hfault hstopped hhalted (poll_quiet hquiet)
  rw [fetch_eq, hbyte, complete, hdecode]

end Core

end Handheld
