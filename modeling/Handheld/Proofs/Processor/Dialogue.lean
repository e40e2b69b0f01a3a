/-
Module: Handheld.Proofs.Processor.Dialogue
Purpose: Dialogues with a bus. The processor is written for every bus; with the bus taken away, what
  is left is a finite tree of reads, writes and questions whose course the answers decide. A
  property of every step on every bus is then an induction over a tree of five constructors, and no
  longer a case analysis over the instruction set.
Main exports: Dialogue, Dialogue.run, Dialogue.bind, Dialogue.WritesAtMost, Speaks, Speaks.bind
-/
import Handheld.Processor.Basic
import Mathlib.Tactic.Choose

namespace Handheld

/-- What the processor asks of its bus, one request after the other, and what it makes of the
    answers. -/
inductive Dialogue (α : Type) where
  | done (result : α)
  | read (address : UInt16) (next : UInt8 → Dialogue α)
  | write (address : UInt16) (value : UInt8) (next : Dialogue α)
  | takeWake (next : Bool → Dialogue α)
  | hear (note : Note) (next : Dialogue α)

namespace Dialogue

variable {α β σ : Type}

/-- Hold a dialogue with a bus. -/
def run [Bus σ] : Dialogue α → σ → α × σ
  | done result, bus => (result, bus)
  | read address next, bus => (next (Bus.read bus address).1).run (Bus.read bus address).2
  | write address value next, bus => next.run (Bus.write bus address value)
  | takeWake next, bus => (next (Bus.takeWake bus).1).run (Bus.takeWake bus).2
  | hear note next, bus => next.run (Bus.hear bus note)

/-- One dialogue after another. -/
def bind : Dialogue α → (α → Dialogue β) → Dialogue β
  | done result, f => f result
  | read address next, f => .read address fun value => (next value).bind f
  | write address value next, f => .write address value (next.bind f)
  | takeWake next, f => .takeWake fun wake => (next wake).bind f
  | hear note next, f => .hear note (next.bind f)

/-- The second dialogue is held with the bus that the first one leaves. -/
theorem run_bind [Bus σ] (d : Dialogue α) (f : α → Dialogue β) (bus : σ) :
    (d.bind f).run bus = (f (d.run bus).1).run (d.run bus).2 := by
  induction d generalizing bus with
  | done result => rfl
  | read address next ih => exact ih _ _
  | write address value next ih => exact ih _
  | takeWake next ih => exact ih _ _
  | hear note next ih => exact ih _

/-- Whatever the answers, the dialogue writes an address no more than `n` times. -/
def WritesAtMost (address : UInt16) : Nat → Dialogue α → Prop
  | _, done _ => True
  | n, read _ next => ∀ value, (next value).WritesAtMost address n
  | n, write other _ next =>
    if other = address then ∃ m, n = m + 1 ∧ next.WritesAtMost address m
    else next.WritesAtMost address n
  | n, takeWake next => ∀ wake, (next wake).WritesAtMost address n
  | n, hear _ next => next.WritesAtMost address n

/-- A looser bound holds too. -/
theorem WritesAtMost.mono {address : UInt16} {m n : Nat} {d : Dialogue α} (hmn : m ≤ n)
    (h : d.WritesAtMost address m) : d.WritesAtMost address n := by
  induction d generalizing m n with
  | done result => trivial
  | read other next ih => exact fun value => ih value hmn (h value)
  | write other value next ih =>
    unfold WritesAtMost at h ⊢
    split at h
    · next heq =>
      obtain ⟨k, rfl, hk⟩ := h
      rw [if_pos heq]
      exact ⟨n - 1, by omega, ih (by omega) hk⟩
    · next hne =>
      rw [if_neg hne]
      exact ih hmn h
  | takeWake next ih => exact fun wake => ih wake hmn (h wake)
  | hear note next ih => exact ih hmn h

/-- Bounds add up. -/
theorem WritesAtMost.bind {address : UInt16} {m n : Nat} {d : Dialogue α} {f : α → Dialogue β}
    (hd : d.WritesAtMost address m) (hf : ∀ a, (f a).WritesAtMost address n) :
    (d.bind f).WritesAtMost address (n + m) := by
  induction d generalizing m with
  | done result => exact (hf result).mono (Nat.le_add_right n m)
  | read other next ih => exact fun value => ih value (hd value)
  | write other value next ih =>
    unfold WritesAtMost at hd
    unfold Dialogue.bind WritesAtMost
    split at hd
    · next heq =>
      obtain ⟨k, rfl, hk⟩ := hd
      rw [if_pos heq]
      exact ⟨n + k, by omega, ih hk⟩
    · next hne =>
      rw [if_neg hne]
      exact ih hd
  | takeWake next ih => exact fun wake => ih wake (hd wake)
  | hear note next ih => exact ih hd

/-- A single write counts once at most. -/
theorem writesAtMost_write {address : UInt16} {next : Dialogue α}
    (hnext : next.WritesAtMost address 0) (other : UInt16) (value : UInt8) :
    (Dialogue.write other value next).WritesAtMost address 1 := by
  unfold WritesAtMost
  split
  · exact ⟨0, rfl, hnext⟩
  · exact hnext.mono (Nat.zero_le 1)

/-- Two writes to different addresses count once at most. -/
theorem writesAtMost_write_write {address first second : UInt16} {next : Dialogue α}
    (h : first ≠ second) (hnext : next.WritesAtMost address 0) (x y : UInt8) :
    (Dialogue.write first x (.write second y next)).WritesAtMost address 1 := by
  unfold WritesAtMost
  split
  · next heq =>
    subst heq
    refine ⟨0, rfl, ?_⟩
    unfold WritesAtMost
    rw [if_neg h.symm]
    exact hnext
  · exact writesAtMost_write hnext second y

/-- Hold a dialogue that ends with a processor, and put that processor on the bus. -/
def runCore [Bus σ] (d : Dialogue (α × Processor)) (bus : σ) : α × Core σ :=
  ((d.run bus).1.1, ⟨(d.run bus).1.2, (d.run bus).2⟩)

end Dialogue

/-- A computation that acts on its bus by one dialogue alone, whatever bus it is, and that writes
    the given address no more than `n` times. -/
def Speaks {α : Type} (address : UInt16) (n : Nat)
    (f : {σ : Type} → [Bus σ] → σ → α × Core σ) : Prop :=
  ∃ d : Dialogue (α × Processor), d.WritesAtMost address n ∧
    ∀ {σ : Type} [Bus σ] (bus : σ), f bus = d.runCore bus

/-- The bus that is not there, for computations that do not ask it anything. -/
instance : Bus Unit where
  read _ _ := (0, ())
  write _ _ _ := ()

namespace Speaks

variable {α β : Type} {address : UInt16} {m n : Nat}

/-- A computation that leaves its bus alone, and so does the same without one. -/
theorem still {f : {σ : Type} → [Bus σ] → σ → α × Core σ}
    (h : ∀ {σ : Type} [Bus σ] (bus : σ), f bus = ((f ()).1, ⟨(f ()).2.cpu, bus⟩)) :
    Speaks address n f :=
  ⟨.done ((f ()).1, (f ()).2.cpu), trivial, h⟩

/-- One computation after another. -/
theorem bind {f : {σ : Type} → [Bus σ] → σ → α × Core σ}
    {g : {σ : Type} → [Bus σ] → α → Core σ → β × Core σ} (hf : Speaks address m f)
    (hg : ∀ a cpu, Speaks address n fun bus => g a ⟨cpu, bus⟩) :
    Speaks address (n + m) fun bus => g (f bus).1 (f bus).2 := by
  obtain ⟨d, hd, hrun⟩ := hf
  choose e he hrun' using hg
  refine ⟨d.bind fun r => e r.1 r.2, hd.bind fun r => he r.1 r.2, ?_⟩
  intro σ _ bus
  have hfirst : f bus = d.runCore bus := hrun bus
  have hsecond := hrun' (d.run bus).1.1 (d.run bus).1.2 (d.run bus).2
  dsimp only at hsecond ⊢
  rw [hfirst]
  simp only [Dialogue.runCore, Dialogue.run_bind] at hsecond ⊢
  exact hsecond

/-- A choice that does not hang on the bus. -/
theorem ite {c : Prop} [Decidable c] {f g : {σ : Type} → [Bus σ] → σ → α × Core σ}
    (hf : Speaks address n f) (hg : Speaks address n g) :
    Speaks address n fun bus => if c then f bus else g bus := by
  by_cases hc : c
  · simp only [if_pos hc]
    exact hf
  · simp only [if_neg hc]
    exact hg

end Speaks

end Handheld
