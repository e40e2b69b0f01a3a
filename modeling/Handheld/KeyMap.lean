/-
Module: Handheld.KeyMap
Purpose: Bindings from key codes to buttons, in the order in which the codes were first bound.
Main exports: KeyMap, KeyMap.bind, KeyMap.unbind, KeyMap.button?, KeyMap.standard
-/
import Handheld.Button

namespace Handheld

/-- Bindings from key codes to buttons. A code has at most one button, and the bindings stand in the
    order in which their codes were added. -/
structure KeyMap where
  bindings : List (UInt32 × Button)
deriving DecidableEq, Repr, Inhabited

namespace KeyMap

/-- The map without bindings. -/
def empty : KeyMap :=
  ⟨[]⟩

/-- Replace the button of `code` where it stands, or add the binding at the end. -/
def bindIn (code : UInt32) (button : Button) : List (UInt32 × Button) → List (UInt32 × Button)
  | [] => [(code, button)]
  | entry :: rest =>
    if entry.1 = code then (code, button) :: rest else entry :: bindIn code button rest

/-- Bind `code` to `button`, in place of any button it had. -/
def bind (m : KeyMap) (code : UInt32) (button : Button) : KeyMap :=
  ⟨bindIn code button m.bindings⟩

/-- Drop the binding of `code`. -/
def unbind (m : KeyMap) (code : UInt32) : KeyMap :=
  ⟨m.bindings.filter fun entry => entry.1 ≠ code⟩

/-- The button bound to `code`. -/
def button? (m : KeyMap) (code : UInt32) : Option Button :=
  (m.bindings.find? fun entry => entry.1 = code).map Prod.snd

/-- The map that binds each pair in turn. -/
def ofList (pairs : List (UInt32 × Button)) : KeyMap :=
  pairs.foldl (fun m pair => m.bind pair.1 pair.2) empty

/-- The arrow keys, Z and X for the two action buttons, Enter for Start and Shift for Select. -/
def standard : KeyMap :=
  ofList [(37, .left), (38, .up), (39, .right), (40, .down),
    (90, .a), (88, .b), (13, .start), (16, .select)]

/-- The bindings in order, for display. -/
def describe (m : KeyMap) : String :=
  let entries := m.bindings.map fun (code, button) =>
    "(" ++ toString code ++ ", " ++ button.label ++ ")"
  "KeyMap \x7b bindings: [" ++ ", ".intercalate entries ++ "] \x7d"

variable (m : KeyMap) (code : UInt32) (button : Button)

/-- A code that has just been bound has that button, and the others keep theirs. -/
theorem button?_bind (other : UInt32) :
    (m.bind code button).button? other = if other = code then some button else m.button? other := by
  obtain ⟨entries⟩ := m
  unfold bind button?
  dsimp only
  induction entries with
  | nil =>
      by_cases hother : other = code
      · simp [bindIn, hother]
      · simp [bindIn, hother, Ne.symm hother]
  | cons entry rest ih =>
      unfold bindIn
      by_cases hentry : entry.1 = code
      · rw [if_pos hentry]
        by_cases hother : other = code
        · simp [hother]
        · have hne : code ≠ other := Ne.symm hother
          simp [hother, hne, hentry]
      · rw [if_neg hentry, List.find?_cons, List.find?_cons]
        by_cases hfound : entry.1 = other
        · have hother : other ≠ code := fun heq => hentry (hfound.trans heq)
          simp [hfound, hother]
        · simpa [hfound] using ih

/-- A code that has just been unbound has no button, and the others keep theirs. -/
theorem button?_unbind (other : UInt32) :
    (m.unbind code).button? other = if other = code then none else m.button? other := by
  unfold unbind button?
  rw [List.find?_filter]
  by_cases hother : other = code
  · simp [hother]
  · have hsame (entry : UInt32 × Button) : (decide (entry.1 ≠ code) = true ∧
        decide (entry.1 = other) = true) ↔ entry.1 = other := by
      rw [decide_eq_true_eq, decide_eq_true_eq]
      exact and_iff_right_of_imp fun hfound hcode => hother (hfound.symm.trans hcode)
    rw [if_neg hother]
    simp only [hsame]

end KeyMap

end Handheld
