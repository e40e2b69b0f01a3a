/-
Module: Handheld.CommandLine.Hold
Purpose: A button that is held from some frame on, and how a user writes it.
Main exports: Hold, HoldError, Hold.parse
-/
import Handheld.Button
import Handheld.Text.Decimal

namespace Handheld.CommandLine

/-- Hold `button` from the start of `frame` to the end of the run. -/
structure Hold where
  button : Button
  frame : UInt32
deriving DecidableEq, Repr

/-- Why a text is not a hold. -/
inductive HoldError where
  /-- Nothing separates the button from the frame in `text`. -/
  | noSeparator (text : String)
  | button (unknown : UnknownButton)
  /-- What stands behind the separator is not a frame number. -/
  | frame (text : String)
deriving DecidableEq, Repr

/-- The complaint about a text that is not a hold. -/
def HoldError.message : HoldError → String
  | .noSeparator text => "expected BUTTON@FRAME, got `" ++ text ++ "`"
  | .button unknown => unknown.message
  | .frame text => "invalid frame number `" ++ text ++ "`"

/-- Cut a text at the first `mark`. Neither part holds the mark itself. -/
def cutAt (mark : Char) : List Char → Option (List Char × List Char)
  | [] => none
  | c :: rest =>
    if c = mark then some ([], rest)
    else (cutAt mark rest).map fun (front, back) => (c :: front, back)

/-- The highest number of a frame. -/
def lastFrame : Nat := 0xFFFFFFFF

/-- Read a hold: the name of a button, an `@`, and the number of a frame. Of several faults the one
    furthest to the left is reported. -/
def Hold.parse (s : String) : Except HoldError Hold :=
  match cutAt '@' s.toList with
  | none => .error (.noSeparator s)
  | some (name, number) =>
    match Button.parse (String.ofList name) with
    | .error unknown => .error (.button unknown)
    | .ok button =>
      match Text.natural lastFrame number with
      | .error _ => .error (.frame (String.ofList number))
      | .ok frame => .ok ⟨button, UInt32.ofNat frame⟩

/-- A text is cut at its first mark and nowhere else. -/
theorem cutAt_eq_some_iff {mark : Char} {cs front back : List Char} :
    cutAt mark cs = some (front, back) ↔ cs = front ++ mark :: back ∧ mark ∉ front := by
  induction cs generalizing front with
  | nil => simp [cutAt]
  | cons c rest ih =>
    by_cases here : c = mark
    · subst here
      cases front with
      | nil => simp [cutAt]
      | cons f fs => simp only [cutAt, if_true]; grind
    · cases front with
      | nil => simp [cutAt, here]
      | cons f fs =>
        simp only [cutAt, here, if_false, Option.map_eq_some_iff, Prod.exists, Prod.mk.injEq,
          List.cons.injEq, List.cons_append, List.mem_cons, not_or]
        constructor
        · rintro ⟨front, back, found, ⟨rfl, rfl⟩, rfl⟩
          have ⟨eq, out⟩ := ih.1 found
          exact ⟨⟨rfl, eq⟩, fun eq => here eq.symm, out⟩
        · rintro ⟨⟨rfl, eq⟩, _, out⟩
          exact ⟨fs, back, ih.2 ⟨eq, out⟩, ⟨rfl, rfl⟩, rfl⟩

end Handheld.CommandLine
