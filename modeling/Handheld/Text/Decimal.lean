/-
Module: Handheld.Text.Decimal
Purpose: Decimal numbers in text that a user has typed: an optional sign, then digits, with a bound
  on the value.
Main exports: NumberError, natural, integer
-/

namespace Handheld.Text

/-- Why a text is not a number of the wanted range. -/
inductive NumberError where
  | empty
  | invalidDigit
  | tooLarge
  | tooSmall
deriving DecidableEq, Repr

/-- The complaint about a text that is not a number. -/
def NumberError.message : NumberError → String
  | .empty => "cannot parse integer from empty string"
  | .invalidDigit => "invalid digit found in string"
  | .tooLarge => "number too large to fit in target type"
  | .tooSmall => "number too small to fit in target type"

/-- The value of a decimal digit. Only the ten ASCII digits are digits. -/
def digit? (c : Char) : Option Nat :=
  if c.isDigit then some (c.toNat - '0'.toNat) else none

/-- Continue the number `value` by the digits of a text. The first character that is no digit, or
    that takes the number above `limit`, decides which error it is. -/
def continued (limit : Nat) (above : NumberError) :
    (value : Nat) → List Char → Except NumberError Nat
  | value, [] => .ok value
  | value, c :: rest =>
    match digit? c with
    | none => .error .invalidDigit
    | some d =>
      if 10 * value + d ≤ limit then continued limit above (10 * value + d) rest else .error above

/-- The number that one or more digits stand for. A sign with nothing behind it lacks a digit. -/
def digits (limit : Nat) (above : NumberError) : List Char → Except NumberError Nat
  | [] => .error .invalidDigit
  | cs => continued limit above 0 cs

/-- A number from 0 to `limit`, with or without a plus sign. -/
def natural (limit : Nat) : List Char → Except NumberError Nat
  | [] => .error .empty
  | '+' :: cs => digits limit .tooLarge cs
  | cs => digits limit .tooLarge cs

/-- A number from `-limit - 1` to `limit`, with or without a sign. -/
def integer (limit : Nat) : List Char → Except NumberError Int
  | [] => .error .empty
  | '-' :: cs => (digits (limit + 1) .tooSmall cs).map fun n => -(n : Int)
  | '+' :: cs => (digits limit .tooLarge cs).map Int.ofNat
  | cs => (digits limit .tooLarge cs).map Int.ofNat

/-- A number that has been read is within the limit. -/
theorem continued_le {limit value n : Nat} {above : NumberError} {cs : List Char}
    (within : value ≤ limit) (read : continued limit above value cs = .ok n) : n ≤ limit := by
  fun_induction continued limit above value cs with
  | case1 value => cases read; exact within
  | case2 => cases read
  | case3 value c rest d _ fits ih => exact ih fits read
  | case4 => cases read

end Handheld.Text
