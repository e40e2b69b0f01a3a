/-
Module: Handheld.Board.Noted
Purpose: A board that keeps the notes made on it. This is the machine that the console's processor
  runs on.
Main exports: NotedBoard, NotedBoard.noting, NotedBoard.advance
-/
import Handheld.Board.Basic
import Handheld.Processor.Bus

namespace Handheld

/-- A board with the notes that have been made, the latest first. -/
structure NotedBoard where
  board : Board
  latestFirst : List Note := []

namespace NotedBoard

/-- Change the board, and keep the notes made on the way. -/
@[inline]
def noting (f : Board → Board × List Note) : NotedBoard → NotedBoard
  | ⟨board, latestFirst⟩ =>
    let (board, notes) := f board
    ⟨board, notes.reverseAux latestFirst⟩

/-- Let clock cycles pass. -/
def advance (b : NotedBoard) (cycles : Nat) : NotedBoard :=
  b.noting fun board => board.advance cycles

instance : Bus NotedBoard where
  read b address := (b.board.read address, b)
  write b address value := b.noting fun board => board.write address value
  takeWake b :=
    let (wake, board) := b.board.takeWake
    (wake, { b with board })
  hear b note := { b with latestFirst := note :: b.latestFirst }

end NotedBoard

end Handheld
