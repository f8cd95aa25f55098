/-!
# Lines

The lines of a text. A line ends with a line feed, and a return in front of that belongs to the end.
The last line may lack its end.
-/

namespace RespWire

/-- A line without the return in front of its line feed. -/
def dropReturn (line : List Char) : List Char :=
  if line.getLast? = some '\r' then line.dropLast else line

/-- The lines that the pieces between line feeds are. What is behind the last line feed is a line
unless it is empty. -/
def linesOfPieces : List (List Char) → List (List Char)
  | [] => []
  | [piece] => if piece.isEmpty then [] else [piece]
  | piece :: pieces => dropReturn piece :: linesOfPieces pieces

def lines (cs : List Char) : List (List Char) := linesOfPieces (cs.splitOn '\n')

/-! Only a return in front of a line feed is part of an end. -/

example : lines "a\r\n\nb\rc\r".toList = ["a".toList, [], "b\rc\r".toList] := by decide +kernel

end RespWire
