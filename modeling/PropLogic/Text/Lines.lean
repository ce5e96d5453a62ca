/-!
# Lines

A line reaches up to a separator, and the separator belongs to it. Behind the last separator there
can be a line that is not ended.
-/

namespace PropLogic.Text

variable {α : Type} [DecidableEq α]

def completeLines (sep : α) (xs : List α) : List (List α) × List α :=
  let pieces := xs.splitOn sep
  (pieces.dropLast.map (· ++ [sep]), pieces.getLastD [])

/-- What is behind the last separator is a line of its own, unless it is empty. -/
def lastLine (rest : List α) : List (List α) := if rest.isEmpty then [] else [rest]

def lines (sep : α) (xs : List α) : List (List α) :=
  (completeLines sep xs).1 ++ lastLine (completeLines sep xs).2

/-- A line without the line feed at its end. A carriage return right before the line feed goes with
it, but one at the end of a text stays. -/
def chomp (line : List Char) : List Char :=
  match line.reverse with
  | '\n' :: '\r' :: cs => cs.reverse
  | '\n' :: cs => cs.reverse
  | _ => line

end PropLogic.Text
