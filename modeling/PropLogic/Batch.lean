import PropLogic.Request
import PropLogic.Text.Lines

/-!
# Batches of requests

A batch has one request on each line. Blank lines and lines that begin with `#` are skipped, and a
request that fails does not stop the others.
-/

namespace PropLogic

/-- The answer to one line of a batch. -/
structure Entry where
  /-- The number of the line, counted from one. -/
  line : Nat
  /-- The request as written on the line, without the white space around it. -/
  expression : String
  outcome : Except RequestError ClassifiedTable

namespace Entry

def succeeded (e : Entry) : Bool := e.outcome.isOk

end Entry

namespace Batch

/-- The request on a line, unless the line is skipped. -/
def request? (line : List Char) : Option String :=
  match Text.trim line with
  | [] => none
  | '#' :: _ => none
  | cs => some (String.ofList cs)

def ofLine? (number : Nat) (line : List Char) : Option Entry :=
  (request? line).map fun e => ⟨number, e, answer e⟩

def lines (text : String) : List (List Char) := (Text.lines '\n' text.toList).map Text.chomp

/-- The entries of lines that are numbered from `number`. -/
def entries (number : Nat) : List (List Char) → List Entry
  | [] => []
  | line :: rest => (ofLine? number line).toList ++ entries (number + 1) rest

def ofText (text : String) : List Entry := entries 1 (lines text)

end Batch

end PropLogic
