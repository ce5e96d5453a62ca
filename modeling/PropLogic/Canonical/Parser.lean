import PropLogic.Canonical.Fault
import PropLogic.Formula.Semantics

/-!
# Parsing canonical formulas

`Formula.parse` reads a whole text as one canonical formula.
-/

namespace PropLogic.Formula

def ofScan (scan : Text.Scan Token) : Except SyntaxFault Formula :=
  ParseState.start.read 0 scan.lexemes scan.stuckAt?

/-- The formula that a canonical text denotes. -/
def parse (text : String) : Except EvaluationError Formula :=
  if (Text.trim text.toList).isEmpty then
    .error (.empty text)
  else
    match ofScan (Token.scan text) with
    | .ok f => .ok f
    | .error fault => .error (.invalidSyntax fault.detail text (some fault.position))

/-- Trimming leaves nothing of the blank texts and something of all others. -/
theorem parse_eq (text : String) :
    parse text =
      if text.toList.all Text.isBlank then
        .error (.empty text)
      else
        match ofScan (Token.scan text) with
        | .ok f => .ok f
        | .error fault => .error (.invalidSyntax fault.detail text (some fault.position)) := by
  rw [parse, Text.isEmpty_trim]

end PropLogic.Formula

namespace PropLogic

def evaluate (text : String) (a : Assignment) : Except EvaluationError Bool := do
  let f ← Formula.parse text
  f.evaluate a

end PropLogic
