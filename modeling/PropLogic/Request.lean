import PropLogic.Surface.Check
import PropLogic.Table.Classification

/-!
# Requests

A request is a formula in the notation of users. Its answer is the classified truth table.
-/

namespace PropLogic

/-- The answer to a request. The parentheses are checked first, then the characters, and what passes
is read and tabulated. -/
def answer (request : String) : Except RequestError ClassifiedTable :=
  if !Surface.parenthesesBalanced request then .error .unbalancedParentheses
  else if !Surface.validate request then .error .invalidCharacterSet
  else
    match TruthTable.ofText request >>= ClassifiedTable.ofTable with
    | .ok t => .ok t
    | .error e => .error (.evaluationFailure e)

end PropLogic
