import PropLogic.Canonical.Parser
import PropLogic.Surface.Normal
import PropLogic.Table.Enumeration

/-!
# Truth tables

A truth table holds the value of a formula under every assignment to its columns, in the order of
the enumeration.
-/

namespace PropLogic

structure Row where
  values : List Bool
  result : Bool
  deriving DecidableEq, Repr

/-- The value of a formula under every assignment to its columns. -/
structure TruthTable where
  columns : List Variable
  rows : List Row
  deriving DecidableEq, Repr

namespace TruthTable

def row (f : Formula) (columns : List Variable) (values : List Bool) :
    Except EvaluationError Row := do
  let result ← f.evaluate (Assignment.ofColumns columns values)
  return ⟨values, result⟩

def tabulate (f : Formula) (columns : List Variable) : Except EvaluationError TruthTable := do
  let rows ← (Enumeration.ofColumns columns).rows.mapM (row f columns)
  return ⟨columns, rows⟩

def ofFormula (f : Formula) : Except EvaluationError TruthTable := tabulate f f.vars

/-- The table of a formula in the notation of requests. Its columns are the variables whose letters
stand in the text. -/
def ofText (text : String) : Except EvaluationError TruthTable := do
  let f ← Formula.parse (Surface.normalize text)
  tabulate f (mentionedVariables text)

def results (t : TruthTable) : List Bool := t.rows.map Row.result

/-- The result in the row of an assignment, if the assignment has a value for every column. -/
def resultFor? (t : TruthTable) (a : Assignment) : Option Bool := do
  let values ← t.columns.mapM a
  let row ← t.rows.find? fun row => row.values == values
  return row.result

end TruthTable

end PropLogic
