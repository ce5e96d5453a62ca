import PropLogic.Table.Basic

/-!
# Classification of formulas

A formula that is true under every assignment is a tautology, one that is false under every
assignment a contradiction, and any other a contingency.
-/

namespace PropLogic

/-- How a formula behaves across all assignments. -/
inductive Classification where
  | tautology
  | contradiction
  | contingency
  deriving DecidableEq, Repr

namespace Classification

def label : Classification → String
  | .tautology => "TAUTOLOGIA"
  | .contradiction => "CONTRADIÇÃO"
  | .contingency => "CONTINGÊNCIA"

def sentence (c : Classification) : String := s!"A proposição é uma {c.label}."

instance : ToString Classification := ⟨label⟩

end Classification

/-- The classification of a column of results, which must not be empty. -/
def classify (results : List Bool) : Except EvaluationError Classification :=
  if results.isEmpty then .error .noRows
  else if results.all id then .ok .tautology
  else if results.any id then .ok .contingency
  else .ok .contradiction

def TruthTable.classify (t : TruthTable) : Except EvaluationError Classification :=
  PropLogic.classify t.results

structure ClassifiedTable where
  table : TruthTable
  classification : Classification
  deriving DecidableEq, Repr

def ClassifiedTable.ofTable (t : TruthTable) : Except EvaluationError ClassifiedTable := do
  let classification ← t.classify
  return ⟨t, classification⟩

end PropLogic
