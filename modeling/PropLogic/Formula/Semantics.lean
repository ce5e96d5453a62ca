import PropLogic.Error
import PropLogic.Formula.Basic

/-!
# Truth values of formulas

`Formula.Holds` is the classical meaning of a formula under a valuation of all variables.
`Formula.evaluate` computes under an assignment that may leave variables unbound. It looks at both
operands of every connective, so an unbound variable is reported wherever it stands.
-/

namespace PropLogic

/-- An assignment of truth values to some of the variables. -/
abbrev Assignment := Variable → Option Bool

namespace Assignment

def ofColumns (columns : List Variable) (values : List Bool) : Assignment :=
  fun v => (columns.zip values).lookup v

def ofValuation (val : Variable → Bool) : Assignment := fun v => some (val v)

/-- The bound variables with their values, in column order. -/
def bindings (a : Assignment) : List (Variable × Bool) :=
  Variable.all.filterMap fun v => (a v).map fun b => (v, b)

end Assignment

namespace Formula

/-- Whether a formula is true under a valuation of all variables. -/
def Holds (val : Variable → Bool) : Formula → Prop
  | .atom v => val v = true
  | .not f => ¬ f.Holds val
  | .binary .and l r => l.Holds val ∧ r.Holds val
  | .binary .or l r => l.Holds val ∨ r.Holds val
  | .binary .implies l r => l.Holds val → r.Holds val
  | .binary .iff l r => l.Holds val ↔ r.Holds val

/-- The truth value of a formula, or the leftmost variable without a value. -/
def evaluate (a : Assignment) : Formula → Except EvaluationError Bool
  | .atom v =>
      match a v with
      | some b => .ok b
      | none => .error (.unboundVariable v)
  | .not f => do
      let x ← f.evaluate a
      return !x
  | .binary op l r => do
      let x ← l.evaluate a
      let y ← r.evaluate a
      return op.apply x y

end Formula

end PropLogic
