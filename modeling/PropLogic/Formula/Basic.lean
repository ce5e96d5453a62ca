import PropLogic.Variable

/-!
# Propositional formulas

A formula is a variable, a negation or one of four binary connectives applied to two formulas.
`Formula.foldM` is the bottom-up traversal with effects, `Formula.fold` the traversal without.
-/

namespace PropLogic

inductive Connective where
  | and
  | or
  | implies
  | iff
  deriving DecidableEq, Repr

namespace Connective

/-- How tightly a connective binds its operands. The conditional and the biconditional share the
loosest level. -/
def level : Connective → Nat
  | .and => 2
  | .or => 1
  | .implies | .iff => 0

theorem level_le (op : Connective) : op.level ≤ 2 := by
  cases op <;> decide

def glyph : Connective → Char
  | .and => '∧'
  | .or => '∨'
  | .implies => '→'
  | .iff => '↔'

def apply : Connective → Bool → Bool → Bool
  | .and, x, y => x && y
  | .or, x, y => x || y
  | .implies, x, y => !x || y
  | .iff, x, y => x == y

end Connective

/-- The level of negations, above every connective. -/
abbrev unaryLevel : Nat := 3

/-- The level of variables and of formulas in parentheses. -/
abbrev atomLevel : Nat := 4

inductive Formula where
  | atom (v : Variable)
  | not (f : Formula)
  | binary (op : Connective) (l r : Formula)
  deriving DecidableEq, Repr

namespace Formula

/-- One node of a formula, with a result of type `α` in place of each operand. -/
inductive Node (α : Type) where
  | atom (v : Variable)
  | not (a : α)
  | binary (op : Connective) (a b : α)
  deriving DecidableEq, Repr

/-- Computes a result for every node from the results of its operands. The effects of a left operand
come before those of the right one, and both before those of the node itself. -/
def foldM {m : Type → Type} [Monad m] {α : Type} (f : Node α → m α) : Formula → m α
  | .atom v => f (.atom v)
  | .not g => do
      let a ← g.foldM f
      f (.not a)
  | .binary op l r => do
      let a ← l.foldM f
      let b ← r.foldM f
      f (.binary op a b)

def fold {α : Type} (f : Node α → α) (g : Formula) : α := Id.run (g.foldM fun n => pure (f n))

section Fold

variable {α : Type} (f : Node α → α)

@[simp] theorem fold_atom (v : Variable) : (atom v).fold f = f (.atom v) := rfl

@[simp] theorem fold_not (g : Formula) : (Formula.not g).fold f = f (.not (g.fold f)) := rfl

@[simp] theorem fold_binary (op : Connective) (l r : Formula) :
    (binary op l r).fold f = f (.binary op (l.fold f) (r.fold f)) := rfl

end Fold

def occurrences : Formula → List Variable :=
  fold fun
    | .atom v => [v]
    | .not a => a
    | .binary _ a b => a ++ b

@[simp] theorem occurrences_atom (v : Variable) : (atom v).occurrences = [v] := rfl

@[simp] theorem occurrences_not (f : Formula) : (Formula.not f).occurrences = f.occurrences := rfl

@[simp] theorem occurrences_binary (op : Connective) (l r : Formula) :
    (binary op l r).occurrences = l.occurrences ++ r.occurrences := rfl

def vars (f : Formula) : List Variable := Variable.inOrder f.occurrences

theorem mem_vars {v : Variable} {f : Formula} : v ∈ f.vars ↔ v ∈ f.occurrences :=
  Variable.mem_inOrder

/-- The constructor form of a formula, as log records show it. -/
def outline : Formula → String :=
  fold fun
    | .atom v => s!"Variable({v.capital})"
    | .not a => s!"Not({a})"
    | .binary op a b => s!"{head op}({a}, {b})"
where
  head : Connective → String
    | .and => "And"
    | .or => "Or"
    | .implies => "Implies"
    | .iff => "Iff"

end Formula

end PropLogic
