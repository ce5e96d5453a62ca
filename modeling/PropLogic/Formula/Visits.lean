import PropLogic.Formula.Basic

/-!
# Postfix form of formulas

A traversal visits the nodes of a formula in postfix order. The visits are instructions for a stack:
a variable is pushed, and an operator replaces its operands by the formula built from them.
-/

namespace PropLogic.Formula

/-- A node without its operands. -/
abbrev Visit := Node Unit

namespace Node

def shape {α : Type} : Node α → Visit
  | .atom v => .atom v
  | .not _ => .not ()
  | .binary op _ _ => .binary op () ()

end Node

/-- The nodes of a formula in the order in which a traversal comes to them. -/
def visits (f : Formula) : List Visit :=
  let record (n : Node Unit) : StateM (List Visit) Unit := modify fun seen => n.shape :: seen
  ((f.foldM record).run []).2.reverse

/-- Carries out one visit on a stack of formulas, unless the stack is too short. A binary operator
takes its right operand first. -/
def Node.apply : Visit → List Formula → Option (List Formula)
  | .atom v, stack => some (Formula.atom v :: stack)
  | .not _, f :: stack => some (Formula.not f :: stack)
  | .binary op _ _, r :: l :: stack => some (Formula.binary op l r :: stack)
  | _, _ => none

def replay (visits : List Visit) (stack : List Formula) : Option (List Formula) :=
  visits.foldlM (fun stack visit => visit.apply stack) stack

end PropLogic.Formula
