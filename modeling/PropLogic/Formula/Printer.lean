import PropLogic.Formula.Basic

/-!
# Displayed formulas

Formulas are displayed with the signs `¬ ∧ ∨ → ↔` and few parentheses. A chain of conditionals and
biconditionals is always parenthesised; other left operands of the same level stay bare.
-/

namespace PropLogic.Formula

/-- How tightly the outermost operator of a formula binds. A variable counts as an operator without
operands. -/
def level : Formula → Nat
  | .binary op _ _ => op.level
  | _ => unaryLevel

inductive Side where
  | left
  | right
  deriving DecidableEq, Repr

/-- Whether an operand of level `own` is parenthesised under an operator of level `parent`. -/
def needsParentheses (own parent : Nat) (side : Side) : Bool :=
  own < parent || (own == parent && (side == .right || parent == 0))

def parenthesized (b : Bool) (cs : List Char) : List Char :=
  if b then '(' :: cs ++ [')'] else cs

def displayed : Formula → List Char
  | .atom v => [v.letter]
  | .not f => '¬' :: parenthesized (needsParentheses f.level unaryLevel .left) f.displayed
  | .binary op l r =>
      parenthesized (needsParentheses l.level op.level .left) l.displayed ++
        [' ', op.glyph, ' '] ++
        parenthesized (needsParentheses r.level op.level .right) r.displayed

instance : ToString Formula := ⟨fun f => String.ofList f.displayed⟩

end PropLogic.Formula
