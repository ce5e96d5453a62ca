import PropLogic.Formula.Basic
import PropLogic.Text.Lexicon

/-!
# Tokens of the canonical notation

The canonical notation writes formulas with the words `not`, `and` and `or`, the signs `<=` for the
conditional and `==` for the biconditional, and parentheses.
-/

namespace PropLogic

inductive Token where
  | openParen
  | closeParen
  | not
  | binary (op : Connective)
  | atom (v : Variable)
  deriving DecidableEq, Repr

namespace Token

/-- Every token, in the order in which error messages list them. -/
def all : List Token :=
  [.openParen, .closeParen, .binary .implies, .binary .iff, .binary .and, .not, .binary .or,
   .atom .p, .atom .q, .atom .r]

theorem mem_all (t : Token) : t ∈ all := by
  rcases t with _ | _ | _ | op | v
  · decide
  · decide
  · decide
  · cases op <;> decide
  · cases v <;> decide

def spelling : Token → List Char
  | .openParen => ['(']
  | .closeParen => [')']
  | .not => ['n', 'o', 't']
  | .binary .and => ['a', 'n', 'd']
  | .binary .or => ['o', 'r']
  | .binary .implies => ['<', '=']
  | .binary .iff => ['=', '=']
  | .atom v => [v.letter]

theorem spelling_ne_nil (t : Token) : t.spelling ≠ [] := by
  rcases t with _ | _ | _ | op | v
  case binary => cases op <;> simp [spelling]
  all_goals simp [spelling]

instance : ToString Token := ⟨fun t => String.ofList t.spelling⟩

def lexicon : Text.Lexicon Token := all.map fun t => (t.spelling, t)

def scan (text : String) : Text.Scan Token := lexicon.scan 0 text.toList

end Token

end PropLogic
