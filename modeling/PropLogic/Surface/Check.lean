import PropLogic.Text.Blank

/-!
# Checks on requests

A request is checked before it is read: its parentheses are counted and its characters are compared
with those of the tokens. Neither check looks at the order of the characters.
-/

namespace PropLogic.Surface

/-- The characters of variables, parentheses and operators in requests. -/
def alphabet : List Char :=
  ['p', 'q', 'r', '(', ')', '¬', '!', '∧', '&', '∨', '|', '→', '=', '>', '↔', '<']

def isAllowed (c : Char) : Bool := Text.isBlank c || alphabet.contains c

/-- Whether every character of a trimmed text may stand in a request. -/
def validate (text : String) : Bool := (Text.trim text.toList).all isAllowed

theorem isAllowed_of_isBlank {c : Char} (h : Text.isBlank c = true) : isAllowed c = true := by
  rw [isAllowed, h, Bool.true_or]

/-- White space may stand in a request, so it makes no difference that the text is trimmed. -/
theorem validate_eq (text : String) : validate text = text.toList.all isAllowed :=
  Text.all_trim (fun _ hc => isAllowed_of_isBlank hc) text.toList

theorem validate_eq_true_iff {text : String} :
    validate text = true ↔ ∀ c ∈ text.toList, isAllowed c = true := by
  rw [validate_eq, List.all_eq_true]

/-- Whether the opening and the closing parentheses of a text are equally many. -/
def parenthesesBalanced (text : String) : Bool :=
  text.toList.count '(' == text.toList.count ')'

end PropLogic.Surface
