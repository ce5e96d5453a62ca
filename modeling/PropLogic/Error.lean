import PropLogic.Text.Quoted
import PropLogic.Variable

/-!
# Errors

`EvaluationError` says why a canonical text has no truth value, `RequestError` why a request is not
answered. The wording of each is one function, `message`.
-/

namespace PropLogic

/-- Why a canonical text has no truth value. -/
inductive EvaluationError where
  /-- The text has nothing but white space. -/
  | empty (input : String)
  /-- The text is no formula; `position?` is the byte offset at which reading stopped. -/
  | invalidSyntax (detail : String) (input : String) (position? : Option Nat)
  /-- The assignment has no value for a variable of the formula. -/
  | unboundVariable (v : Variable)
  /-- A column without rows has no classification. -/
  | noRows
  deriving DecidableEq, Repr

def EvaluationError.message : EvaluationError → String
  | .empty input => "Empty expression: " ++ Text.quoted input
  | .invalidSyntax detail input position? =>
      let place := match position? with
        | some n => s!" at position {n}"
        | none => ""
      "Failed to parse formula" ++ place ++ ": " ++ detail ++ ". Input: " ++ Text.quoted input
  | .unboundVariable v => s!"Variable '{v}' has no value in the assignment"
  | .noRows => "Cannot classify a truth table without rows"

/-- Why a request is not answered. The checks run in the order of the constructors. -/
inductive RequestError where
  /-- The opening and the closing parentheses are not equally many. -/
  | unbalancedParentheses
  /-- Some character belongs to no token and is not white space. -/
  | invalidCharacterSet
  /-- The request passed both checks but has no truth table. -/
  | evaluationFailure (cause : EvaluationError)
  deriving DecidableEq, Repr

def RequestError.message : RequestError → String
  | .unbalancedParentheses => "Unbalanced parentheses"
  | .invalidCharacterSet =>
      "Invalid expression: only the variables p, q, r, parentheses and the operators " ++
        "¬ ! ∧ & ∨ | → => ↔ <=> are allowed"
  | .evaluationFailure cause => "Evaluation failed: " ++ cause.message

def RequestError.cause? : RequestError → Option EvaluationError
  | .evaluationFailure cause => some cause
  | _ => none

/-- Whether two computations have the same outcome, the details of an error included. -/
def sameOutcome {ε α : Type} [BEq ε] [BEq α] : Except ε α → Except ε α → Bool
  | .ok a, .ok b => a == b
  | .error e, .error e' => e == e'
  | _, _ => false

theorem sameOutcome_iff {ε α : Type} [BEq ε] [LawfulBEq ε] [BEq α] [LawfulBEq α]
    {x y : Except ε α} : sameOutcome x y = true ↔ x = y := by
  cases x <;> cases y <;> simp [sameOutcome]

/-- The kinds of failure to read a stream of bytes or a file. -/
inductive ReadErrorKind where
  | invalidData
  | notFound
  | isADirectory
  | other
  deriving DecidableEq, Repr

/-- Why a stream of bytes or a file could not be read. -/
structure ReadError where
  kind : ReadErrorKind
  message : String
  deriving DecidableEq, Repr

namespace ReadError

def invalidUtf8 : ReadError := ⟨.invalidData, "stream did not contain valid UTF-8"⟩

def notFound : ReadError := ⟨.notFound, "No such file or directory (os error 2)"⟩

def isADirectory : ReadError := ⟨.isADirectory, "Is a directory (os error 21)"⟩

end ReadError

/-- An evaluation error seen as invalid data of the stream that it came from. -/
def EvaluationError.toReadError (e : EvaluationError) : ReadError := ⟨.invalidData, e.message⟩

/-- A request error seen as invalid data of the stream that it came from. -/
def RequestError.toReadError (e : RequestError) : ReadError := ⟨.invalidData, e.message⟩

end PropLogic
