import PropLogic.Canonical.ParseState

/-!
# Syntax faults

A text that is no canonical formula is rejected at one place: at a token that does not fit, at the
end of the text, or where no token begins.
-/

namespace PropLogic

/-- Where and why a canonical text is no formula. -/
inductive SyntaxFault where
  /-- No token begins at `offset`. -/
  | invalidToken (offset : Nat)
  /-- No formula continues with the token that was found. -/
  | unrecognizedToken (found : Text.Lexeme Token) (expected : List Token)
  /-- The text ends too early; `offset` is the end of its last token. -/
  | unrecognizedEnd (offset : Nat) (expected : List Token)
  deriving DecidableEq, Repr

namespace SyntaxFault

def position : SyntaxFault → Nat
  | .invalidToken offset => offset
  | .unrecognizedToken found _ => found.start
  | .unrecognizedEnd offset _ => offset

def alternatives : List String → String
  | [] => ""
  | [item] => item
  | [item, last] => item ++ " or " ++ last
  | item :: rest => item ++ ", " ++ alternatives rest

def expectation : List Token → String
  | [] => ""
  | tokens => "\nExpected one of " ++ alternatives (tokens.map fun t => s!"\"{t}\"")

def detail : SyntaxFault → String
  | .invalidToken offset => s!"Invalid token at {offset}"
  | .unrecognizedToken found expected =>
      s!"Unrecognized token `{found.token}` found at {found.start}:{found.stop}" ++
        expectation expected
  | .unrecognizedEnd offset expected =>
      s!"Unrecognized EOF found at {offset}" ++ expectation expected

end SyntaxFault

namespace ParseState

/-- The state in which a token is refused. A closing parenthesis settles the phrase before it; any
other token is refused as it stands. -/
def refusing (s : ParseState) : Token → ParseState
  | .closeParen => s.settle
  | _ => s

/-- Reads the lexemes of a text from state `s`, with `stop` as the end of the last token before
them. The first token that does not fit is reported even if the text has a place without token
later. -/
def read (s : ParseState) (stop : Nat) : List (Text.Lexeme Token) → Option Nat →
    Except SyntaxFault Formula
  | [], some offset => .error (.invalidToken offset)
  | [], none =>
      match s.result? with
      | some f => .ok f
      | none => .error (.unrecognizedEnd stop s.settle.expected)
  | lexeme :: rest, stuckAt? =>
      match s.step? lexeme.token with
      | some s' => s'.read lexeme.stop rest stuckAt?
      | none => .error (.unrecognizedToken lexeme (s.refusing lexeme.token).expected)

end ParseState

end PropLogic
