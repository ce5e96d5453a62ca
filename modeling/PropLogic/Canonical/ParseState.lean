import PropLogic.Canonical.Token

/-!
# Reading formulas token by token

Canonical formulas are read from left to right with a stack of operators that wait for their right
operand. `ParseState.step?` reads one token and refuses it if no formula continues that way. An
operator takes over the operands that bind at least as tightly, so binary connectives associate to
the left.
-/

namespace PropLogic

/-- Something that waits for the operand to its right. -/
inductive Pending where
  | paren
  | not
  /-- A connective with its left operand. -/
  | binary (op : Connective) (l : Formula)
  deriving DecidableEq, Repr

/-- What is known after some tokens of a formula. -/
inductive ParseState where
  /-- An operand is due. -/
  | operand (stack : List Pending)
  /-- A phrase is complete; a connective may follow if it binds no tighter than `level`. -/
  | phrase (stack : List Pending) (f : Formula) (level : Nat)
  deriving DecidableEq, Repr

namespace ParseState

def start : ParseState := .operand []

/-- Gives `f` to the negations and to the connectives of at least level `k` that wait for it, the
last one first, and stops at a looser connective or at a parenthesis. -/
def absorb (k : Nat) : List Pending → Formula → List Pending × Formula
  | .not :: stack, f => absorb k stack (.not f)
  | .binary op l :: stack, f =>
      if k ≤ op.level then absorb k stack (.binary op l f) else (.binary op l :: stack, f)
  | stack, f => (stack, f)

/-- The state after one more token, if a formula can continue with it. -/
def step? : ParseState → Token → Option ParseState
  | .operand stack, .atom v => some (.phrase stack (.atom v) atomLevel)
  | .operand stack, .not => some (.operand (.not :: stack))
  | .operand stack, .openParen => some (.operand (.paren :: stack))
  | .operand _, _ => none
  | .phrase stack f level, .binary op =>
      if op.level ≤ level then
        let (stack', l) := absorb op.level stack f
        some (.operand (.binary op l :: stack'))
      else none
  | .phrase stack f _, .closeParen =>
      match absorb 0 stack f with
      | (.paren :: stack', g) => some (.phrase stack' g atomLevel)
      | _ => none
  | .phrase _ _ _, _ => none

/-- The state once the end of a formula is known: its phrase has gone to all operators up to the
innermost parenthesis. -/
def settle : ParseState → ParseState
  | .operand stack => .operand stack
  | .phrase stack f _ =>
      let (stack', g) := absorb 0 stack f
      .phrase stack' g 0

def result? (s : ParseState) : Option Formula :=
  match s.settle with
  | .phrase [] f _ => some f
  | _ => none

def expected (s : ParseState) : List Token := Token.all.filter fun t => (s.step? t).isSome

theorem mem_expected {s : ParseState} {t : Token} : t ∈ s.expected ↔ (s.step? t).isSome := by
  simp [expected, Token.mem_all]

end ParseState

end PropLogic
