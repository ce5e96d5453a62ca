import PropLogic.Proofs.Text.Escaping
import PropLogic.Request

/-!
# Messages tell their errors apart

The first letter of a message names the kind of the error. A syntax error is described by a sentence
of any form, which may itself look like a part of a message. Still the position ends at the first
colon, and the quoted input is found from the end of the message, so an error is recovered from its
message.
-/

namespace PropLogic

namespace EvaluationError

/-! ### The parts of a message -/

def place : Option Nat → String
  | some n => " at position " ++ toString n
  | none => ""

private theorem message_empty (input : String) :
    (empty input).message = "Empty expression: " ++ Text.quoted input := rfl

private theorem message_invalidSyntax (detail input : String) (position? : Option Nat) :
    (invalidSyntax detail input position?).message =
      "Failed to parse formula" ++ place position? ++ ": " ++ detail ++ ". Input: " ++
        Text.quoted input := by
  cases position? <;> rfl

private theorem message_unboundVariable (v : Variable) :
    (unboundVariable v).message =
      "Variable '" ++ String.singleton v.letter ++ "' has no value in the assignment" := rfl

def initial : EvaluationError → Char
  | .empty _ => 'E'
  | .invalidSyntax .. => 'F'
  | .unboundVariable _ => 'V'
  | .noRows => 'C'

private theorem head?_message (e : EvaluationError) : e.message.toList.head? = some e.initial := by
  cases e with
  | empty input => simp [message_empty, initial]
  | invalidSyntax detail input position? => simp [message_invalidSyntax, initial]
  | unboundVariable v => simp [message_unboundVariable, initial]
  | noRows => rfl

/-! ### Recovering the parts -/

private theorem place_append_inj {m? n? : Option Nat} {detail detail' : String}
    (h : place m? ++ ": " ++ detail = place n? ++ ": " ++ detail') :
    m? = n? ∧ detail = detail' := by
  have hplace (k : Nat) (s : String) : (place (some k) ++ ": " ++ s).toList =
      " at position ".toList ++ (Nat.toDigits 10 k ++ ':' :: ' ' :: s.toList) := by
    simp [place]
  have hchars := congrArg String.toList h
  cases m? with
  | none =>
      cases n? with
      | none => exact ⟨rfl, (String.append_right_inj _).mp h⟩
      | some n =>
          rw [hplace] at hchars
          simp [place] at hchars
  | some m =>
      rw [hplace] at hchars
      cases n? with
      | none => simp [place] at hchars
      | some n =>
          rw [hplace, List.append_cancel_left_eq] at hchars
          obtain ⟨rfl, hrest⟩ :=
            Text.toDigits_append_cons_inj (by decide) (by decide) (by decide) hchars
          exact ⟨rfl, String.toList_inj.mp (List.cons.inj hrest).2⟩

/-- The quoted input is found from the end. -/
private theorem append_quoted_inj {s s' input input' : String}
    (h : s ++ ". Input: " ++ Text.quoted input = s' ++ ". Input: " ++ Text.quoted input') :
    s = s' ∧ input = input' := by
  have hmark (t a : String) : (t ++ ". Input: " ++ Text.quoted a).toList =
      (t ++ ". Input:").toList ++ ' ' :: Text.quotedChars a.toList := by
    simp [Text.quoted]
  rw [← String.toList_inj, hmark, hmark] at h
  obtain ⟨hfront, hinput⟩ := Text.append_quotedChars_inj h
  exact ⟨(String.append_left_inj _).mp (String.toList_inj.mp hfront), String.toList_inj.mp hinput⟩

private theorem eq_of_message_eq {x y : EvaluationError} (h : x.message = y.message) : x = y := by
  have hinitial : x.initial = y.initial :=
    Option.some.inj (by rw [← head?_message x, h, head?_message y])
  cases x with
  | empty input =>
      cases y with
      | empty input' =>
          rw [message_empty, message_empty, String.append_right_inj] at h
          rw [Text.quoted_injective h]
      | _ => simp [initial] at hinitial
  | invalidSyntax detail input position? =>
      cases y with
      | invalidSyntax detail' input' position'? =>
          rw [message_invalidSyntax, message_invalidSyntax] at h
          obtain ⟨hfront, rfl⟩ := append_quoted_inj h
          simp only [String.append_assoc, String.append_right_inj] at hfront
          simp only [← String.append_assoc] at hfront
          obtain ⟨rfl, rfl⟩ := place_append_inj hfront
          rfl
      | _ => simp [initial] at hinitial
  | unboundVariable v =>
      cases y with
      | unboundVariable v' =>
          rw [message_unboundVariable, message_unboundVariable, String.append_left_inj,
            String.append_right_inj] at h
          rw [Variable.letter_injective (String.singleton_inj.mp h)]
      | _ => simp [initial] at hinitial
  | noRows =>
      cases y with
      | noRows => rfl
      | _ => simp [initial] at hinitial

end EvaluationError

namespace RequestError

private theorem message_evaluationFailure (cause : EvaluationError) :
    (evaluationFailure cause).message = "Evaluation failed: " ++ cause.message := rfl

def initial : RequestError → Char
  | .unbalancedParentheses => 'U'
  | .invalidCharacterSet => 'I'
  | .evaluationFailure _ => 'E'

private theorem head?_message (e : RequestError) : e.message.toList.head? = some e.initial := by
  cases e with
  | unbalancedParentheses => rfl
  | invalidCharacterSet =>
      unfold message
      rw [String.toList_append]
      rfl
  | evaluationFailure cause => simp [message_evaluationFailure, initial]

private theorem eq_of_message_eq {x y : RequestError} (h : x.message = y.message) : x = y := by
  have hinitial : x.initial = y.initial :=
    Option.some.inj (by rw [← head?_message x, h, head?_message y])
  cases x with
  | unbalancedParentheses =>
      cases y with
      | unbalancedParentheses => rfl
      | _ => simp [initial] at hinitial
  | invalidCharacterSet =>
      cases y with
      | invalidCharacterSet => rfl
      | _ => simp [initial] at hinitial
  | evaluationFailure cause =>
      cases y with
      | evaluationFailure cause' =>
          rw [message_evaluationFailure, message_evaluationFailure, String.append_right_inj] at h
          rw [EvaluationError.eq_of_message_eq h]
      | _ => simp [initial] at hinitial

end RequestError

/-- Errors with the same message are equal, whatever sentence describes a syntax error and whatever
text is quoted. -/
theorem message_injective :
    (∀ x y : EvaluationError, x.message = y.message → x = y) ∧
      ∀ x y : RequestError, x.message = y.message → x = y :=
  ⟨fun _ _ h => EvaluationError.eq_of_message_eq h, fun _ _ h => RequestError.eq_of_message_eq h⟩

/-- The sentence of the first error looks like the end of a message, and its input ends with a
backslash. The second error is what a request is answered with. -/
theorem message_injective_lookalike :
    let e := EvaluationError.invalidSyntax "no end. Input: \"p" "q\\" (some 3)
    let text := "Failed to parse formula at position 3: no end. Input: \"p. Input: \"q\\\\\""
    let fault := SyntaxFault.unrecognizedToken ⟨.atom .q, 2, 3⟩
      [.binary .implies, .binary .iff, .binary .and, .binary .or]
    let found :=
      RequestError.evaluationFailure (.invalidSyntax fault.detail "p q" (some fault.position))
    let told := RequestError.evaluationFailure (.invalidSyntax
      "Unrecognized token `q` found at 2:3\nExpected one of \"<=\", \"==\", \"and\" or \"or\""
      "p q" (some 2))
    (e.message = text ∧ ∀ x : EvaluationError, x.message = text → x = e) ∧
      answer "p q" = .error found ∧ found.message = told.message ∧ found = told := by
  intro e text fault found told
  have hmessage : e.message = text := by decide +kernel
  have hanswer : answer "p q" = .error found := sameOutcome_iff.mp (by decide +kernel)
  have hsame : found.message = told.message := by decide +kernel
  refine ⟨⟨hmessage, fun x hx => ?_⟩, hanswer, hsame, ?_⟩
  · exact message_injective.1 x e (hx.trans hmessage.symm)
  · exact message_injective.2 found told hsame

end PropLogic
