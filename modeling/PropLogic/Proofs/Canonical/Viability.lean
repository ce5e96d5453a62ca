import PropLogic.Proofs.Canonical.Reading

/-!
# Viable beginnings

A formula can be completed from every state: an operand that is due is written as a variable, and
the parentheses that are open are closed. So the tokens that can be read are those that begin some
formula, and a token is refused exactly where no formula continues with it.
-/

namespace PropLogic

namespace ParseState

theorem absorb_zero_cases (stack : List Pending) (f : Formula) :
    (∃ g, absorb 0 stack f = ([], g)) ∨
      ∃ rest g, absorb 0 stack f = (.paren :: rest, g) ∧ rest.length < stack.length := by
  induction stack generalizing f with
  | nil => exact Or.inl ⟨f, rfl⟩
  | cons top stack ih =>
      cases top with
      | paren => exact Or.inr ⟨stack, f, rfl, Nat.lt_succ_self _⟩
      | not =>
          rcases ih (.not f) with ⟨g, hg⟩ | ⟨rest, g, hg, hlength⟩
          · exact Or.inl ⟨g, hg⟩
          · exact Or.inr ⟨rest, g, hg, Nat.lt_succ_of_lt hlength⟩
      | binary op l =>
          have habsorb : absorb 0 (.binary op l :: stack) f = absorb 0 stack (.binary op l f) := by
            rw [absorb, if_pos (Nat.zero_le _)]
          rw [habsorb]
          rcases ih (.binary op l f) with ⟨g, hg⟩ | ⟨rest, g, hg, hlength⟩
          · exact Or.inl ⟨g, hg⟩
          · exact Or.inr ⟨rest, g, hg, Nat.lt_succ_of_lt hlength⟩

private theorem exists_completion_of_phrase (stack : List Pending) (f : Formula) (level : Nat) :
    ∃ us s g, (phrase stack f level).run? us = some s ∧ s.result? = some g := by
  -- every step closes the innermost parenthesis, which makes the stack shorter
  induction hlength : stack.length using Nat.strongRecOn generalizing stack f level with
  | ind n ih =>
      subst hlength
      rcases absorb_zero_cases stack f with ⟨g, hg⟩ | ⟨rest, g, hg, hshorter⟩
      · refine ⟨[], phrase stack f level, g, rfl, ?_⟩
        simp only [result?, settle, hg]
      · obtain ⟨us, s, h, hrun, hresult⟩ := ih rest.length hshorter rest g atomLevel rfl
        have hclose : (phrase stack f level).step? .closeParen =
            some (.phrase rest g atomLevel) := by
          simp only [step?, hg]
        refine ⟨.closeParen :: us, s, h, ?_, hresult⟩
        rw [run?_cons, hclose, Option.bind_some, hrun]

private theorem exists_completion (s : ParseState) :
    ∃ us s' f, s.run? us = some s' ∧ s'.result? = some f := by
  cases s with
  | phrase stack f level => exact exists_completion_of_phrase stack f level
  | operand stack =>
      obtain ⟨us, s', f, hrun, hresult⟩ :=
        exists_completion_of_phrase stack (.atom .p) atomLevel
      exact ⟨.atom .p :: us, s', f, hrun, hresult⟩

end ParseState

/-- The tokens that begin a formula are those that can be read. -/
theorem isViable_iff_run? {ts : List Token} :
    IsViable ts ↔ ∃ s, ParseState.start.run? ts = some s := by
  constructor
  · rintro ⟨us, f, hf⟩
    obtain ⟨s, hrun, -⟩ := ParseState.result?_run?_of_derives hf
    rw [ParseState.run?_append] at hrun
    obtain ⟨s', hs', -⟩ := Option.bind_eq_some_iff.mp hrun
    exact ⟨s', hs'⟩
  · rintro ⟨s, hs⟩
    obtain ⟨us, s', f, hrun, hresult⟩ := s.exists_completion
    refine ⟨us, f, ParseState.exists_run?_iff_derives.mp ⟨s', ?_, hresult⟩⟩
    rw [ParseState.run?_append, hs, Option.bind_some, hrun]

theorem isViable_append_singleton_iff {ts : List Token} {s : ParseState}
    (hs : ParseState.start.run? ts = some s) (t : Token) :
    IsViable (ts ++ [t]) ↔ (s.step? t).isSome := by
  rw [isViable_iff_run?, ParseState.run?_append, hs, Option.bind_some, ParseState.run?_cons]
  cases s.step? t <;> simp

end PropLogic
