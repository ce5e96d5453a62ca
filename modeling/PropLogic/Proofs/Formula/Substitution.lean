import PropLogic.Proofs.Canonical.Derivation
import PropLogic.Proofs.Formula.Truth

/-!
# Substitution of formulas

Formulas are put in place of the variables of a formula. In the grammar this is the replacement of
the variable tokens by phrases in parentheses, and under a valuation it is the formula under the
truth values of the operands.
-/

namespace PropLogic

namespace Formula

def subst (g : Variable → Formula) : Formula → Formula
  | .atom v => g v
  | .not f => .not (f.subst g)
  | .binary op l r => .binary op (l.subst g) (r.subst g)

private theorem occurrences_subst (g : Variable → Formula) (f : Formula) :
    (f.subst g).occurrences = f.occurrences.flatMap fun v => (g v).occurrences := by
  induction f with
  | atom v => simp [subst]
  | not f ih => simpa [subst] using ih
  | binary op l r ihl ihr => simp [subst, ihl, ihr]

theorem mem_vars_subst {g : Variable → Formula} {f : Formula} {v : Variable} :
    v ∈ (f.subst g).vars ↔ ∃ w ∈ f.occurrences, v ∈ (g w).vars := by
  simp only [mem_vars, occurrences_subst, List.mem_flatMap]

theorem holds_subst {g : Variable → Formula} {val val' : Variable → Bool}
    (hval : ∀ v, val' v = decide ((g v).Holds val)) (f : Formula) :
    (f.subst g).Holds val ↔ f.Holds val' := by
  induction f with
  | atom v => simp [subst, Holds, hval]
  | not f ih => simp only [subst, Holds, ih]
  | binary op l r ihl ihr => cases op <;> simp only [subst, Holds, ihl, ihr]

end Formula

/-- The tokens that take the place of a token: a variable makes way for a phrase in parentheses. -/
def Token.subst (us : Variable → List Token) : Token → List Token
  | .atom v => .openParen :: us v ++ [.closeParen]
  | t => [t]

private theorem Phrase.subst {us : Variable → List Token} {g : Variable → Formula}
    (hoperands : ∀ v, Phrase 0 (us v) (g v)) {k : Nat} {ts : List Token} {f : Formula}
    (h : Phrase k ts f) : Phrase k (ts.flatMap (Token.subst us)) (f.subst g) := by
  induction h with
  | atom v => simpa [Token.subst, Formula.subst] using Phrase.parenthesized (hoperands v)
  | parenthesized _ ih => simpa [Token.subst] using Phrase.parenthesized ih
  | not _ ih => exact .not ih
  | @binary op ts vs l r _ _ ihl ihr =>
      simpa [Token.subst, Formula.subst] using Phrase.binary ihl ihr
  | relax _ ih => exact .relax ih

/-- Whole formulas in parentheses fit wherever a variable fits. -/
theorem Derives.subst {us : Variable → List Token} {g : Variable → Formula}
    (hoperands : ∀ v, Derives .expr (us v) (g v)) {ts : List Token} {f : Formula}
    (h : Derives .expr ts f) : Derives .expr (ts.flatMap (Token.subst us)) (f.subst g) :=
  derives_iff_phrase.mpr (h.phrase.subst fun v => (hoperands v).phrase)

end PropLogic
