import PropLogic.Canonical.Grammar

/-!
# Derivations

The parser and the printer compare levels. `Phrase` is the grammar with levels in place of
nonterminals, and derives the same whole formulas. A phrase of some level is a phrase of every
looser one, it has a token, its parentheses come in pairs, and its variables are those of its
formula.
-/

namespace PropLogic

/-- The tokens `ts` are a phrase of level `k` for the formula `f`. The higher its level, the tighter
a phrase binds. -/
inductive Phrase : Nat → List Token → Formula → Prop where
  | atom (v : Variable) : Phrase atomLevel [.atom v] (.atom v)
  | parenthesized {ts : List Token} {f : Formula} :
      Phrase 0 ts f → Phrase atomLevel (.openParen :: ts ++ [.closeParen]) f
  | not {ts : List Token} {f : Formula} :
      Phrase unaryLevel ts f → Phrase unaryLevel (.not :: ts) (.not f)
  | binary {op : Connective} {ts us : List Token} {l r : Formula} :
      Phrase op.level ts l → Phrase (op.level + 1) us r →
        Phrase op.level (ts ++ .binary op :: us) (.binary op l r)
  | relax {k : Nat} {ts : List Token} {f : Formula} : Phrase (k + 1) ts f → Phrase k ts f

theorem Derives.expr_of_atom {ts : List Token} {f : Formula} (h : Derives .atom ts f) :
    Derives .expr ts f :=
  .ofDisjunction (.ofConjunction (.ofNegation (.ofAtom h)))

/-! ### Nonterminals and levels -/

def Nonterminal.level : Nonterminal → Nat
  | .expr => 0
  | .disjunction => 1
  | .conjunction => 2
  | .negation => 3
  | .atom => 4

private def Nonterminal.ofLevel : Nat → Nonterminal
  | 0 => .expr
  | 1 => .disjunction
  | 2 => .conjunction
  | 3 => .negation
  | _ => .atom

theorem Derives.phrase {n : Nonterminal} {ts : List Token} {f : Formula}
    (h : Derives n ts f) : Phrase n.level ts f := by
  induction h with
  | implies _ _ ihl ihr => exact @Phrase.binary .implies _ _ _ _ ihl ihr
  | iff _ _ ihl ihr => exact @Phrase.binary .iff _ _ _ _ ihl ihr
  | or _ _ ihl ihr => exact @Phrase.binary .or _ _ _ _ ihl ihr
  | and _ _ ihl ihr => exact @Phrase.binary .and _ _ _ _ ihl ihr
  | ofDisjunction _ ih | ofConjunction _ ih | ofNegation _ ih | ofAtom _ ih => exact .relax ih
  | not _ ih => exact .not ih
  | atom v => exact .atom v
  | parenthesized _ ih => exact .parenthesized ih

private theorem Phrase.derives_ofLevel {k : Nat} {ts : List Token} {f : Formula}
    (h : Phrase k ts f) : Derives (.ofLevel k) ts f := by
  induction h with
  | atom v => exact .atom v
  | parenthesized _ ih => exact .parenthesized ih
  | not _ ih => exact .not ih
  | @binary op _ _ _ _ _ _ ihl ihr =>
      cases op with
      | and => exact .and ihl ihr
      | or => exact .or ihl ihr
      | implies => exact .implies ihl ihr
      | iff => exact .iff ihl ihr
  | @relax k _ _ _ ih =>
      match k with
      | 0 => exact .ofDisjunction ih
      | 1 => exact .ofConjunction ih
      | 2 => exact .ofNegation ih
      | 3 => exact .ofAtom ih
      | _ + 4 => exact ih

/-- The levels of the connectives describe the same whole formulas as the nonterminals. -/
theorem derives_iff_phrase {ts : List Token} {f : Formula} : Derives .expr ts f ↔ Phrase 0 ts f :=
  ⟨Derives.phrase, Phrase.derives_ofLevel⟩

/-! ### Phrases -/

/-- The variable that a token stands for. -/
def Token.atom? : Token → Option Variable
  | .atom v => some v
  | _ => none

/-- Whether a token is an opening or a closing parenthesis, if it is one of them. -/
def Token.opens? : Token → Option Bool
  | .openParen => some true
  | .closeParen => some false
  | _ => none

namespace Phrase

theorem relax_to {j k : Nat} {ts : List Token} {f : Formula} (h : Phrase k ts f) (hjk : j ≤ k) :
    Phrase j ts f := by
  induction hjk with
  | refl => exact h
  | step _ ih => exact ih (.relax h)

theorem ne_nil {k : Nat} {ts : List Token} {f : Formula} (h : Phrase k ts f) : ts ≠ [] := by
  induction h with
  | relax _ ih => exact ih
  | _ => simp

theorem count_opens {k : Nat} {ts : List Token} {f : Formula} (h : Phrase k ts f) :
    (ts.filterMap Token.opens?).count true = (ts.filterMap Token.opens?).count false := by
  induction h with
  | atom v => rfl
  | parenthesized _ ih => simp [Token.opens?, ih]
  | not _ ih => simpa [List.filterMap_cons, Token.opens?] using ih
  | binary _ _ ihl ihr => simp [List.filterMap_cons, Token.opens?, ihl, ihr]
  | relax _ ih => exact ih

theorem filterMap_atom? {k : Nat} {ts : List Token} {f : Formula} (h : Phrase k ts f) :
    ts.filterMap Token.atom? = f.occurrences := by
  induction h with
  | atom v => rfl
  | parenthesized _ ih => simpa [List.filterMap_cons, Token.atom?] using ih
  | not _ ih => simpa [List.filterMap_cons, Token.atom?] using ih
  | binary _ _ ihl ihr => simp [List.filterMap_cons, Token.atom?, ihl, ihr]
  | relax _ ih => exact ih

end Phrase

end PropLogic
