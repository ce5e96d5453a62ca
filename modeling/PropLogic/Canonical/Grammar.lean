import PropLogic.Canonical.Token

/-!
# The grammar of the canonical notation

A phrase belongs to one of five nonterminals, from whole formulas down to those that bind tightest.
Every binary connective takes its left operand from its own nonterminal and its right operand from
the next one, so all of them are left-associative. The conditional and the biconditional share the
loosest one.
-/

namespace PropLogic

inductive Nonterminal where
  | expr
  | disjunction
  | conjunction
  | negation
  | atom
  deriving DecidableEq, Repr

/-- The tokens `ts` are a phrase of a nonterminal for the formula `f`. -/
inductive Derives : Nonterminal → List Token → Formula → Prop where
  | implies {ts us : List Token} {l r : Formula} :
      Derives .expr ts l → Derives .disjunction us r →
        Derives .expr (ts ++ .binary .implies :: us) (.binary .implies l r)
  | iff {ts us : List Token} {l r : Formula} :
      Derives .expr ts l → Derives .disjunction us r →
        Derives .expr (ts ++ .binary .iff :: us) (.binary .iff l r)
  | ofDisjunction {ts : List Token} {f : Formula} : Derives .disjunction ts f → Derives .expr ts f
  | or {ts us : List Token} {l r : Formula} :
      Derives .disjunction ts l → Derives .conjunction us r →
        Derives .disjunction (ts ++ .binary .or :: us) (.binary .or l r)
  | ofConjunction {ts : List Token} {f : Formula} :
      Derives .conjunction ts f → Derives .disjunction ts f
  | and {ts us : List Token} {l r : Formula} :
      Derives .conjunction ts l → Derives .negation us r →
        Derives .conjunction (ts ++ .binary .and :: us) (.binary .and l r)
  | ofNegation {ts : List Token} {f : Formula} : Derives .negation ts f → Derives .conjunction ts f
  | not {ts : List Token} {f : Formula} :
      Derives .negation ts f → Derives .negation (.not :: ts) (.not f)
  | ofAtom {ts : List Token} {f : Formula} : Derives .atom ts f → Derives .negation ts f
  | atom (v : Variable) : Derives .atom [.atom v] (.atom v)
  | parenthesized {ts : List Token} {f : Formula} :
      Derives .expr ts f → Derives .atom (.openParen :: ts ++ [.closeParen]) f

def IsSentence (ts : List Token) : Prop := ∃ f, Derives .expr ts f

/-- The tokens begin some whole formula. -/
def IsViable (ts : List Token) : Prop := ∃ us, IsSentence (ts ++ us)

end PropLogic
