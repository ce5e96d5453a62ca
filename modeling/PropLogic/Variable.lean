/-!
# Propositional variables

The alphabet is fixed to `p`, `q` and `r`. Their order is the column order of every truth table.
-/

namespace PropLogic

inductive Variable where
  | p
  | q
  | r
  deriving DecidableEq, Repr

namespace Variable

def all : List Variable := [.p, .q, .r]

theorem mem_all (v : Variable) : v ∈ all := by
  cases v <;> simp [all]

def letter : Variable → Char
  | .p => 'p'
  | .q => 'q'
  | .r => 'r'

/-- The variable written as `c`, if there is one. -/
def ofLetter? : Char → Option Variable
  | 'p' => some .p
  | 'q' => some .q
  | 'r' => some .r
  | _ => none

theorem ofLetter?_letter (v : Variable) : ofLetter? v.letter = some v := by
  cases v <;> rfl

theorem letter_injective {v w : Variable} (h : v.letter = w.letter) : v = w := by
  have hread := ofLetter?_letter v
  rw [h, ofLetter?_letter] at hread
  exact (Option.some.inj hread).symm

theorem ofLetter?_eq_some_iff {c : Char} {v : Variable} : ofLetter? c = some v ↔ c = v.letter := by
  constructor
  · intro h
    unfold ofLetter? at h
    split at h <;> simp_all [letter] <;> subst h <;> rfl
  · rintro rfl
    exact ofLetter?_letter v

/-- The capital letter that names a variable in log records. -/
def capital : Variable → Char
  | .p => 'P'
  | .q => 'Q'
  | .r => 'R'

def index : Variable → Nat
  | .p => 0
  | .q => 1
  | .r => 2

/-- The variables that occur in `vs`, each once and in column order. -/
def inOrder (vs : List Variable) : List Variable := all.filter fun v => vs.contains v

theorem mem_inOrder {v : Variable} {vs : List Variable} : v ∈ inOrder vs ↔ v ∈ vs := by
  simp [inOrder, mem_all]

instance : ToString Variable := ⟨fun v => v.letter.toString⟩

end Variable

/-- The variables whose letters stand in a text, in column order. Only letters count: the `r` of a
spelled-out `or` is one of them. -/
def mentionedVariables (text : String) : List Variable :=
  Variable.inOrder (text.toList.filterMap Variable.ofLetter?)

end PropLogic
