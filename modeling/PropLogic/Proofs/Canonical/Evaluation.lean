import PropLogic.Proofs.Canonical.Parsing
import PropLogic.Proofs.Formula.Truth

/-!
# Evaluation of canonical texts

Evaluation looks at both operands of every connective, so it fails exactly if a variable of the text
is unbound, and reports the leftmost one. Otherwise it gives the classical truth value. Variables
that do not occur in the formula have no influence.
-/

namespace PropLogic

namespace Assignment

def leaves (a : Assignment) (v : Variable) : Bool := (a v).isNone

@[simp] theorem leaves_eq_true_iff {a : Assignment} {v : Variable} :
    a.leaves v = true ↔ a v = none :=
  Option.isNone_iff_eq_none

@[simp] theorem leaves_eq_false_iff {a : Assignment} {v : Variable} :
    a.leaves v = false ↔ a v ≠ none := by
  rw [← Bool.not_eq_true, leaves_eq_true_iff]

private theorem ne_none_of_find?_eq_none {a : Assignment} {vs : List Variable}
    (h : vs.find? a.leaves = none) : ∀ v ∈ vs, a v ≠ none := by
  intro v hv hnone
  exact List.find?_eq_none.mp h v hv (leaves_eq_true_iff.mpr hnone)

theorem exists_valuation (a : Assignment) :
    ∃ val : Variable → Bool, ∀ v, a v ≠ none → a v = some (val v) := by
  refine ⟨fun v => (a v).getD false, ?_⟩
  intro v hv
  cases hb : a v with
  | none => exact absurd hb hv
  | some b => simp [hb]

end Assignment

namespace Formula

/-! ### Evaluation of formulas -/

theorem exists_evaluate_eq_ok {a : Assignment} {f : Formula} (h : ∀ v ∈ f.occurrences, a v ≠ none) :
    ∃ val : Variable → Bool, (∀ v, a v ≠ none → a v = some (val v)) ∧
      f.evaluate a = .ok (decide (f.Holds val)) := by
  obtain ⟨val, hval⟩ := a.exists_valuation
  exact ⟨val, hval, evaluate_eq_ok fun v hv => hval v (h v hv)⟩

private theorem evaluate_eq_error {a : Assignment} {f : Formula} {x : Variable}
    (h : f.occurrences.find? a.leaves = some x) : f.evaluate a = .error (.unboundVariable x) := by
  induction f with
  | atom v =>
      obtain ⟨hv, rfl⟩ : a v = none ∧ v = x := by
        simpa [List.find?_cons_eq_some] using h
      rw [evaluate, hv]
  | not f ih =>
      rw [evaluate, ih h]
      rfl
  | binary op l r ihl ihr =>
      rw [occurrences_binary, List.find?_append, Option.or_eq_some_iff] at h
      rcases h with hl | ⟨hl, hr⟩
      · rw [evaluate, ihl hl]
        rfl
      · obtain ⟨val, -, hvalue⟩ := exists_evaluate_eq_ok (Assignment.ne_none_of_find?_eq_none hl)
        rw [evaluate, hvalue, ihr hr]
        rfl

theorem evaluate_eq_error_iff {a : Assignment} {f : Formula} {e : EvaluationError} :
    f.evaluate a = .error e ↔
      ∃ x, f.occurrences.find? a.leaves = some x ∧ e = .unboundVariable x := by
  cases hfind : f.occurrences.find? a.leaves with
  | some x => simp [evaluate_eq_error hfind, eq_comm]
  | none =>
      obtain ⟨val, -, hvalue⟩ := exists_evaluate_eq_ok (Assignment.ne_none_of_find?_eq_none hfind)
      simp [hvalue]

theorem evaluate_congr {a a' : Assignment} {f : Formula} (h : ∀ v ∈ f.occurrences, a' v = a v) :
    f.evaluate a' = f.evaluate a := by
  induction f with
  | atom v => rw [evaluate, evaluate, h v (by simp)]
  | not f ih => rw [evaluate, evaluate, ih h]
  | binary op l r ihl ihr =>
      have hl := ihl fun v hv => h v (by simp [hv])
      have hr := ihr fun v hv => h v (by simp [hv])
      rw [evaluate, evaluate, hl, hr]

end Formula

/-! ### Evaluation of texts -/

private theorem Token.atom?_eq_some_iff {t : Token} {v : Variable} :
    t.atom? = some v ↔ t = .atom v := by
  cases t <;> simp [Token.atom?]

private theorem Phrase.atom_mem_iff {k : Nat} {ts : List Token} {f : Formula} (h : Phrase k ts f)
    {v : Variable} : .atom v ∈ ts ↔ v ∈ f.occurrences := by
  rw [← h.filterMap_atom?, List.mem_filterMap]
  simp [Token.atom?_eq_some_iff]

private theorem Phrase.find?_leaves_eq_some_iff {k : Nat} {ts : List Token} {f : Formula}
    (h : Phrase k ts f) {a : Assignment} {x : Variable} :
    f.occurrences.find? a.leaves = some x ↔
      ∃ before after, ts = before ++ .atom x :: after ∧ a x = none ∧
        ∀ v, .atom v ∈ before → a v ≠ none := by
  rw [← h.filterMap_atom?, List.find?_filterMap, Option.bind_eq_some_iff]
  constructor
  · rintro ⟨t, hfind, ht⟩
    obtain ⟨hx, before, after, hts, hbefore⟩ := List.find?_eq_some_iff_append.mp hfind
    rw [Token.atom?_eq_some_iff] at ht
    subst ht
    refine ⟨before, after, hts, ?_, ?_⟩
    · simpa [Token.atom?] using hx
    · intro v hv
      simpa [Token.atom?] using hbefore _ hv
  · rintro ⟨before, after, rfl, hx, hbefore⟩
    refine ⟨.atom x, List.find?_eq_some_iff_append.mpr ⟨?_, before, after, rfl, ?_⟩, rfl⟩
    · simp [Token.atom?, hx]
    · intro t ht
      cases ht' : t.atom? with
      | none => rfl
      | some v =>
          rw [Token.atom?_eq_some_iff] at ht'
          subst ht'
          simpa using hbefore v ht

/-- A text that is parsed has no truth value exactly if the assignment leaves a variable of the text
unbound, and the first such variable is reported whatever the values of the others are. Otherwise
the truth value is the classical one. It depends on the bindings of the variables of the formula
only. -/
theorem evaluate_reports_leftmost_unbound {text : String} {f : Formula}
    (hparse : Formula.parse text = .ok f) (a : Assignment) :
    ∃ ts, Token.lexicon.Cuts text.toList ts ∧ evaluate text a = f.evaluate a ∧
      (∀ e, f.evaluate a = .error e ↔ ∃ x before after, e = .unboundVariable x ∧
        ts = before ++ .atom x :: after ∧ a x = none ∧ ∀ v, .atom v ∈ before → a v ≠ none) ∧
      ((∀ v, .atom v ∈ ts → a v ≠ none) →
        ∃ val : Variable → Bool, (∀ v, .atom v ∈ ts → a v = some (val v)) ∧
          f.evaluate a = .ok (decide (f.Holds val))) ∧
      ∀ a' : Assignment, (∀ v ∈ f.vars, a' v = a v) →
        f.evaluate a' = f.evaluate a ∧ evaluate text a' = evaluate text a := by
  obtain ⟨ts, hcuts, hderives⟩ := Formula.parse_eq_ok_iff.mp hparse
  have htext : ∀ a : Assignment, evaluate text a = f.evaluate a := by
    intro a
    rw [evaluate, hparse]
    rfl
  refine ⟨ts, hcuts, htext a, ?_, ?_, ?_⟩
  · intro e
    rw [Formula.evaluate_eq_error_iff]
    simp only [hderives.phrase.find?_leaves_eq_some_iff]
    constructor
    · rintro ⟨x, ⟨before, after, hunbound⟩, he⟩
      exact ⟨x, before, after, he, hunbound⟩
    · rintro ⟨x, before, after, he, hunbound⟩
      exact ⟨x, ⟨before, after, hunbound⟩, he⟩
  · intro hbound
    obtain ⟨val, hval, hvalue⟩ := Formula.exists_evaluate_eq_ok fun v hv =>
      hbound v (hderives.phrase.atom_mem_iff.mpr hv)
    exact ⟨val, fun v hv => hval v (hbound v hv), hvalue⟩
  · intro a' hagree
    have hvalue : f.evaluate a' = f.evaluate a :=
      Formula.evaluate_congr fun v hv => hagree v (Formula.mem_vars.mpr hv)
    rw [htext, htext]
    exact ⟨hvalue, hvalue⟩

/-- The value of `q or p` is settled by `q`, and yet `p` is reported; a binding of `r` changes
nothing. -/
theorem evaluate_reports_leftmost_unbound_settled :
    Formula.parse "q or p" = .ok (.binary .or (.atom .q) (.atom .p)) ∧
      evaluate "q or p" (fun v => if v = .q then some true else none) =
        .error (.unboundVariable .p) ∧
      evaluate "q or p" (fun v => if v = .p then none else some true) =
        .error (.unboundVariable .p) := by
  have hparse : Formula.parse "q or p" = .ok (.binary .or (.atom .q) (.atom .p)) := by rfl
  have hcuts : Token.lexicon.Cuts "q or p".toList [.atom .q, .binary .or, .atom .p] := by
    rw [Text.Lexicon.cuts_iff_scan Token.lexicon_regular 0]
    decide
  obtain ⟨ts, hts, hvalue, herror, -, hcongr⟩ := evaluate_reports_leftmost_unbound hparse
    fun v => if v = .q then some true else none
  have hunique := hts.unique Token.lexicon_regular hcuts
  subst hunique
  have hunbound : evaluate "q or p" (fun v => if v = .q then some true else none) =
      .error (.unboundVariable .p) := by
    rw [hvalue]
    exact (herror _).mpr ⟨.p, [.atom .q, .binary .or], [], rfl, rfl, by decide, by simp⟩
  refine ⟨hparse, hunbound, ?_⟩
  rw [← hunbound]
  refine (hcongr _ ?_).2
  decide

end PropLogic
