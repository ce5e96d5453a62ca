import PropLogic.Proofs.Canonical.Evaluation
import PropLogic.Proofs.Table.Contents

/-!
# Looking up assignments

The row of an assignment is found by the values that the assignment gives to the columns. In a truth
table of a formula every assignment that binds the columns has a row, whatever else it binds, and
the result of this row is the truth value of the formula.
-/

namespace PropLogic

namespace TruthTable

private theorem Tabulates.resultFor?_eq_some {t : TruthTable} {f : Formula} (h : t.Tabulates f)
    {a : Assignment} {val : Variable → Bool} (ha : ∀ v ∈ t.columns, a v = some (val v)) :
    t.resultFor? a = some (decide (f.Holds val)) := by
  have hmapM : t.columns.mapM a = some (t.columns.map val) := mapM_eq_pure_map ha
  obtain ⟨row, hfind⟩ :
      ∃ row, (t.rows.find? fun row => row.values == t.columns.map val) = some row := by
    obtain ⟨row, hrow, hvalues⟩ := h.exists_row_values val
    exact Option.isSome_iff_exists.mp (List.find?_isSome.mpr ⟨row, hrow, beq_iff_eq.mpr hvalues⟩)
  have hvalues : row.values = t.columns.map val := by simpa using List.find?_some hfind
  have hresult : row.result = true ↔ f.Holds val :=
    h.result row (List.mem_of_find?_eq_some hfind) val hvalues.symm
  have hvalue : row.result = decide (f.Holds val) := by
    rw [Bool.eq_iff_iff, hresult, decide_eq_true_iff]
  simp only [resultFor?, hmapM, Option.bind_eq_bind, Option.bind_some, hfind, hvalue]
  rfl

theorem Tabulates.resultFor?_ofValuation {t : TruthTable} {f : Formula} (h : t.Tabulates f)
    (val : Variable → Bool) :
    t.resultFor? (Assignment.ofValuation val) = some (decide (f.Holds val)) :=
  h.resultFor?_eq_some fun _ _ => rfl

/-- The row of an assignment holds what the formula evaluates to. -/
theorem Tabulates.exists_resultFor? {t : TruthTable} {f : Formula} (h : t.Tabulates f)
    {a : Assignment} (ha : ∀ v ∈ t.columns, a v ≠ none) :
    ∃ b, t.resultFor? a = some b ∧ f.evaluate a = .ok b := by
  obtain ⟨val, hval⟩ := a.exists_valuation
  have hrow : t.resultFor? a = some (decide (f.Holds val)) :=
    h.resultFor?_eq_some fun v hv => hval v (ha v hv)
  have hvalue : f.evaluate a = .ok (decide (f.Holds val)) :=
    Formula.evaluate_eq_ok fun v hv => hval v (ha v (h.covers v hv))
  exact ⟨_, hrow, hvalue⟩

theorem Tabulates.resultFor?_eq_none_iff {t : TruthTable} {f : Formula} (h : t.Tabulates f)
    {a : Assignment} : t.resultFor? a = none ↔ ∃ v ∈ t.columns, a v = none := by
  constructor
  · intro hnone
    by_cases hbound : ∀ v ∈ t.columns, a v ≠ none
    · obtain ⟨b, hrow, -⟩ := h.exists_resultFor? hbound
      rw [hrow] at hnone
      cases hnone
    · simpa using hbound
  · rintro ⟨v, hv, hunbound⟩
    rw [resultFor?, mapM_eq_none hv hunbound]
    rfl

end TruthTable

end PropLogic
