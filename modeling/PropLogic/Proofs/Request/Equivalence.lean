import PropLogic.Proofs.Request.Acceptance

/-!
# Equal tables

A truth table has the variables of its formula as columns, and a row for each of their assignments.
So the table of a formula can be read off from its variables and its truth values, and both can be
read off from the table. How a formula is written, and even its shape, leaves no trace in the table.
-/

namespace PropLogic

/-- The formulas have the same variables and the same truth value under every assignment of all
variables. -/
structure Formula.Agrees (f g : Formula) : Prop where
  occurrences : ∀ v, v ∈ f.occurrences ↔ v ∈ g.occurrences
  evaluate : ∀ val : Variable → Bool, ∃ b,
    f.evaluate (.ofValuation val) = .ok b ∧ g.evaluate (.ofValuation val) = .ok b

/-! ### Columns and truth values -/

theorem Variable.inOrder_eq_iff {vs ws : List Variable} :
    inOrder vs = inOrder ws ↔ ∀ v, v ∈ vs ↔ v ∈ ws := by
  constructor
  · intro h v
    rw [← mem_inOrder, h, mem_inOrder]
  · intro h
    apply List.filter_congr
    intro v _
    rw [Bool.eq_iff_iff, List.contains_iff_mem, List.contains_iff_mem]
    exact h v

private theorem Formula.vars_eq_iff {f g : Formula} :
    f.vars = g.vars ↔ ∀ v, v ∈ f.occurrences ↔ v ∈ g.occurrences :=
  Variable.inOrder_eq_iff

private theorem Formula.evaluate_ofValuation (f : Formula) (val : Variable → Bool) :
    f.evaluate (.ofValuation val) = .ok (decide (f.Holds val)) :=
  evaluate_eq_ok fun _ _ => rfl

theorem Formula.agrees_iff {f g : Formula} :
    f.Agrees g ↔ f.vars = g.vars ∧ ∀ val, f.Holds val ↔ g.Holds val := by
  constructor
  · intro h
    refine ⟨vars_eq_iff.mpr h.occurrences, fun val => ?_⟩
    obtain ⟨b, hf, hg⟩ := h.evaluate val
    rw [evaluate_ofValuation, Except.ok.injEq] at hf hg
    rw [← decide_eq_decide, hf, hg]
  · intro h
    refine ⟨vars_eq_iff.mp h.1, fun val => ⟨_, f.evaluate_ofValuation val, ?_⟩⟩
    rw [evaluate_ofValuation, decide_eq_decide.mpr (h.2 val)]

/-! ### Tables -/

theorem TruthTable.Tabulates.holds_iff {t : TruthTable} {f g : Formula} (hf : t.Tabulates f)
    (hg : t.Tabulates g) (val : Variable → Bool) : f.Holds val ↔ g.Holds val := by
  obtain ⟨row, hrow, hvalues⟩ := hf.exists_row_values val
  rw [← hf.result row hrow val hvalues.symm, hg.result row hrow val hvalues.symm]

private theorem TruthTable.ofTruth_congr {f g : Formula} (h : ∀ val, f.Holds val ↔ g.Holds val)
    (columns : List Variable) : ofTruth f columns = ofTruth g columns := by
  simp only [ofTruth, h]

private theorem TruthTable.ofTruth_vars_eq_iff {f g : Formula} :
    ofTruth f f.vars = ofTruth g g.vars ↔ f.Agrees g := by
  rw [Formula.agrees_iff]
  constructor
  · intro h
    have hg : (ofTruth f f.vars).Tabulates g := by
      rw [h]
      exact g.tabulates_vars
    exact ⟨congrArg columns h, f.tabulates_vars.holds_iff hg⟩
  · intro h
    rw [h.1, ofTruth_congr h.2]

theorem Classification.Fits.congr {c : Classification} {f g : Formula} (hc : c.Fits f)
    (h : ∀ val, f.Holds val ↔ g.Holds val) : c.Fits g := by
  refine ⟨?_, ?_, ?_⟩
  · simpa only [h] using hc.tautology
  · simpa only [h] using hc.contradiction
  · simpa only [h] using hc.contingency

theorem Classification.Fits.unique {c d : Classification} {f : Formula} (hc : c.Fits f)
    (hd : d.Fits f) : c = d := by
  cases c with
  | tautology => exact (hd.tautology.mpr (hc.tautology.mp rfl)).symm
  | contradiction => exact (hd.contradiction.mpr (hc.contradiction.mp rfl)).symm
  | contingency => exact (hd.contingency.mpr (hc.contingency.mp rfl)).symm

/-! ### Answers -/

/-- Two requests that are answered have the same answer exactly if the formulas that they are read
as have the same variables and the same truth values. The tables of any two formulas, which always
exist, are equal under the same condition. -/
theorem answer_eq_iff_agrees :
    (∀ a b : String, (∃ t, answer a = .ok t) → (∃ u, answer b = .ok u) →
      ∃ f g, Formula.parse (Surface.normalize a) = .ok f ∧
        Formula.parse (Surface.normalize b) = .ok g ∧ (answer a = answer b ↔ f.Agrees g)) ∧
    ∀ f g : Formula, (∃ t, TruthTable.ofFormula f = .ok t) ∧
      (TruthTable.ofFormula f = TruthTable.ofFormula g ↔ f.Agrees g) := by
  constructor
  · intro a b ha hb
    obtain ⟨t, ht⟩ := ha
    obtain ⟨u, hu⟩ := hb
    obtain ⟨ts, f, hcuts, hf, htable, hfits⟩ := exists_formula_of_answer ht
    obtain ⟨us, g, hcuts', hg, htable', hfits'⟩ := exists_formula_of_answer hu
    refine ⟨f, g, parse_normalize_of_cuts hcuts hf, parse_normalize_of_cuts hcuts' hg, ?_⟩
    rw [ht, hu, Except.ok.injEq, ← TruthTable.ofTruth_vars_eq_iff, ← htable, ← htable']
    constructor
    · exact congrArg ClassifiedTable.table
    · intro htables
      have hagrees : f.Agrees g := by
        rwa [htable, htable', TruthTable.ofTruth_vars_eq_iff] at htables
      have hclassification : t.classification = u.classification :=
        (hfits.congr (Formula.agrees_iff.mp hagrees).2).unique hfits'
      obtain ⟨table, c⟩ := t
      obtain ⟨table', d⟩ := u
      cases htables
      cases hclassification
      rfl
  · intro f g
    rw [TruthTable.ofFormula_eq_ok, TruthTable.ofFormula_eq_ok, Except.ok.injEq,
      TruthTable.ofTruth_vars_eq_iff]
    exact ⟨⟨_, rfl⟩, Iff.rfl⟩

/-- The contraposition of a conditional has its table. A variable on which the value does not depend
has a column all the same. -/
theorem answer_eq_iff_agrees_contraposition :
    (∃ f g, Formula.parse (Surface.normalize "p => q") = .ok f ∧
      Formula.parse (Surface.normalize "!q → !p") = .ok g ∧ f.Agrees g ∧
      answer "p => q" = answer "!q → !p") ∧
    TruthTable.ofFormula (.atom .p) ≠
      TruthTable.ofFormula (.binary .and (.atom .p) (.binary .or (.atom .q) (.not (.atom .q)))) := by
  let conditional : ClassifiedTable := ⟨⟨[.p, .q], [⟨[true, true], true⟩, ⟨[true, false], false⟩,
    ⟨[false, true], true⟩, ⟨[false, false], true⟩]⟩, .contingency⟩
  have hleft : answer "p => q" = .ok conditional := sameOutcome_iff.mp (by decide)
  have hright : answer "!q → !p" = .ok conditional := sameOutcome_iff.mp (by decide)
  constructor
  · obtain ⟨f, g, hf, hg, hiff⟩ := answer_eq_iff_agrees.1 _ _ ⟨_, hleft⟩ ⟨_, hright⟩
    have hequal : answer "p => q" = answer "!q → !p" := by rw [hleft, hright]
    exact ⟨f, g, hf, hg, hiff.mp hequal, hequal⟩
  · intro h
    have hagrees := (answer_eq_iff_agrees.2 _ _).2.mp h
    exact absurd ((hagrees.occurrences .q).mpr (by decide)) (by decide)

end PropLogic
