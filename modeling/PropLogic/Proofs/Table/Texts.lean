import Mathlib.Data.List.Infix
import PropLogic.Proofs.Request.Equivalence
import PropLogic.Proofs.Surface.BothNotations
import PropLogic.Proofs.Table.Lookup

/-!
# Tables of texts

A text has a truth table as soon as it is read as a formula, whether it passes the checks of
requests or not. The table is that of the formula, but an `or` that is spelled out leaves a column
for its last letter. The formula does not depend on such a column, so no result and no
classification does.
-/

namespace PropLogic

/-! ### Columns -/

private theorem Variable.inOrder_append_r {vs : List Variable} (h : .r ∉ vs) :
    inOrder (vs ++ [.r]) = inOrder vs ++ [.r] := by
  have hr : vs.contains .r = false := by simpa using h
  simp only [inOrder, all, List.filter_cons, List.filter_nil, List.contains_append, hr]
  cases vs.contains .p <;> cases vs.contains .q <;> rfl

private theorem mem_mentionedVariables_of_parse {text : String} {f : Formula}
    (h : Formula.parse (Surface.normalize text) = .ok f) (v : Variable) :
    v ∈ mentionedVariables text ↔
      v ∈ f.occurrences ∨ (v = .r ∧ "or".toList <:+: text.toList) := by
  obtain ⟨ts, hcuts, hf⟩ := Formula.parse_eq_ok_iff.mp h
  rw [Surface.toList_normalize] at hcuts
  rw [mentionedVariables, Variable.mem_inOrder,
    (Surface.spells_of_cuts_normalizeChars hcuts).letter_iff, hf.phrase.filterMap_atom?]

private theorem mentionedVariables_covers {text : String} {f : Formula}
    (h : Formula.parse (Surface.normalize text) = .ok f) :
    ∀ v ∈ f.occurrences, v ∈ mentionedVariables text :=
  fun v hv => (mem_mentionedVariables_of_parse h v).mpr (Or.inl hv)

private theorem mentionedVariables_of_parse {text : String} {f : Formula}
    (h : Formula.parse (Surface.normalize text) = .ok f) :
    mentionedVariables text =
      if "or".toList <:+: text.toList ∧ .r ∉ f.vars then f.vars ++ [.r] else f.vars := by
  have hmem := mem_mentionedVariables_of_parse h
  simp only [mentionedVariables, Variable.mem_inOrder] at hmem ⊢
  split
  next hsurplus =>
    have hr : .r ∉ f.occurrences := fun hmem => hsurplus.2 (Formula.mem_vars.mpr hmem)
    rw [Formula.vars, ← Variable.inOrder_append_r hr, Variable.inOrder_eq_iff]
    intro v
    rw [hmem, and_iff_left hsurplus.1, List.mem_append, List.mem_singleton]
  next hnone =>
    rw [Formula.vars, Variable.inOrder_eq_iff]
    intro v
    rw [hmem, or_iff_left_iff_imp]
    rintro ⟨rfl, hor⟩
    have hr : .r ∈ f.vars := Decidable.not_not.mp fun hr => hnone ⟨hor, hr⟩
    exact Formula.mem_vars.mp hr

private theorem Surface.not_or_of_validate {text : String} (h : validate text = true) :
    ¬ "or".toList <:+: text.toList := by
  intro hor
  have ho : 'o' ∈ text.toList := hor.subset (by decide)
  exact absurd (validate_eq_true_iff.mp h 'o' ho) (by decide)

/-! ### Tables -/

namespace TruthTable

theorem ofText_of_parse {text : String} {f : Formula}
    (h : Formula.parse (Surface.normalize text) = .ok f) :
    ofText text = .ok (ofTruth f (mentionedVariables text)) := by
  rw [ofText, h]
  exact tabulate_eq_ok (mentionedVariables_covers h)

private theorem tabulates_mentionedVariables {text : String} {f : Formula}
    (h : Formula.parse (Surface.normalize text) = .ok f) :
    (ofTruth f (mentionedVariables text)).Tabulates f :=
  tabulates_ofTruth (Variable.ascending_inOrder _) (mentionedVariables_covers h)

/-- A text that is read as a formula has a table, be it checked or not, and so has the formula. The
columns are the variables of the formula, and behind them `r` if an `or` is spelled out and the
formula does not have it. The tables agree on every assignment that binds the columns and have one
classification. A text of allowed characters has the very table of its formula. If a text is not
read as a formula, its table fails with the error of the reader. -/
theorem ofText_agrees_with_ofFormula (text : String) :
    (∀ f, Formula.parse (Surface.normalize text) = .ok f →
      ∃ t u, ofText text = .ok t ∧ ofFormula f = .ok u ∧
        t.columns =
          (if "or".toList <:+: text.toList ∧ .r ∉ f.vars then f.vars ++ [.r] else f.vars) ∧
        (∀ a : Assignment, (∀ v ∈ t.columns, a v ≠ none) →
          ∃ b, t.resultFor? a = some b ∧ u.resultFor? a = some b) ∧
        (∃ c, t.classify = .ok c ∧ u.classify = .ok c) ∧
        (Surface.validate text = true → t = u)) ∧
    ∀ e, Formula.parse (Surface.normalize text) = .error e → ofText text = .error e := by
  constructor
  · intro f h
    have htext := tabulates_mentionedVariables h
    have hcolumns := mentionedVariables_of_parse h
    refine ⟨_, _, ofText_of_parse h, ofFormula_eq_ok f, hcolumns, ?_, ?_, ?_⟩
    · intro a ha
      have hvars : ∀ v ∈ f.vars, a v ≠ none :=
        fun v hv => ha v (htext.covers v (Formula.mem_vars.mp hv))
      obtain ⟨b, hrow, hvalue⟩ := htext.exists_resultFor? ha
      obtain ⟨b', hrow', hvalue'⟩ := f.tabulates_vars.exists_resultFor? hvars
      -- both results are what the formula evaluates to
      rw [hvalue, Except.ok.injEq] at hvalue'
      rw [← hvalue'] at hrow'
      exact ⟨b, hrow, hrow'⟩
    · obtain ⟨c, hc, hfits⟩ := htext.classify
      obtain ⟨d, hd, hfits'⟩ := f.tabulates_vars.classify
      rw [hfits'.unique hfits] at hd
      exact ⟨c, hc, hd⟩
    · intro hvalid
      rw [hcolumns, if_neg fun hsurplus => Surface.not_or_of_validate hvalid hsurplus.1]
  · intro e h
    rw [ofText, h]
    rfl

/-- The letter of a spelled-out `or` has a column, but no influence. -/
theorem ofText_agrees_with_ofFormula_spelled_or :
    (∃ t u, ofText "p or q" = .ok t ∧ ofFormula (.binary .or (.atom .p) (.atom .q)) = .ok u ∧
      t.columns = [.p, .q, .r] ∧ u.columns = [.p, .q] ∧
      (∃ b, t.resultFor? (.ofValuation fun _ => false) = some b ∧
        u.resultFor? (.ofValuation fun _ => false) = some b) ∧
      ∃ c, t.classify = .ok c ∧ u.classify = .ok c) ∧
    ofText "p ∨ q" = ofFormula (.binary .or (.atom .p) (.atom .q)) ∧
    ofText "p or" = .error (.invalidSyntax ("Unrecognized EOF found at 4\n" ++
      "Expected one of \"(\", \"not\", \"p\", \"q\" or \"r\"") "p or" (some 4)) := by
  have hwords : Formula.parse (Surface.normalize "p or q") =
      .ok (.binary .or (.atom .p) (.atom .q)) := sameOutcome_iff.mp (by decide)
  have hsigns : Formula.parse (Surface.normalize "p ∨ q") =
      .ok (.binary .or (.atom .p) (.atom .q)) := sameOutcome_iff.mp (by decide)
  refine ⟨?_, ?_, ?_⟩
  · obtain ⟨t, u, ht, hu, hcolumns, hrows, hclassify, -⟩ :=
      (ofText_agrees_with_ofFormula "p or q").1 _ hwords
    have hvars : u.columns = [.p, .q] := by
      rw [ofFormula_eq_ok] at hu
      cases hu
      rfl
    exact ⟨t, u, ht, hu, hcolumns, hvars, hrows _ (by simp [Assignment.ofValuation]), hclassify⟩
  · obtain ⟨t, u, ht, hu, -, -, -, hequal⟩ := (ofText_agrees_with_ofFormula "p ∨ q").1 _ hsigns
    rw [ht, hu, hequal (by decide)]
  · exact (ofText_agrees_with_ofFormula "p or").2 _ (sameOutcome_iff.mp (by decide))

/-- A table, be it that of a formula or that of a text which is read as the formula, has no result
for an assignment that leaves a column unbound. For any other assignment the result is what the
formula evaluates to. -/
theorem resultFor?_agrees_with_evaluate {f : Formula} {t : TruthTable}
    (h : ofFormula f = .ok t ∨
      ∃ text, Formula.parse (Surface.normalize text) = .ok f ∧ ofText text = .ok t)
    (a : Assignment) :
    (t.resultFor? a = none ↔ ∃ v ∈ t.columns, a v = none) ∧
      ((∀ v ∈ t.columns, a v ≠ none) → ∃ b, t.resultFor? a = some b ∧ f.evaluate a = .ok b) := by
  have htabulates : t.Tabulates f := by
    rcases h with h | ⟨text, hparse, h⟩
    · rw [ofFormula_eq_ok] at h
      cases h
      exact f.tabulates_vars
    · rw [ofText_of_parse hparse] at h
      cases h
      exact tabulates_mentionedVariables hparse
  exact ⟨htabulates.resultFor?_eq_none_iff, htabulates.exists_resultFor?⟩

/-- The first assignment leaves the column of a spelled-out `or` unbound, which the formula could do
without. The second one binds all columns. -/
theorem resultFor?_agrees_with_evaluate_surplus_column :
    ∃ t, ofText "p or q" = .ok t ∧
      t.resultFor? (fun v => if v = .r then none else some true) = none ∧
      t.resultFor? (.ofValuation fun v => v == .q) = some true ∧
      Formula.evaluate (.ofValuation fun v => v == .q) (.binary .or (.atom .p) (.atom .q)) =
        .ok true := by
  have hwords : Formula.parse (Surface.normalize "p or q") =
      .ok (.binary .or (.atom .p) (.atom .q)) := sameOutcome_iff.mp (by decide)
  have htable := ofText_of_parse hwords
  have hagrees := resultFor?_agrees_with_evaluate (Or.inr ⟨_, hwords, htable⟩)
  have hunbound := (hagrees fun v => if v = .r then none else some true).1.mpr ⟨.r, by decide, rfl⟩
  obtain ⟨b, hrow, hvalue⟩ :=
    (hagrees (.ofValuation fun v => v == .q)).2 (by simp [Assignment.ofValuation])
  cases hvalue
  exact ⟨_, htable, hunbound, hrow, rfl⟩

end TruthTable

end PropLogic
