import Mathlib.Tactic.Choose
import PropLogic.Proofs.Formula.Substitution
import PropLogic.Proofs.Request.Acceptance
import PropLogic.Proofs.Table.Lookup

/-!
# Requests inside requests

Requests in parentheses are put in place of the letters of a request. The result is a request again,
and its table is computed from the tables of the parts: the row of an assignment holds what the
first table says about the results of the other tables.
-/

namespace PropLogic

namespace Surface

/-- The text that takes the place of a character: a letter makes way for an operand in parentheses. -/
def substChar (operands : Variable → List Char) (c : Char) : List Char :=
  match Variable.ofLetter? c with
  | some v => '(' :: operands v ++ [')']
  | none => [c]

/-- The request with an operand in parentheses in place of every letter. -/
def substitute (operands : Variable → String) (request : String) : String :=
  String.ofList (request.toList.flatMap (substChar fun v => (operands v).toList))

private theorem substChar_of_ofLetter?_eq_none (operands : Variable → List Char) {c : Char}
    (hc : Variable.ofLetter? c = none) : substChar operands c = [c] := by
  rw [substChar, hc]

private theorem flatMap_substChar_spelling (operands : Variable → List Char)
    (us : Variable → List Token)
    {w : List Char} {t : Token} (h : (w, t) ∈ lexicon) :
    (∃ v, t = .atom v ∧ w.flatMap (substChar operands) = '(' :: operands v ++ [')']) ∨
      w.flatMap (substChar operands) = w ∧ t.subst us = [t] := by
  have hspelling : w.filterMap Variable.ofLetter? = t.atom?.toList :=
    filterMap_ofLetter?_spelling (w, t) h
  have hatoms : ∀ e ∈ lexicon, ∀ v ∈ e.2.atom?, e.1 = [v.letter] := by decide
  cases t with
  | atom v =>
      obtain rfl : w = [v.letter] := hatoms (w, .atom v) h v rfl
      exact Or.inl ⟨v, rfl, by simp [substChar, Variable.ofLetter?_letter]⟩
  | _ =>
      have hletters : ∀ c ∈ w, Variable.ofLetter? c = none := List.filterMap_eq_nil_iff.mp hspelling
      have hkept : w.flatMap (substChar operands) = w :=
        Text.flatMap_eq_self fun c hc => substChar_of_ofLetter?_eq_none operands (hletters c hc)
      exact Or.inr ⟨hkept, rfl⟩

private theorem cuts_substitute {operands : Variable → List Char} {us : Variable → List Token}
    (hoperands : ∀ v, lexicon.Cuts (operands v) (us v)) {cs : List Char} {ts : List Token}
    (h : lexicon.Cuts cs ts) :
    lexicon.Cuts (cs.flatMap (substChar operands)) (ts.flatMap (Token.subst us)) := by
  induction h with
  | nil => exact .nil
  | blank hc _ ih =>
      rw [List.flatMap_cons,
        substChar_of_ofLetter?_eq_none operands (ofLetter?_eq_none_of_isBlank hc)]
      exact .blank hc ih
  | @token w rest t ts hw _ ih =>
      rw [List.flatMap_append, List.flatMap_cons]
      rcases flatMap_substChar_spelling operands us hw.mem with
        ⟨v, rfl, hspelling⟩ | ⟨hspelling, hsubst⟩
      · rw [hspelling]
        exact cuts_append (cuts_parenthesized (hoperands v)) ih
      · rw [hspelling, hsubst]
        exact cuts_spelling_append hw.mem ih

end Surface

private theorem letter_mem_iff {request : String} {ts : List Token} {f : Formula}
    (hcuts : Surface.lexicon.Cuts request.toList ts) (hf : Derives .expr ts f) (v : Variable) :
    v.letter ∈ request.toList ↔ v ∈ f.occurrences := by
  rw [← hf.phrase.filterMap_atom?, ← Surface.filterMap_ofLetter?_of_cuts hcuts, List.mem_filterMap]
  simp only [Variable.ofLetter?_eq_some_iff, exists_eq_right]

/-- A request with requests in place of its letters is answered. Its columns are those of the
requests whose letter occurs, its row for an assignment is that of the first request for the results
of the others, and it stays a tautology or a contradiction. -/
theorem answer_substitute {request : String} {operands : Variable → String} {t : ClassifiedTable}
    {tables : Variable → ClassifiedTable} (h : answer request = .ok t)
    (hoperands : ∀ v, answer (operands v) = .ok (tables v)) :
    ∃ t', answer (Surface.substitute operands request) = .ok t' ∧
      (∀ v, v ∈ t'.table.columns ↔
        ∃ w : Variable, w.letter ∈ request.toList ∧ v ∈ (tables w).table.columns) ∧
      (∀ a : Assignment, (∀ v, (a v).isSome) →
        ∃ results : Variable → Bool,
          (∀ v, (tables v).table.resultFor? a = some (results v)) ∧
          ∃ b, t.table.resultFor? (Assignment.ofValuation results) = some b ∧
            t'.table.resultFor? a = some b) ∧
      (t.classification = .tautology → t'.classification = .tautology) ∧
      (t.classification = .contradiction → t'.classification = .contradiction) := by
  obtain ⟨ts, f, hcuts, hf, htable, hfits⟩ := exists_formula_of_answer h
  choose us g hcuts' hg htables _ using fun v => exists_formula_of_answer (hoperands v)
  have hwhole : Surface.lexicon.Cuts (Surface.substitute operands request).toList
      (ts.flatMap (Token.subst us)) := by
    rw [Surface.substitute, String.toList_ofList]
    exact Surface.cuts_substitute hcuts' hcuts
  obtain ⟨c, hc, hanswer⟩ := answer_of_cuts hwhole (hf.subst hg)
  refine ⟨_, hanswer, ?_, ?_, ?_, ?_⟩
  · intro v
    change v ∈ (f.subst g).vars ↔ _
    rw [Formula.mem_vars_subst]
    simp only [letter_mem_iff hcuts hf, htables]
    rfl
  · intro a ha
    obtain ⟨val, rfl⟩ : ∃ val, a = Assignment.ofValuation val :=
      ⟨fun v => (a v).get (ha v), funext fun v => (Option.some_get (ha v)).symm⟩
    refine ⟨fun v => decide ((g v).Holds val), ?_, decide ((f.subst g).Holds val), ?_, ?_⟩
    · intro v
      rw [htables, (g v).tabulates_vars.resultFor?_ofValuation]
    · rw [htable, f.tabulates_vars.resultFor?_ofValuation]
      simp only [Formula.holds_subst fun _ => rfl]
    · rw [(f.subst g).tabulates_vars.resultFor?_ofValuation]
  · intro htautology
    refine hc.tautology.mpr fun val => ?_
    exact (f.holds_subst fun _ => rfl).mpr (hfits.tautology.mp htautology _)
  · intro hcontradiction
    refine hc.contradiction.mpr fun val hholds => ?_
    exact hfits.contradiction.mp hcontradiction _ ((f.holds_subst fun _ => rfl).mp hholds)

/-- A conditional in both places of the excluded middle. Its own table is a contingency. -/
theorem answer_substitute_excluded_middle :
    Surface.substitute (fun v => if v = .p then "q => r" else "p") "p | !p" =
        "(q => r) | !(q => r)" ∧
      ∃ t, answer "(q => r) | !(q => r)" = .ok t ∧
        (∀ v, v ∈ t.table.columns ↔ v = .q ∨ v = .r) ∧ t.classification = .tautology := by
  have htext : Surface.substitute (fun v => if v = .p then "q => r" else "p") "p | !p" =
      "(q => r) | !(q => r)" := by decide
  have hrequest : answer "p | !p" = .ok ⟨⟨[.p], [⟨[true], true⟩, ⟨[false], true⟩]⟩, .tautology⟩ :=
    sameOutcome_iff.mp (by decide)
  let conditional : ClassifiedTable := ⟨⟨[.q, .r], [⟨[true, true], true⟩, ⟨[true, false], false⟩,
    ⟨[false, true], true⟩, ⟨[false, false], true⟩]⟩, .contingency⟩
  let letter : ClassifiedTable := ⟨⟨[.p], [⟨[true], true⟩, ⟨[false], false⟩]⟩, .contingency⟩
  have hoperands (v : Variable) : answer (if v = .p then "q => r" else "p") =
      .ok (if v = .p then conditional else letter) := by
    cases v <;> exact sameOutcome_iff.mp (by decide)
  obtain ⟨t, hanswer, hcolumns, -, htautology, -⟩ := answer_substitute hrequest hoperands
  rw [htext] at hanswer
  refine ⟨htext, t, hanswer, fun v => ?_, htautology rfl⟩
  rw [hcolumns]
  constructor
  · rintro ⟨w, hletter, hv⟩
    cases w <;> cases v <;> revert hletter hv <;> decide
  · rintro (rfl | rfl) <;> exact ⟨.p, by decide, by decide⟩

end PropLogic
