import PropLogic.Proofs.Surface.Notation
import PropLogic.Proofs.Table.Contents
import PropLogic.Request

/-!
# Accepted requests

A request is answered exactly if its own tokens form a sentence of the grammar, and it is then read
as the formula of this sentence. The answer is the classified truth table of the formula: the
columns come from the letters of the request and the rows from the rewritten text, but both speak of
one formula.
-/

namespace PropLogic

/-! ### Columns -/

theorem Variable.ascending_inOrder (vs : List Variable) :
    (Variable.inOrder vs).Pairwise fun v w => v.index < w.index := by
  have hall : Variable.all.Pairwise fun v w => v.index < w.index := by decide
  exact hall.filter _

theorem Variable.length_inOrder_le (vs : List Variable) : (Variable.inOrder vs).length ≤ 3 :=
  List.length_filter_le _ Variable.all

private theorem Formula.occurrences_ne_nil (f : Formula) : f.occurrences ≠ [] := by
  induction f with
  | atom v => simp
  | not f ih => exact ih
  | binary op l r ihl _ =>
      intro h
      exact ihl (List.append_eq_nil_iff.mp h).1

theorem Formula.vars_length_pos (f : Formula) : 1 ≤ f.vars.length := by
  obtain ⟨v, hv⟩ := List.exists_mem_of_ne_nil _ f.occurrences_ne_nil
  exact List.length_pos_of_mem (Formula.mem_vars.mpr hv)

theorem Formula.tabulates_vars (f : Formula) :
    (TruthTable.ofTruth f f.vars).Tabulates f :=
  TruthTable.tabulates_ofTruth (Variable.ascending_inOrder _) fun _ hv => Formula.mem_vars.mpr hv

theorem TruthTable.ofFormula_eq_ok (f : Formula) :
    TruthTable.ofFormula f = .ok (TruthTable.ofTruth f f.vars) :=
  TruthTable.tabulate_eq_ok fun _ hv => Formula.mem_vars.mpr hv

/-- The letters of a request are the variables of its formula, from left to right. -/
theorem mentionedVariables_eq_vars {request : String} {ts : List Token} {f : Formula}
    (hcuts : Surface.lexicon.Cuts request.toList ts) (hf : Derives .expr ts f) :
    mentionedVariables request = f.vars := by
  rw [mentionedVariables, Surface.filterMap_ofLetter?_of_cuts hcuts, hf.phrase.filterMap_atom?,
    Formula.vars]

/-! ### Checks -/

theorem Surface.parenthesesBalanced_of_derives {request : String} {ts : List Token} {f : Formula}
    (hparens : request.toList.filterMap opens? = ts.filterMap Token.opens?) (hf : Derives .expr ts f) :
    parenthesesBalanced request = true := by
  have hopening := count_filterMap_opens? request.toList true
  have hclosing := count_filterMap_opens? request.toList false
  rw [hparens] at hopening hclosing
  have hcount : request.toList.count '(' = request.toList.count ')' := by
    calc request.toList.count '('
        = (ts.filterMap Token.opens?).count true := hopening.symm
      _ = (ts.filterMap Token.opens?).count false := hf.phrase.count_opens
      _ = request.toList.count ')' := hclosing
  rw [parenthesesBalanced, hcount, beq_self_eq_true]

private theorem Surface.parenthesesBalanced_of_cuts {request : String} {ts : List Token} {f : Formula}
    (hcuts : lexicon.Cuts request.toList ts) (hf : Derives .expr ts f) :
    parenthesesBalanced request = true :=
  parenthesesBalanced_of_derives (filterMap_opens?_of_cuts hcuts) hf

theorem Surface.toList_normalize (request : String) :
    (normalize request).toList = normalizeChars request.toList := by
  rw [normalize, String.toList_ofList]

/-- A request that passes the check of its characters is parsed to the formula of its tokens. -/
theorem parse_normalize_eq_ok_iff {request : String} {f : Formula}
    (hvalid : Surface.validate request = true) :
    Formula.parse (Surface.normalize request) = .ok f ↔
      ∃ ts, Surface.lexicon.Cuts request.toList ts ∧ Derives .expr ts f := by
  have hallowed : ∀ c ∈ request.toList, Surface.isAllowed c = true :=
    Surface.validate_eq_true_iff.mp hvalid
  have hcuts (ts : List Token) : Surface.lexicon.Cuts request.toList ts ↔
      Token.lexicon.Cuts (Surface.normalizeChars request.toList) ts := by
    rw [Surface.cuts_iff_cuts_normalizeChars]
    exact and_iff_right hallowed
  rw [Formula.parse_eq_ok_iff, Surface.toList_normalize]
  simp only [hcuts]

theorem validate_of_cuts {request : String} {ts : List Token}
    (hcuts : Surface.lexicon.Cuts request.toList ts) : Surface.validate request = true :=
  Surface.validate_eq_true_iff.mpr (Surface.cuts_normalizeChars_of_cuts hcuts).1

/-! ### Answers -/

theorem parse_normalize_of_cuts {request : String} {ts : List Token} {f : Formula}
    (hcuts : Surface.lexicon.Cuts request.toList ts) (hf : Derives .expr ts f) :
    Formula.parse (Surface.normalize request) = .ok f :=
  (parse_normalize_eq_ok_iff (validate_of_cuts hcuts)).mpr ⟨ts, hcuts, hf⟩

theorem answer_of_cuts {request : String} {ts : List Token} {f : Formula}
    (hcuts : Surface.lexicon.Cuts request.toList ts) (hf : Derives .expr ts f) :
    ∃ c : Classification, c.Fits f ∧ answer request = .ok ⟨TruthTable.ofTruth f f.vars, c⟩ := by
  obtain ⟨c, hc, hfits⟩ := f.tabulates_vars.classify
  refine ⟨c, hfits, ?_⟩
  have htable : TruthTable.ofText request = .ok (TruthTable.ofTruth f f.vars) := by
    rw [TruthTable.ofText, parse_normalize_of_cuts hcuts hf, mentionedVariables_eq_vars hcuts hf]
    exact TruthTable.ofFormula_eq_ok f
  have hclassified : TruthTable.ofText request >>= ClassifiedTable.ofTable =
      .ok ⟨TruthTable.ofTruth f f.vars, c⟩ := by
    rw [htable]
    change ClassifiedTable.ofTable _ = _
    rw [ClassifiedTable.ofTable, hc]
    rfl
  rw [answer, Surface.parenthesesBalanced_of_cuts hcuts hf, validate_of_cuts hcuts, hclassified]
  rfl

theorem exists_parse_of_answer {request : String} {t : ClassifiedTable}
    (h : answer request = .ok t) :
    Surface.validate request = true ∧
      ∃ f, Formula.parse (Surface.normalize request) = .ok f := by
  rw [answer] at h
  split at h
  next => cases h
  next =>
    split at h
    next => cases h
    next hvalid =>
      refine ⟨by simpa using hvalid, ?_⟩
      cases hparse : Formula.parse (Surface.normalize request) with
      | ok f => exact ⟨f, rfl⟩
      | error e =>
          rw [TruthTable.ofText, hparse] at h
          cases h

theorem exists_cuts_of_answer {request : String} {t : ClassifiedTable}
    (h : answer request = .ok t) :
    ∃ ts f, Surface.lexicon.Cuts request.toList ts ∧ Derives .expr ts f := by
  obtain ⟨hvalid, f, hparse⟩ := exists_parse_of_answer h
  obtain ⟨ts, hcuts, hf⟩ := (parse_normalize_eq_ok_iff hvalid).mp hparse
  exact ⟨ts, f, hcuts, hf⟩

theorem exists_formula_of_answer {request : String} {t : ClassifiedTable}
    (h : answer request = .ok t) :
    ∃ ts f, Surface.lexicon.Cuts request.toList ts ∧ Derives .expr ts f ∧
      t.table = TruthTable.ofTruth f f.vars ∧ t.classification.Fits f := by
  obtain ⟨ts, f, hcuts, hf⟩ := exists_cuts_of_answer h
  obtain ⟨c, hfits, hanswer⟩ := answer_of_cuts hcuts hf
  rw [hanswer] at h
  cases h
  exact ⟨ts, f, hcuts, hf, rfl, hfits⟩

/-- A request is answered exactly if it can be cut into tokens that form a sentence of the grammar,
and the formula that it is read as is then the one that its tokens derive. -/
theorem answer_iff_sentence (request : String) :
    ((∃ t, answer request = .ok t) ↔
      ∃ ts, Surface.lexicon.Cuts request.toList ts ∧ IsSentence ts) ∧
    ∀ ts f, Surface.lexicon.Cuts request.toList ts → Derives .expr ts f →
      Formula.parse (Surface.normalize request) = .ok f := by
  refine ⟨⟨?_, ?_⟩, fun ts f hcuts hf => parse_normalize_of_cuts hcuts hf⟩
  · intro h
    obtain ⟨t, ht⟩ := h
    obtain ⟨ts, f, hcuts, hf⟩ := exists_cuts_of_answer ht
    exact ⟨ts, hcuts, f, hf⟩
  · intro h
    obtain ⟨ts, hcuts, f, hf⟩ := h
    obtain ⟨c, -, hanswer⟩ := answer_of_cuts hcuts hf
    exact ⟨_, hanswer⟩

/-- The ASCII spellings touch each other, and the conjunction binds tighter than the disjunction to
its left. -/
theorem answer_iff_sentence_touching :
    Surface.lexicon.Cuts "(p)<=>!q|r&p".toList
        [.openParen, .atom .p, .closeParen, .binary .iff, .not, .atom .q, .binary .or, .atom .r,
          .binary .and, .atom .p] ∧
      Formula.parse (Surface.normalize "(p)<=>!q|r&p") =
        .ok (.binary .iff (.atom .p)
          (.binary .or (.not (.atom .q)) (.binary .and (.atom .r) (.atom .p)))) ∧
      ∃ t, answer "(p)<=>!q|r&p" = .ok t := by
  have hcuts : Surface.lexicon.Cuts "(p)<=>!q|r&p".toList
      [.openParen, .atom .p, .closeParen, .binary .iff, .not, .atom .q, .binary .or, .atom .r,
        .binary .and, .atom .p] := by
    rw [Text.Lexicon.cuts_iff_scan Surface.lexicon_regular 0]
    decide
  have hgroup : Derives .expr [.openParen, .atom .p, .closeParen] (.atom .p) :=
    .expr_of_atom (.parenthesized (.expr_of_atom (.atom .p)))
  have hnot : Derives .disjunction [.not, .atom .q] (.not (.atom .q)) :=
    .ofConjunction (.ofNegation (.not (.ofAtom (.atom .q))))
  have hand : Derives .conjunction [.atom .r, .binary .and, .atom .p]
      (.binary .and (.atom .r) (.atom .p)) :=
    .and (.ofNegation (.ofAtom (.atom .r))) (.ofAtom (.atom .p))
  have hf := Derives.iff hgroup (.or hnot hand)
  obtain ⟨hanswered, hparsed⟩ := answer_iff_sentence "(p)<=>!q|r&p"
  exact ⟨hcuts, hparsed _ _ hcuts hf, hanswered.mpr ⟨_, hcuts, _, hf⟩⟩

/-- The answer to a request is the truth table of the formula that the request is read as. Its
columns are the variables of the formula, and its classification is that of the formula. -/
theorem answer_tabulates {request : String} {t : ClassifiedTable} (h : answer request = .ok t) :
    ∃ f, Formula.parse (Surface.normalize request) = .ok f ∧
      (∀ v, v ∈ t.table.columns ↔ v ∈ f.occurrences) ∧
      (1 ≤ t.table.columns.length ∧ t.table.columns.length ≤ 3) ∧
      t.table.Tabulates f ∧ t.classification.Fits f := by
  obtain ⟨ts, f, hcuts, hf⟩ := exists_cuts_of_answer h
  obtain ⟨c, hfits, hanswer⟩ := answer_of_cuts hcuts hf
  rw [hanswer] at h
  cases h
  refine ⟨f, parse_normalize_of_cuts hcuts hf, ?_, ?_, f.tabulates_vars, hfits⟩
  · intro v
    exact Formula.mem_vars
  · exact ⟨f.vars_length_pos, Variable.length_inOrder_le _⟩

/-- The columns of `r => p` stand in their own order, not in that of the request. -/
theorem answer_tabulates_conditional :
    ∃ t, answer "r => p" = .ok t ∧ t.table.columns = [.p, .r] ∧
      t.table.results = [true, true, false, true] ∧ t.classification = .contingency ∧
      ∃ f, Formula.parse (Surface.normalize "r => p") = .ok f ∧
        (∀ v, v ∈ t.table.columns ↔ v ∈ f.occurrences) ∧
        t.table.Tabulates f ∧ t.classification.Fits f := by
  have hanswer : answer "r => p" =
      .ok ⟨⟨[.p, .r], [⟨[true, true], true⟩, ⟨[true, false], true⟩, ⟨[false, true], false⟩,
        ⟨[false, false], true⟩]⟩, .contingency⟩ := sameOutcome_iff.mp (by decide)
  obtain ⟨f, hparse, hcolumns, -, htabulates, hfits⟩ := answer_tabulates hanswer
  exact ⟨_, hanswer, rfl, rfl, rfl, f, hparse, hcolumns, htabulates, hfits⟩

end PropLogic
