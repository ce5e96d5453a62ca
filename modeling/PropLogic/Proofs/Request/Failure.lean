import PropLogic.Proofs.Canonical.Faults
import PropLogic.Proofs.Request.Acceptance
import PropLogic.Proofs.Surface.StraySigns

/-!
# Requests that fail

Each kind of error has its own cause, and the causes are looked for in a fixed order: the number of
parentheses, the characters, white space only, and the place where the canonical form stops being a
formula. The other errors of evaluation do not come up, because every variable of a formula has a
column and every table has a row.
-/

namespace PropLogic

/-! ### Checks -/

theorem Surface.parenthesesBalanced_iff {request : String} :
    parenthesesBalanced request = true ↔ request.toList.count '(' = request.toList.count ')' := by
  rw [parenthesesBalanced, beq_iff_eq]

private theorem Surface.isAllowed_iff {c : Char} :
    isAllowed c = true ↔ Text.isBlank c = true ∨ c ∈ alphabet := by
  rw [isAllowed, Bool.or_eq_true, List.contains_iff_mem]

theorem Surface.validate_iff {request : String} :
    validate request = true ↔ ∀ c ∈ request.toList, Text.isBlank c = true ∨ c ∈ alphabet := by
  simp only [validate_eq_true_iff, isAllowed_iff]

private theorem Surface.parenthesesBalanced_of_ofText {text : String} {t : TruthTable}
    (h : TruthTable.ofText text = .ok t) : parenthesesBalanced text = true := by
  cases hparse : Formula.parse (normalize text) with
  | ok f =>
      obtain ⟨ts, hcuts, hf⟩ := Formula.parse_eq_ok_iff.mp hparse
      rw [toList_normalize] at hcuts
      exact parenthesesBalanced_of_derives (filterMap_opens?_of_cuts_normalizeChars hcuts) hf
  | error e =>
      rw [TruthTable.ofText, hparse] at h
      cases h

theorem Surface.normalizeChars_of_blank {cs : List Char} (h : ∀ c ∈ cs, Text.isBlank c = true) :
    normalizeChars cs = cs := by
  induction cs with
  | nil => rfl
  | cons c cs ih =>
      have hcs := ih fun d hd => h d (List.mem_cons_of_mem _ hd)
      rw [normalizeChars_cons_of_isBlank (h c List.mem_cons_self), hcs]

theorem Surface.exists_isBlank_eq_false_normalize {request : String}
    (h : ∃ c ∈ request.toList, Text.isBlank c = false) :
    ∃ c ∈ (normalize request).toList, Text.isBlank c = false := by
  have hall := (rewritten_normalizeChars request.toList).all_isBlank
  have hnot : request.toList.all Text.isBlank = false := by simpa using h
  rw [hnot, ← toList_normalize] at hall
  simpa using hall

/-! ### Requests that pass both checks -/

theorem answer_of_parse_eq_error {request : String} {e : EvaluationError}
    (hbalanced : Surface.parenthesesBalanced request = true)
    (hvalid : Surface.validate request = true)
    (h : Formula.parse (Surface.normalize request) = .error e) :
    answer request = .error (.evaluationFailure e) := by
  rw [answer, hbalanced, hvalid, TruthTable.ofText, h]
  rfl

private theorem Surface.parenthesesBalanced_of_blank {request : String}
    (h : ∀ c ∈ request.toList, Text.isBlank c = true) : parenthesesBalanced request = true := by
  have hopening : '(' ∉ request.toList := fun hmem => absurd (h _ hmem) (by decide)
  have hclosing : ')' ∉ request.toList := fun hmem => absurd (h _ hmem) (by decide)
  rw [parenthesesBalanced_iff, List.count_eq_zero.mpr hopening, List.count_eq_zero.mpr hclosing]

theorem answer_of_blank {request : String} (h : ∀ c ∈ request.toList, Text.isBlank c = true) :
    answer request = .error (.evaluationFailure (.empty request)) := by
  have hvalid : Surface.validate request = true :=
    Surface.validate_iff.mpr fun c hc => Or.inl (h c hc)
  have hnormal : Surface.normalize request = request := by
    rw [Surface.normalize, Surface.normalizeChars_of_blank h, String.ofList_toList]
  refine answer_of_parse_eq_error (Surface.parenthesesBalanced_of_blank h) hvalid ?_
  rw [hnormal, Formula.parse_eq, if_pos (List.all_eq_true.mpr h)]

private theorem answer_of_not_blank {request : String}
    (hbalanced : Surface.parenthesesBalanced request = true)
    (hvalid : Surface.validate request = true)
    (hblank : ∃ c ∈ request.toList, Text.isBlank c = false) :
    (∃ t, answer request = .ok t) ∨
      ∃ fault, Formula.ofScan (Token.scan (Surface.normalize request)) = .error fault ∧
        answer request = .error (.evaluationFailure
          (.invalidSyntax fault.detail (Surface.normalize request) (some fault.position))) := by
  cases hparse : Formula.parse (Surface.normalize request) with
  | ok f =>
      obtain ⟨ts, hcuts, hf⟩ := (parse_normalize_eq_ok_iff hvalid).mp hparse
      obtain ⟨c, -, hanswer⟩ := answer_of_cuts hcuts hf
      exact Or.inl ⟨_, hanswer⟩
  | error e =>
      have hnormal := Surface.exists_isBlank_eq_false_normalize hblank
      have hlexes := Text.Lexicon.lexes_scan Token.lexicon_regular 0
        (Surface.normalize request).toList
      obtain ⟨fault, hfault, rfl⟩ := (Formula.parse_eq_error_iff hlexes hnormal).mp hparse
      exact Or.inr ⟨fault, hfault, answer_of_parse_eq_error hbalanced hvalid hparse⟩

private theorem isSign_of_invalidToken {request : String} (hvalid : Surface.validate request = true)
    {offset : Nat}
    (h : Formula.ofScan (Token.scan (Surface.normalize request)) = .error (.invalidToken offset)) :
    ∃ before c after, (Surface.normalize request).toList = before ++ c :: after ∧
      offset = Text.byteLength before ∧ Surface.isSign c = true := by
  have hallowed : ∀ c ∈ request.toList, Surface.isAllowed c = true :=
    Surface.validate_eq_true_iff.mp hvalid
  have hstrewn : Surface.Strewn (Surface.normalize request).toList := by
    rw [Surface.toList_normalize]
    exact (Surface.rewritten_normalizeChars _).strewn hallowed
  have hlexes := Text.Lexicon.lexes_scan Token.lexicon_regular 0 (Surface.normalize request).toList
  have hstuck := ParseState.stuckAt?_of_invalidToken h
  simpa using hstrewn.isSign_of_stuck hlexes hstuck

/-! ### Outcomes -/

/-- What can become of a request, with the cause of each error. -/
inductive Outcome (request : String) : Except RequestError ClassifiedTable → Prop where
  | unbalanced : Surface.parenthesesBalanced request = false →
      Outcome request (.error .unbalancedParentheses)
  | invalid : Surface.parenthesesBalanced request = true → Surface.validate request = false →
      Outcome request (.error .invalidCharacterSet)
  | empty : Surface.parenthesesBalanced request = true → Surface.validate request = true →
      (∀ c ∈ request.toList, Text.isBlank c = true) →
        Outcome request (.error (.evaluationFailure (.empty request)))
  | syntaxFault {fault : SyntaxFault} : Surface.parenthesesBalanced request = true →
      Surface.validate request = true → (∃ c ∈ request.toList, Text.isBlank c = false) →
        Formula.ofScan (Token.scan (Surface.normalize request)) = .error fault →
          Outcome request (.error (.evaluationFailure
            (.invalidSyntax fault.detail (Surface.normalize request) (some fault.position))))
  | table {t : ClassifiedTable} : Surface.parenthesesBalanced request = true →
      Surface.validate request = true → (∃ c ∈ request.toList, Text.isBlank c = false) →
        Outcome request (.ok t)

theorem outcome_answer (request : String) : Outcome request (answer request) := by
  by_cases hbalanced : Surface.parenthesesBalanced request = true
  · by_cases hvalid : Surface.validate request = true
    · by_cases hblank : ∀ c ∈ request.toList, Text.isBlank c = true
      · rw [answer_of_blank hblank]
        exact .empty hbalanced hvalid hblank
      · have hnot : ∃ c ∈ request.toList, Text.isBlank c = false := by simpa using hblank
        rcases answer_of_not_blank hbalanced hvalid hnot with ⟨t, ht⟩ | ⟨fault, hfault, hanswer⟩
        · rw [ht]
          exact .table hbalanced hvalid hnot
        · rw [hanswer]
          exact .syntaxFault hbalanced hvalid hnot hfault
    · have hinvalid : Surface.validate request = false := by simpa using hvalid
      simp only [answer, hbalanced, hinvalid]
      exact .invalid hbalanced hinvalid
  · have hunbalanced : Surface.parenthesesBalanced request = false := by simpa using hbalanced
    simp only [answer, hunbalanced]
    exact .unbalanced hunbalanced

theorem answer_eq_unbalancedParentheses_iff {request : String} :
    answer request = .error .unbalancedParentheses ↔
      Surface.parenthesesBalanced request = false := by
  have houtcome := outcome_answer request
  generalize answer request = outcome at houtcome
  cases houtcome <;> simp_all

theorem answer_eq_invalidCharacterSet_iff {request : String} :
    answer request = .error .invalidCharacterSet ↔
      Surface.parenthesesBalanced request = true ∧ Surface.validate request = false := by
  have houtcome := outcome_answer request
  generalize answer request = outcome at houtcome
  cases houtcome <;> simp_all

theorem answer_eq_empty_iff {request input : String} :
    answer request = .error (.evaluationFailure (.empty input)) ↔
      input = request ∧ ∀ c ∈ request.toList, Text.isBlank c = true := by
  constructor
  · intro h
    have houtcome := outcome_answer request
    rw [h] at houtcome
    cases houtcome with
    | empty _ _ hblank => exact ⟨rfl, hblank⟩
  · rintro ⟨rfl, hblank⟩
    exact answer_of_blank hblank

/-- The kinds of errors of requests. The parentheses are unequally many, or else some character is
not allowed, or else the request is blank, or else its canonical form is no formula: then the error
has the canonical form and the place of the fault in it, and where no token begins there is a stray
sign. No variable is ever unbound and no table without rows, and a text with unequally many
parentheses has no table even if it is not checked. -/
theorem answer_error_taxonomy (request : String) :
    (answer request = .error .unbalancedParentheses ↔
      request.toList.count '(' ≠ request.toList.count ')') ∧
    (answer request = .error .invalidCharacterSet ↔
      request.toList.count '(' = request.toList.count ')' ∧
        ∃ c ∈ request.toList, Text.isBlank c = false ∧ c ∉ Surface.alphabet) ∧
    (∀ input, answer request = .error (.evaluationFailure (.empty input)) ↔
      input = request ∧ ∀ c ∈ request.toList, Text.isBlank c = true) ∧
    (request.toList.count '(' = request.toList.count ')' →
      (∀ c ∈ request.toList, Text.isBlank c = true ∨ c ∈ Surface.alphabet) →
      (∃ c ∈ request.toList, Text.isBlank c = false) →
        (∃ t, answer request = .ok t) ∨
          ∃ fault, Formula.ofScan (Token.scan (Surface.normalize request)) = .error fault ∧
            answer request = .error (.evaluationFailure
              (.invalidSyntax fault.detail (Surface.normalize request) (some fault.position))) ∧
            ∀ offset, fault = .invalidToken offset →
              ∃ before c after, (Surface.normalize request).toList = before ++ c :: after ∧
                offset = Text.byteLength before ∧ c ∈ ['<', '=', '>']) ∧
    (∀ v, answer request ≠ .error (.evaluationFailure (.unboundVariable v))) ∧
    answer request ≠ .error (.evaluationFailure .noRows) ∧
    (request.toList.count '(' ≠ request.toList.count ')' →
      ∀ t, TruthTable.ofText request ≠ .ok t) := by
  have houtcome := outcome_answer request
  refine ⟨?_, ?_, fun _ => answer_eq_empty_iff, ?_, ?_, ?_, ?_⟩
  · rw [answer_eq_unbalancedParentheses_iff, ne_eq, ← Surface.parenthesesBalanced_iff,
      Bool.not_eq_true]
  · rw [answer_eq_invalidCharacterSet_iff, Surface.parenthesesBalanced_iff, ← Bool.not_eq_true,
      Surface.validate_iff]
    simp
  · intro hparens hallowed hblank
    have hbalanced := Surface.parenthesesBalanced_iff.mpr hparens
    have hvalid := Surface.validate_iff.mpr hallowed
    rcases answer_of_not_blank hbalanced hvalid hblank with ht | ⟨fault, hfault, hanswer⟩
    · exact Or.inl ht
    · refine Or.inr ⟨fault, hfault, hanswer, ?_⟩
      rintro offset rfl
      obtain ⟨before, c, after, htext, hoffset, hc⟩ := isSign_of_invalidToken hvalid hfault
      exact ⟨before, c, after, htext, hoffset, by simpa [Surface.isSign, or_assoc] using hc⟩
  · intro v h
    rw [h] at houtcome
    cases houtcome
  · intro h
    rw [h] at houtcome
    cases houtcome
  · intro hparens t ht
    exact hparens (Surface.parenthesesBalanced_iff.mp (Surface.parenthesesBalanced_of_ofText ht))

/-- The sign at the end is no part of a token. -/
theorem answer_error_taxonomy_stray :
    answer "¬p <" = .error (.evaluationFailure
        (.invalidSyntax "Invalid token at 7" " not p <" (some 7))) ∧
      ∃ before c after, (Surface.normalize "¬p <").toList = before ++ c :: after ∧
        7 = Text.byteLength before ∧ c ∈ ['<', '=', '>'] := by
  have hnormal : Surface.normalize "¬p <" = " not p <" := by decide
  have hscan : Formula.ofScan (Token.scan " not p <") = .error (.invalidToken 7) := by rfl
  obtain ⟨-, -, -, hpassed, -⟩ := answer_error_taxonomy "¬p <"
  have hallowed := Surface.validate_iff.mp (show Surface.validate "¬p <" = true by decide)
  rcases hpassed (by decide) hallowed ⟨'p', by decide, by decide⟩ with
    ⟨t, ht⟩ | ⟨fault, hfault, hanswer, hsign⟩
  · obtain ⟨-, f, hparse⟩ := exists_parse_of_answer ht
    rw [hnormal, Formula.parse_eq, if_neg (by decide), hscan] at hparse
    cases hparse
  · rw [hnormal, hscan] at hfault
    cases hfault
    rw [hnormal] at hanswer
    exact ⟨hanswer, hsign 7 rfl⟩

end PropLogic
