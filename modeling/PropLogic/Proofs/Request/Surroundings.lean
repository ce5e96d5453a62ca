import PropLogic.Proofs.Canonical.Spacing
import PropLogic.Proofs.Request.Failure

/-!
# White space around requests

White space before and after a request changes neither its table nor the kind of its failure. It
stays around the canonical form, so the places that an error mentions move by the bytes in front of
the request, and what was found there and what was expected stay the same. The white space behind
the request is not even seen: the end of a text is that of its last token.
-/

namespace PropLogic

/-! ### Canonical forms -/

namespace Surface

private theorem Replacement.runAll_append_cons {c : Char} {ws : List Replacement}
    (hws : ∀ w ∈ ws, w.spelling ≠ [] ∧ c ∉ w.spelling) (cs ds : List Char) :
    runAll ws (cs ++ c :: ds) = runAll ws cs ++ c :: runAll ws ds := by
  induction ws generalizing cs ds with
  | nil => rfl
  | cons w ws ih =>
      obtain ⟨hne, hmem⟩ := hws w List.mem_cons_self
      have hstep : w.run (cs ++ c :: ds) = w.run cs ++ c :: w.run ds :=
        Text.replaceAll_append_cons hne hmem cs ds
      rw [runAll_cons, hstep]
      exact ih (fun v hv => hws v (List.mem_cons_of_mem _ hv)) _ _

private theorem normalizeChars_append_cons {c : Char} (hc : Text.isBlank c = true) (cs ds : List Char) :
    normalizeChars (cs ++ c :: ds) = normalizeChars cs ++ c :: normalizeChars ds := by
  have hnone : ∀ w ∈ replacements, w.spelling.any Text.isBlank = false := by decide
  apply Replacement.runAll_append_cons
  intro w hw
  refine ⟨replacements_ne_nil w hw, fun hmem => ?_⟩
  exact List.any_eq_false.mp (hnone w hw) c hmem hc

private theorem normalizeChars_blank_append {u : List Char} (hu : ∀ c ∈ u, Text.isBlank c = true)
    (cs : List Char) : normalizeChars (u ++ cs) = u ++ normalizeChars cs := by
  induction u with
  | nil => rfl
  | cons c u ih =>
      rw [List.cons_append, normalizeChars_cons_of_isBlank (hu c List.mem_cons_self),
        ih fun d hd => hu d (List.mem_cons_of_mem _ hd), List.cons_append]

private theorem normalizeChars_append_blank (cs : List Char) {w : List Char}
    (hw : ∀ c ∈ w, Text.isBlank c = true) : normalizeChars (cs ++ w) = normalizeChars cs ++ w := by
  cases w with
  | nil => rw [List.append_nil, List.append_nil]
  | cons c w =>
      have htail : normalizeChars w = w :=
        normalizeChars_of_blank fun d hd => hw d (List.mem_cons_of_mem _ hd)
      rw [normalizeChars_append_cons (hw c List.mem_cons_self), htail]

end Surface

section Surroundings

variable {u w : String} (hu : ∀ c ∈ u.toList, Text.isBlank c = true)
  (hw : ∀ c ∈ w.toList, Text.isBlank c = true)

include hu hw

private theorem normalize_surrounded (request : String) :
    Surface.normalize (u ++ request ++ w) = u ++ Surface.normalize request ++ w := by
  rw [Surface.normalize, String.toList_append, String.toList_append,
    Surface.normalizeChars_append_blank _ hw, Surface.normalizeChars_blank_append hu,
    String.ofList_append, String.ofList_append, String.ofList_toList, String.ofList_toList,
    Surface.normalize]

/-! ### Checks and columns -/

private theorem parenthesesBalanced_surrounded (request : String) :
    Surface.parenthesesBalanced (u ++ request ++ w) = Surface.parenthesesBalanced request := by
  have hcount (c : Char) (hc : Text.isBlank c = false) :
      (u ++ request ++ w).toList.count c = request.toList.count c := by
    have hzero {blanks : String} (h : ∀ d ∈ blanks.toList, Text.isBlank d = true) :
        blanks.toList.count c = 0 := by
      rw [List.count_eq_zero]
      intro hmem
      rw [h c hmem] at hc
      cases hc
    rw [String.toList_append, String.toList_append, List.count_append, List.count_append, hzero hu,
      hzero hw, Nat.zero_add, Nat.add_zero]
  rw [Surface.parenthesesBalanced, Surface.parenthesesBalanced, hcount '(' (by decide),
    hcount ')' (by decide)]

private theorem validate_surrounded (request : String) :
    Surface.validate (u ++ request ++ w) = Surface.validate request := by
  have hall {blanks : String} (h : ∀ c ∈ blanks.toList, Text.isBlank c = true) :
      blanks.toList.all Surface.isAllowed = true := by
    rw [List.all_eq_true]
    exact fun c hc => Surface.isAllowed_of_isBlank (h c hc)
  rw [Surface.validate_eq, Surface.validate_eq, String.toList_append, String.toList_append,
    List.all_append, List.all_append, hall hu, hall hw, Bool.true_and, Bool.and_true]

private theorem mentionedVariables_surrounded (request : String) :
    mentionedVariables (u ++ request ++ w) = mentionedVariables request := by
  have hnone {blanks : String} (h : ∀ c ∈ blanks.toList, Text.isBlank c = true) :
      blanks.toList.filterMap Variable.ofLetter? = [] := by
    rw [List.filterMap_eq_nil_iff]
    exact fun c hc => Surface.ofLetter?_eq_none_of_isBlank (h c hc)
  rw [mentionedVariables, mentionedVariables, String.toList_append, String.toList_append,
    List.filterMap_append, List.filterMap_append, hnone hu, hnone hw, List.nil_append,
    List.append_nil]

/-! ### Reading -/

private theorem scan_surrounded (text : String) :
    Token.scan (u ++ text ++ w) = (Token.scan text).shift u.utf8ByteSize := by
  rw [Token.scan, String.toList_append, String.toList_append,
    Text.Lexicon.scan_append_blank Token.lexicon_regular Token.lexicon_solid 0 _ hw,
    Text.Lexicon.scan_blank_append 0 hu, Text.Lexicon.scan_add Token.lexicon_regular,
    Text.byteLength_toList]
  rfl

private theorem ofScan_surrounded {text : String} (hblank : ∃ c ∈ text.toList, Text.isBlank c = false) :
    Formula.ofScan (Token.scan (u ++ text ++ w)) =
      (Formula.ofScan (Token.scan text)).mapError (SyntaxFault.shift u.utf8ByteSize) := by
  have hlexes := Text.Lexicon.lexes_scan Token.lexicon_regular 0 text.toList
  rw [scan_surrounded hu hw]
  exact Formula.ofScan_shift _ (Formula.lexemes_ne_nil hlexes hblank)

private theorem parse_surrounded {text : String} (hblank : ∃ c ∈ text.toList, Text.isBlank c = false) :
    Formula.parse (u ++ text ++ w) =
      ((Formula.ofScan (Token.scan text)).mapError (SyntaxFault.shift u.utf8ByteSize)).mapError
        fun fault => fault.toError (u ++ text ++ w) := by
  have hblank' : ∃ c ∈ (u ++ text ++ w).toList, Text.isBlank c = false := by
    obtain ⟨c, hmem, hc⟩ := hblank
    exact ⟨c, by simp [hmem], hc⟩
  rw [Formula.parse_eq_mapError hblank', ofScan_surrounded hu hw hblank]

private theorem parse_surrounded_of_ok {text : String} {f : Formula}
    (hblank : ∃ c ∈ text.toList, Text.isBlank c = false)
    (h : Formula.parse text = .ok f) : Formula.parse (u ++ text ++ w) = .ok f := by
  rw [Formula.parse_eq_mapError hblank] at h
  rw [parse_surrounded hu hw hblank]
  cases hread : Formula.ofScan (Token.scan text) with
  | ok g =>
      rw [hread] at h
      exact h
  | error fault =>
      rw [hread] at h
      cases h

/-! ### Answers -/

private theorem answer_surrounded_of_parse_eq {request : String}
    (h : Formula.parse (u ++ Surface.normalize request ++ w) =
      Formula.parse (Surface.normalize request)) :
    answer (u ++ request ++ w) = answer request := by
  have htable : TruthTable.ofText (u ++ request ++ w) = TruthTable.ofText request := by
    rw [TruthTable.ofText, TruthTable.ofText, normalize_surrounded hu hw, h,
      mentionedVariables_surrounded hu hw]
  rw [answer, answer, parenthesesBalanced_surrounded hu hw, validate_surrounded hu hw, htable]

end Surroundings

/-- What becomes of a request and of the same request between the white space `u` and `w`: the same
table, or errors of the same kind. A syntax fault is then found at the same token, `u.utf8ByteSize`
bytes later. -/
inductive Surrounded (u request w : String) :
    Except RequestError ClassifiedTable → Except RequestError ClassifiedTable → Prop where
  | table (t : ClassifiedTable) : Surrounded u request w (.ok t) (.ok t)
  | unbalanced :
      Surrounded u request w (.error .unbalancedParentheses) (.error .unbalancedParentheses)
  | invalid : Surrounded u request w (.error .invalidCharacterSet) (.error .invalidCharacterSet)
  | empty : Surrounded u request w (.error (.evaluationFailure (.empty request)))
      (.error (.evaluationFailure (.empty (u ++ request ++ w))))
  | syntaxFault {fault : SyntaxFault} :
      Formula.ofScan (Token.scan (Surface.normalize request)) = .error fault →
      Formula.ofScan (Token.scan (u ++ Surface.normalize request ++ w)) =
        .error (fault.shift u.utf8ByteSize) →
      Surrounded u request w
        (.error (.evaluationFailure (fault.toError (Surface.normalize request))))
        (.error (.evaluationFailure
          ((fault.shift u.utf8ByteSize).toError (u ++ Surface.normalize request ++ w))))

section Surroundings

variable {u w : String} (hu : ∀ c ∈ u.toList, Text.isBlank c = true)
  (hw : ∀ c ∈ w.toList, Text.isBlank c = true)

include hu hw

private theorem surrounded_answer (request : String) :
    Surrounded u request w (answer request) (answer (u ++ request ++ w)) := by
  have houtcome := outcome_answer request
  generalize hanswer : answer request = outcome at houtcome
  cases houtcome with
  | unbalanced hunbalanced =>
      rw [← parenthesesBalanced_surrounded hu hw] at hunbalanced
      rw [answer_eq_unbalancedParentheses_iff.mpr hunbalanced]
      exact .unbalanced
  | invalid hbalanced hinvalid =>
      rw [← parenthesesBalanced_surrounded hu hw] at hbalanced
      rw [← validate_surrounded hu hw] at hinvalid
      rw [answer_eq_invalidCharacterSet_iff.mpr ⟨hbalanced, hinvalid⟩]
      exact .invalid
  | empty _ _ hblank =>
      have hall : ∀ c ∈ (u ++ request ++ w).toList, Text.isBlank c = true := by
        intro c hc
        rw [String.toList_append, String.toList_append, List.mem_append, List.mem_append] at hc
        rcases hc with (hc | hc) | hc
        · exact hu c hc
        · exact hblank c hc
        · exact hw c hc
      rw [answer_of_blank hall]
      exact .empty
  | @syntaxFault fault hbalanced hvalid hblank hfault =>
      rw [← parenthesesBalanced_surrounded hu hw] at hbalanced
      rw [← validate_surrounded hu hw] at hvalid
      have hnormal := Surface.exists_isBlank_eq_false_normalize hblank
      have hread : Formula.ofScan (Token.scan (u ++ Surface.normalize request ++ w)) =
          .error (fault.shift u.utf8ByteSize) := by
        rw [ofScan_surrounded hu hw hnormal, hfault]
        rfl
      have hparse : Formula.parse (Surface.normalize (u ++ request ++ w)) =
          .error ((fault.shift u.utf8ByteSize).toError (u ++ Surface.normalize request ++ w)) := by
        rw [normalize_surrounded hu hw, parse_surrounded hu hw hnormal, hfault]
        rfl
      rw [answer_of_parse_eq_error hbalanced hvalid hparse]
      exact .syntaxFault hfault hread
  | @table t _ _ hblank =>
      obtain ⟨-, f, hparse⟩ := exists_parse_of_answer hanswer
      have hnormal := Surface.exists_isBlank_eq_false_normalize hblank
      have hsame : Formula.parse (u ++ Surface.normalize request ++ w) =
          Formula.parse (Surface.normalize request) := by
        rw [parse_surrounded_of_ok hu hw hnormal hparse, hparse]
      rw [answer_surrounded_of_parse_eq hu hw hsame, hanswer]
      exact .table t

end Surroundings

/-- White space around a request stays around its canonical form. The request has the same answer
with it as without it, or both fail in the same way, and only the places in the error move, by the
bytes of the white space in front. -/
theorem answer_surrounded {u w : String} (hu : ∀ c ∈ u.toList, Text.isBlank c = true)
    (hw : ∀ c ∈ w.toList, Text.isBlank c = true) (request : String) :
    Surface.normalize (u ++ request ++ w) = u ++ Surface.normalize request ++ w ∧
      (∀ t, answer (u ++ request ++ w) = .ok t ↔ answer request = .ok t) ∧
      Surrounded u request w (answer request) (answer (u ++ request ++ w)) := by
  have hsurrounded := surrounded_answer hu hw request
  refine ⟨normalize_surrounded hu hw request, fun t => ?_, hsurrounded⟩
  generalize answer request = outcome, answer (u ++ request ++ w) = outcome' at hsurrounded
  cases hsurrounded with
  | table => rfl
  | unbalanced | invalid | empty | syntaxFault => exact ⟨nofun, nofun⟩

/-- The request ends too early and with white space of its own. Its end is that of the last token,
and three bytes stand in front of it. -/
theorem answer_surrounded_unfinished :
    (∀ c ∈ "\u3000".toList, Text.isBlank c = true) ∧ (∀ c ∈ "\n".toList, Text.isBlank c = true) ∧
      Surface.normalize ("\u3000" ++ "p &" ++ "\n") = "\u3000p  and \n" ∧
      answer "p &" = .error (.evaluationFailure
        ((SyntaxFault.unrecognizedEnd 6 [.openParen, .not, .atom .p, .atom .q, .atom .r]).toError
          "p  and ")) ∧
      answer ("\u3000" ++ "p &" ++ "\n") = .error (.evaluationFailure
        ((SyntaxFault.unrecognizedEnd 9 [.openParen, .not, .atom .p, .atom .q, .atom .r]).toError
          "\u3000p  and \n")) := by
  have hu : ∀ c ∈ "\u3000".toList, Text.isBlank c = true :=
    List.all_eq_true.mp (by decide)
  have hw : ∀ c ∈ "\n".toList, Text.isBlank c = true := List.all_eq_true.mp (by decide)
  have hnormal : Surface.normalize "p &" = "p  and " := by decide
  have hscan : Formula.ofScan (Token.scan "p  and ") =
      .error (.unrecognizedEnd 6 [.openParen, .not, .atom .p, .atom .q, .atom .r]) := by rfl
  have hparse : Formula.parse "p  and " = .error
      ((SyntaxFault.unrecognizedEnd 6 [.openParen, .not, .atom .p, .atom .q, .atom .r]).toError
        "p  and ") := by
    rw [Formula.parse_eq_mapError ⟨'p', by decide, by decide⟩, hscan]
    rfl
  rw [← hnormal] at hparse
  have hanswer := answer_of_parse_eq_error (by decide) (by decide) hparse
  obtain ⟨hcanonical, -, hsurrounded⟩ := answer_surrounded hu hw "p &"
  rw [hnormal] at hcanonical hanswer
  refine ⟨hu, hw, hcanonical, hanswer, ?_⟩
  generalize answer "p &" = outcome, answer ("\u3000" ++ "p &" ++ "\n") = outcome'
    at hanswer hsurrounded ⊢
  cases hsurrounded with
  | table | unbalanced | invalid | empty => cases hanswer
  | syntaxFault hfault =>
      rw [hnormal, hscan] at hfault
      cases hfault
      rw [hnormal]
      rfl

end PropLogic
