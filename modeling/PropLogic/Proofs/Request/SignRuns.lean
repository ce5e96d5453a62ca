import PropLogic.Proofs.Request.Acceptance
import PropLogic.Proofs.Surface.StraySigns

/-!
# Signs in answered requests

Two connectives are never neighbours in a formula. So the signs of a request that is answered come
in runs, each of which is the spelling of one connective. It may be the canonical spelling, because
the check of the characters does not see it and the rewriting keeps it. The words of the canonical
notation have letters that are not allowed.
-/

namespace PropLogic

namespace Surface

/-- The longest runs of signs in a text, with an empty run between two other characters. -/
def signRuns (cs : List Char) : List (List Char) := cs.splitOnP fun c => !isSign c

/-- The runs of signs that requests are meant to have. -/
def requestSigns : List (List Char) := [['<', '=', '>'], ['=', '>']]

/-- The connectives that the canonical notation writes with signs. -/
def canonicalSigns : List (List Char) := [['<', '='], ['=', '=']]

/-- The text without the spellings `<=>` and, after that, without the spellings `=>`. -/
def withoutRequestSigns (cs : List Char) : List Char :=
  Text.replaceAll ['=', '>'] [] (Text.replaceAll ['<', '=', '>'] [] cs)

/-! ### Runs of a text -/

private theorem signRuns_append_cons {c : Char} (hc : isSign c = false) (w rest : List Char) :
    signRuns (w ++ c :: rest) = signRuns w ++ signRuns rest :=
  List.splitOnP_append_cons w rest (by simp [hc])

private theorem signRuns_cons {c : Char} (hc : isSign c = false) (rest : List Char) :
    signRuns (c :: rest) = [] :: signRuns rest :=
  signRuns_append_cons hc [] rest

private theorem signRuns_of_signs {w : List Char} (hw : ∀ c ∈ w, isSign c = true) : signRuns w = [w] :=
  List.splitOnP_eq_singleton fun c hc => by simp [hw c hc]

private theorem mem_signRuns_signs_append {w : List Char} (hw : ∀ c ∈ w, isSign c = true) {c : Char}
    (hc : isSign c = false) {rest run : List Char} (h : run ∈ signRuns (w ++ c :: rest)) :
    run = w ∨ run ∈ signRuns (c :: rest) := by
  rw [signRuns_append_cons hc, signRuns_of_signs hw, List.singleton_append, List.mem_cons] at h
  rw [signRuns_cons hc]
  exact h.imp_right (List.mem_cons_of_mem _)

private theorem mem_signRuns_append {w : List Char} (hw : ∀ c ∈ w, isSign c = false)
    {rest run : List Char}
    (h : run ∈ signRuns (w ++ rest)) : run = [] ∨ run ∈ signRuns rest := by
  induction w with
  | nil => exact Or.inr h
  | cons c w ih =>
      rw [List.cons_append, signRuns_cons (hw c List.mem_cons_self)] at h
      rcases List.mem_cons.mp h with rfl | hmem
      · exact Or.inl rfl
      · exact ih (fun d hd => hw d (List.mem_cons_of_mem _ hd)) hmem

private theorem isSign_eq_false_iff {cs : List Char} :
    (∀ c ∈ cs, isSign c = false) ↔ ∀ run ∈ signRuns cs, run = [] := by
  induction cs with
  | nil => simp [signRuns]
  | cons c cs ih =>
      by_cases hc : isSign c = true
      · obtain ⟨run, runs, hruns⟩ :=
          List.exists_cons_of_ne_nil (List.splitOnP_ne_nil (fun c => !isSign c) cs)
        simp [signRuns, List.splitOnP_cons_eq_if_modifyHead, hc, hruns]
      · have hnot : isSign c = false := by simpa using hc
        simp [signRuns_cons hnot, hnot, ih]

private theorem signRuns_replaceAll {old : List Char} (hold : old ≠ []) (hsigns : old.all isSign = true)
    (cs : List Char) :
    signRuns (Text.replaceAll old [] cs) = (signRuns cs).map (Text.replaceAll old []) := by
  -- by the length of the text, which is split at a character that is no sign
  induction hlength : cs.length using Nat.strongRecOn generalizing cs with
  | ind n ih =>
      subst hlength
      by_cases hall : ∀ c ∈ cs, isSign c = true
      · have hleft : ∀ c ∈ Text.replaceAll old [] cs, isSign c = true := by
          intro c hc
          rcases Text.mem_of_mem_replaceAll hc with hmem | hmem
          · cases hmem
          · exact hall c hmem
        rw [signRuns_of_signs hall, signRuns_of_signs hleft]
        rfl
      · simp only [Classical.not_forall, exists_prop, Bool.not_eq_true] at hall
        obtain ⟨c, hmem, hc⟩ := hall
        obtain ⟨w, rest, rfl⟩ := List.append_of_mem hmem
        have hold' : c ∉ old := by
          intro hin
          rw [List.all_eq_true.mp hsigns c hin] at hc
          cases hc
        have hw := ih w.length (by simp) w rfl
        have hrest := ih rest.length (by simp; omega) rest rfl
        rw [Text.replaceAll_append_cons hold hold', signRuns_append_cons hc, signRuns_append_cons hc,
          List.map_append, hw, hrest]

private theorem signRuns_withoutRequestSigns (cs : List Char) :
    signRuns (withoutRequestSigns cs) = (signRuns cs).map withoutRequestSigns := by
  rw [withoutRequestSigns, signRuns_replaceAll (by decide) (by decide),
    signRuns_replaceAll (by decide) (by decide), List.map_map]
  rfl

/-! ### Runs of a formula -/

private theorem mem_lexicon_signs {w : List Char} {t : Token} (h : (w, t) ∈ lexicon) :
    ((w ∈ requestSigns ∨ w ∈ canonicalSigns) ∧ ∃ op, t = .binary op) ∨
      ∀ c ∈ w, isSign c = false := by
  have hall : ∀ e ∈ lexicon, ((e.1 ∈ requestSigns ∨ e.1 ∈ canonicalSigns) ∧
      (e.2 = .binary .implies ∨ e.2 = .binary .iff)) ∨ e.1.all (fun c => !isSign c) = true := by
    decide
  rcases hall (w, t) h with ⟨hw, ht⟩ | hnone
  · refine Or.inl ⟨hw, ?_⟩
    rcases ht with ht | ht <;> exact ⟨_, ht⟩
  · exact Or.inr (by simpa using hnone)

private theorem isSign_of_mem_spelling {w : List Char} (h : w ∈ requestSigns ∨ w ∈ canonicalSigns) :
    ∀ c ∈ w, isSign c = true := by
  have hall : ∀ w ∈ requestSigns ++ canonicalSigns, w.all isSign = true := by decide
  exact List.all_eq_true.mp (hall w (List.mem_append.mpr h))

/-- In the tokens that complete a formula each run of signs is one spelling. Where an operand is due
the text does not begin with a sign. -/
private theorem signRuns_of_run? {cs : List Char} {ts : List Token} (h : lexicon.Cuts cs ts)
    {s s' : ParseState} {f : Formula} (hrun : s.run? ts = some s') (hresult : s'.result? = some f) :
    (∀ run ∈ signRuns cs, run = [] ∨ run ∈ requestSigns ∨ run ∈ canonicalSigns) ∧
      ∀ stack, s = .operand stack → ∃ c rest, cs = c :: rest ∧ isSign c = false := by
  induction h generalizing s with
  | nil =>
      rw [ParseState.run?_nil, Option.some.injEq] at hrun
      subst hrun
      refine ⟨by simp [signRuns], ?_⟩
      rintro stack rfl
      cases hresult
  | @blank c cs ts hc _ ih =>
      have hsign := isSign_of_isBlank hc
      refine ⟨?_, fun _ _ => ⟨c, cs, rfl, hsign⟩⟩
      intro run hmem
      rw [signRuns_cons hsign] at hmem
      rcases List.mem_cons.mp hmem with rfl | hmem
      · exact Or.inl rfl
      · exact (ih hrun).1 run hmem
  | @token w rest t ts hw _ ih =>
      rw [ParseState.run?_cons, Option.bind_eq_some_iff] at hrun
      obtain ⟨next, hstep, hrun⟩ := hrun
      obtain ⟨hruns, hhead⟩ := ih hrun
      rcases mem_lexicon_signs hw.mem with ⟨hsigns, op, rfl⟩ | hnone
      · -- behind the connective an operand is due, so that its run ends
        obtain ⟨stack, g, level, stack', rfl, rfl⟩ := ParseState.step?_binary hstep
        obtain ⟨c, tail, rfl, hc⟩ := hhead stack' rfl
        refine ⟨?_, fun _ hphrase => by cases hphrase⟩
        intro run hmem
        rcases mem_signRuns_signs_append (isSign_of_mem_spelling hsigns) hc hmem with rfl | hmem
        · exact Or.inr hsigns
        · exact hruns run hmem
      · constructor
        · intro run hmem
          rcases mem_signRuns_append hnone hmem with hempty | hmem
          · exact Or.inl hempty
          · exact hruns run hmem
        · intro _ _
          obtain ⟨c, w', hw', -⟩ := lexicon_regular.exists_cons hw.mem
          obtain rfl : w = c :: w' := hw'
          exact ⟨c, w' ++ rest, rfl, hnone c List.mem_cons_self⟩

end Surface

/-! ### Answered requests -/

/-- The signs of a request that is answered spell connectives. No sign is left without the spellings
`<=>` and `=>` exactly if none of the connectives is written as `<=` or `==`. The words of the
canonical notation do not occur. -/
theorem answer_signRuns {request : String} {t : ClassifiedTable} (h : answer request = .ok t) :
    (∀ run ∈ Surface.signRuns request.toList,
      run = [] ∨ run ∈ Surface.requestSigns ∨ run ∈ Surface.canonicalSigns) ∧
    ((∀ c ∈ Surface.withoutRequestSigns request.toList, Surface.isSign c = false) ↔
      ∀ run ∈ Surface.signRuns request.toList, run ∉ Surface.canonicalSigns) ∧
    ∀ word ∈ [Token.not, .binary .and, .binary .or], ¬ word.spelling <:+: request.toList := by
  obtain ⟨ts, f, hcuts, hf⟩ := exists_cuts_of_answer h
  obtain ⟨s, hrun, hresult⟩ := ParseState.result?_run?_of_derives hf
  have hruns := (Surface.signRuns_of_run? hcuts hrun hresult).1
  refine ⟨hruns, ?_, ?_⟩
  · rw [Surface.isSign_eq_false_iff, Surface.signRuns_withoutRequestSigns, List.forall_mem_map]
    have hempty : Surface.withoutRequestSigns [] = [] ∧ [] ∉ Surface.canonicalSigns := by decide
    have hrequest : ∀ run ∈ Surface.requestSigns,
        Surface.withoutRequestSigns run = [] ∧ run ∉ Surface.canonicalSigns := by decide
    have hcanonical : ∀ run ∈ Surface.canonicalSigns, Surface.withoutRequestSigns run ≠ [] := by
      decide
    refine forall₂_congr fun run hmem => ?_
    rcases hruns run hmem with rfl | hin | hin
    · exact iff_of_true hempty.1 hempty.2
    · exact iff_of_true (hrequest run hin).1 (hrequest run hin).2
    · exact iff_of_false (hcanonical run hin) (not_not_intro hin)
  · intro word hword hoccurs
    have hletters : ∀ word ∈ [Token.not, .binary .and, .binary .or],
        word.spelling.all Surface.isAllowed = false := by decide
    have hallowed := (Surface.cuts_normalizeChars_of_cuts hcuts).1
    have hword' : word.spelling.all Surface.isAllowed = true :=
      List.all_eq_true.mpr fun c hc => hallowed c (hoccurs.subset hc)
    rw [hletters word hword] at hword'
    cases hword'

/-- The spellings of requests leave no sign, even if one of them contains the other. -/
theorem answer_signRuns_chain :
    ∃ t, answer "p<=>q=>p" = .ok t ∧
      Surface.signRuns "p<=>q=>p".toList = [[], ['<', '=', '>'], ['=', '>'], []] ∧
      ∀ c ∈ Surface.withoutRequestSigns "p<=>q=>p".toList, Surface.isSign c = false := by
  have hanswer : answer "p<=>q=>p" =
      .ok ⟨⟨[.p, .q], [⟨[true, true], true⟩, ⟨[true, false], true⟩, ⟨[false, true], true⟩,
        ⟨[false, false], false⟩]⟩, .contingency⟩ := sameOutcome_iff.mp (by decide)
  exact ⟨_, hanswer, by decide, (answer_signRuns hanswer).2.1.mpr (by decide)⟩

/-- The canonical spelling of the conditional is answered like the spelling of requests, but its
signs are none of theirs. -/
theorem answer_accepts_canonical_sign :
    ∃ t, answer "p <= q" = .ok t ∧ answer "p => q" = .ok t ∧
      '<' ∈ Surface.withoutRequestSigns "p <= q".toList ∧
      answer "p and q" = .error .invalidCharacterSet := by
  let conditional : ClassifiedTable := ⟨⟨[.p, .q], [⟨[true, true], true⟩, ⟨[true, false], false⟩,
    ⟨[false, true], true⟩, ⟨[false, false], true⟩]⟩, .contingency⟩
  refine ⟨conditional, sameOutcome_iff.mp ?_, sameOutcome_iff.mp ?_, ?_, ?_⟩
  · decide
  · decide
  · decide
  · rfl

end PropLogic
