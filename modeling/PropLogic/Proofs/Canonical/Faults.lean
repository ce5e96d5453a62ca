import PropLogic.Proofs.Canonical.Parsing
import PropLogic.Proofs.Canonical.Viability

/-!
# Where texts stop being formulas

`SyntaxFault.Locates` says which fault a text has: its lexemes begin some formula up to a first
lexeme that does not fit, or up to a place where no token begins, or up to the end of the text. A
text that is not parsed is reported with the fault that it has. A token that does not fit is
reported whatever follows, and a text that ends too early can be continued to a formula.
-/

namespace PropLogic

/-- The fault of a text with the lexemes of a scan: the place where no formula continues any more. -/
inductive SyntaxFault.Locates : SyntaxFault → Text.Scan Token → Prop where
  | unrecognizedToken {before after : List (Text.Lexeme Token)} {found : Text.Lexeme Token}
      {stuckAt? : Option Nat} {expected : List Token} :
      IsViable (before.map Text.Lexeme.token) →
        ¬ IsViable (before.map Text.Lexeme.token ++ [found.token]) →
          (SyntaxFault.unrecognizedToken found expected).Locates ⟨before ++ found :: after, stuckAt?⟩
  | invalidToken {lexemes : List (Text.Lexeme Token)} {offset : Nat} :
      IsViable (lexemes.map Text.Lexeme.token) →
        (SyntaxFault.invalidToken offset).Locates ⟨lexemes, some offset⟩
  | unrecognizedEnd {before : List (Text.Lexeme Token)} {last : Text.Lexeme Token}
      {expected : List Token} :
      IsViable ((before ++ [last]).map Text.Lexeme.token) →
        (SyntaxFault.unrecognizedEnd last.stop expected).Locates ⟨before ++ [last], none⟩

namespace ParseState

/-! ### Reading the lexemes of a text -/

private theorem read_append {s s' : ParseState} {before : List (Text.Lexeme Token)}
    (hrun : s.run? (before.map Text.Lexeme.token) = some s') (stop : Nat)
    (after : List (Text.Lexeme Token)) (stuckAt? : Option Nat) :
    ∃ stop', s.read stop (before ++ after) stuckAt? = s'.read stop' after stuckAt? := by
  induction before generalizing s stop with
  | nil =>
      cases hrun
      exact ⟨stop, rfl⟩
  | cons lexeme before ih =>
      rw [List.map_cons, run?_cons] at hrun
      obtain ⟨next, hstep, hrest⟩ := Option.bind_eq_some_iff.mp hrun
      rw [List.cons_append, read, hstep]
      exact ih hrest _

theorem read_of_refused {s s' : ParseState} {before : List (Text.Lexeme Token)}
    {found : Text.Lexeme Token} (hrun : s.run? (before.map Text.Lexeme.token) = some s')
    (hrefused : s'.step? found.token = none) (stop : Nat) (after : List (Text.Lexeme Token))
    (stuckAt? : Option Nat) :
    s.read stop (before ++ found :: after) stuckAt? =
      .error (.unrecognizedToken found (s'.refusing found.token).expected) := by
  obtain ⟨stop', hread⟩ := read_append hrun stop (found :: after) stuckAt?
  rw [hread, read, hrefused]

private theorem read_of_stuck {s s' : ParseState} {lexemes : List (Text.Lexeme Token)}
    (hrun : s.run? (lexemes.map Text.Lexeme.token) = some s') (stop offset : Nat) :
    s.read stop lexemes (some offset) = .error (.invalidToken offset) := by
  obtain ⟨stop', hread⟩ := read_append hrun stop [] (some offset)
  rw [← List.append_nil lexemes, hread, read]

theorem stuckAt?_of_invalidToken {s : ParseState} {stop offset : Nat}
    {lexemes : List (Text.Lexeme Token)} {stuckAt? : Option Nat}
    (h : s.read stop lexemes stuckAt? = .error (.invalidToken offset)) : stuckAt? = some offset := by
  induction lexemes generalizing s stop with
  | nil =>
      cases stuckAt? with
      | some n =>
          cases h
          rfl
      | none =>
          rw [read] at h
          split at h <;> cases h
  | cons lexeme rest ih =>
      rw [read] at h
      split at h
      next => exact ih h
      next => cases h

theorem read_of_unfinished {s s' : ParseState} {before : List (Text.Lexeme Token)}
    {last : Text.Lexeme Token}
    (hrun : s.run? ((before ++ [last]).map Text.Lexeme.token) = some s')
    (hresult : s'.result? = none) (stop : Nat) :
    s.read stop (before ++ [last]) none = .error (.unrecognizedEnd last.stop s'.settle.expected) := by
  rw [List.map_append, run?_append] at hrun
  obtain ⟨next, hbefore, hlast⟩ := Option.bind_eq_some_iff.mp hrun
  obtain ⟨stop', hread⟩ := read_append hbefore stop [last] none
  have hstep : next.step? last.token = some s' := by
    simpa [run?_cons] using hlast
  rw [hread, read, hstep]
  simp only [read, hresult]

theorem exists_refused {s : ParseState} {lexemes : List (Text.Lexeme Token)}
    (hrun : s.run? (lexemes.map Text.Lexeme.token) = none) :
    ∃ before found after s', lexemes = before ++ found :: after ∧
      s.run? (before.map Text.Lexeme.token) = some s' ∧ s'.step? found.token = none := by
  induction lexemes generalizing s with
  | nil => cases hrun
  | cons lexeme rest ih =>
      cases hstep : s.step? lexeme.token with
      | none => exact ⟨[], lexeme, rest, s, rfl, rfl, hstep⟩
      | some next =>
          rw [List.map_cons, run?_cons, hstep, Option.bind_some] at hrun
          obtain ⟨before, found, after, s', rfl, hbefore, hrefused⟩ := ih hrun
          refine ⟨lexeme :: before, found, after, s', rfl, ?_, hrefused⟩
          rw [List.map_cons, run?_cons, hstep, Option.bind_some, hbefore]

/-- What an error of reading says: which lexeme was refused in which state, that all lexemes before
the stuck place can be read, or that all lexemes can be read and do not make a formula. -/
theorem read_error_cases {s : ParseState} {stop : Nat} {lexemes : List (Text.Lexeme Token)}
    {stuckAt? : Option Nat} {fault : SyntaxFault}
    (hfault : s.read stop lexemes stuckAt? = .error fault)
    (hne : stuckAt? = none → lexemes ≠ []) :
    (∃ before found after s', lexemes = before ++ found :: after ∧
      s.run? (before.map Text.Lexeme.token) = some s' ∧ s'.step? found.token = none ∧
      fault = .unrecognizedToken found (s'.refusing found.token).expected) ∨
    (∃ s', s.run? (lexemes.map Text.Lexeme.token) = some s' ∧
      ((∃ offset, stuckAt? = some offset ∧ fault = .invalidToken offset) ∨
        ∃ before last, stuckAt? = none ∧ lexemes = before ++ [last] ∧
          fault = .unrecognizedEnd last.stop s'.settle.expected)) := by
  cases hrun : s.run? (lexemes.map Text.Lexeme.token) with
  | none =>
      obtain ⟨before, found, after, s', rfl, hbefore, hrefused⟩ := exists_refused hrun
      rw [read_of_refused hbefore hrefused] at hfault
      cases hfault
      exact Or.inl ⟨before, found, after, s', rfl, hbefore, hrefused, rfl⟩
  | some s' =>
      refine Or.inr ⟨s', rfl, ?_⟩
      cases stuckAt? with
      | some offset =>
          rw [read_of_stuck hrun] at hfault
          cases hfault
          exact Or.inl ⟨offset, rfl, rfl⟩
      | none =>
          obtain ⟨before, last, rfl⟩ : ∃ before last, lexemes = before ++ [last] :=
            ⟨_, _, (List.dropLast_concat_getLast (hne rfl)).symm⟩
          cases hresult : s'.result? with
          | some f =>
              rw [read_eq_ok_iff.mpr ⟨rfl, s', hrun, hresult⟩] at hfault
              cases hfault
          | none =>
              rw [read_of_unfinished hrun hresult] at hfault
              cases hfault
              exact Or.inr ⟨before, last, rfl, rfl, rfl⟩

/-- A scan that is not read to a formula is reported with the fault that it has. -/
theorem locates_of_read_start {scan : Text.Scan Token} {fault : SyntaxFault}
    (hfault : start.read 0 scan.lexemes scan.stuckAt? = .error fault)
    (hne : scan.stuckAt? = none → scan.lexemes ≠ []) : fault.Locates scan := by
  obtain ⟨lexemes, stuckAt?⟩ := scan
  rcases read_error_cases hfault hne with
    ⟨before, found, after, s, rfl, hbefore, hrefused, rfl⟩ | ⟨s, hrun, hrest⟩
  · refine .unrecognizedToken (isViable_iff_run?.mpr ⟨s, hbefore⟩) ?_
    simp [isViable_append_singleton_iff hbefore, hrefused]
  · have hviable : IsViable (lexemes.map Text.Lexeme.token) := isViable_iff_run?.mpr ⟨s, hrun⟩
    rcases hrest with ⟨offset, rfl, rfl⟩ | ⟨before, last, rfl, rfl, rfl⟩
    · exact .invalidToken hviable
    · exact .unrecognizedEnd hviable

private theorem read_append_of_unrecognizedToken {s : ParseState} {stop : Nat}
    {lexemes lexemes' : List (Text.Lexeme Token)} {stuckAt? : Option Nat}
    {found : Text.Lexeme Token} {expected : List Token}
    (hfault : s.read stop lexemes stuckAt? = .error (.unrecognizedToken found expected))
    (hbegin : lexemes <+: lexemes') (stuckAt?' : Option Nat) :
    s.read stop lexemes' stuckAt?' = .error (.unrecognizedToken found expected) := by
  have hne : stuckAt? = none → lexemes ≠ [] := by
    rintro rfl rfl
    rw [read] at hfault
    split at hfault <;> cases hfault
  rcases read_error_cases hfault hne with
    ⟨before, found', after, s', rfl, hbefore, hrefused, heq⟩ |
      ⟨s', -, ⟨offset, -, heq⟩ | ⟨before, last, -, -, heq⟩⟩
  · cases heq
    obtain ⟨more, rfl⟩ := hbegin
    rw [List.append_assoc, List.cons_append]
    exact read_of_refused hbefore hrefused _ _ _
  · cases heq
  · cases heq

end ParseState

/-! ### Faults of texts -/

private theorem SyntaxFault.Locates.isBoundary {fault : SyntaxFault} {scan : Text.Scan Token}
    {cs : List Char} (h : fault.Locates scan) (hlexes : Token.lexicon.Lexes 0 cs scan) :
    Text.IsBoundary 0 cs fault.position := by
  obtain ⟨hlexemes, hstuck⟩ := hlexes.isBoundary
  cases h with
  | unrecognizedToken => exact (hlexemes _ (by simp)).1
  | invalidToken => exact hstuck _ rfl
  | unrecognizedEnd => exact (hlexemes _ (by simp)).2

namespace Formula

theorem lexemes_ne_nil {text : String} {scan : Text.Scan Token}
    (hlexes : Token.lexicon.Lexes 0 text.toList scan)
    (hblank : ∃ c ∈ text.toList, Text.isBlank c = false) (hstuck : scan.stuckAt? = none) :
    scan.lexemes ≠ [] := by
  intro hnil
  obtain ⟨lexemes, stuckAt?⟩ := scan
  cases hnil
  cases hstuck
  obtain ⟨c, hc, hcblank⟩ := hblank
  rw [hlexes.all_isBlank c hc] at hcblank
  cases hcblank

theorem parse_eq_error_iff {text : String} {scan : Text.Scan Token}
    (hlexes : Token.lexicon.Lexes 0 text.toList scan)
    (hblank : ∃ c ∈ text.toList, Text.isBlank c = false) {e : EvaluationError} :
    parse text = .error e ↔ ∃ fault, ofScan scan = .error fault ∧
      e = .invalidSyntax fault.detail text (some fault.position) := by
  have hnot : ¬ text.toList.all Text.isBlank = true := by simpa using hblank
  rw [parse_eq, if_neg hnot, Token.scan, ← hlexes.eq_scan Token.lexicon_regular]
  cases ofScan scan with
  | ok f => simp
  | error fault => simp [eq_comm]

private theorem parse_append_of_unrecognizedToken {text : String} {scan : Text.Scan Token}
    (hlexes : Token.lexicon.Lexes 0 text.toList scan)
    (hblank : ∃ c ∈ text.toList, Text.isBlank c = false)
    {found : Text.Lexeme Token} {expected : List Token}
    (hfault : ofScan scan = .error (.unrecognizedToken found expected)) (more : String) :
    parse (text ++ more) = .error (.invalidSyntax
      (SyntaxFault.unrecognizedToken found expected).detail (text ++ more) (some found.start)) := by
  obtain ⟨scan', hlexes', hbegin⟩ := hlexes.exists_append Token.lexicon_regular
    Token.lexicon_prefixFree more.toList
  rw [← String.toList_append] at hlexes'
  have hblank' : ∃ c ∈ (text ++ more).toList, Text.isBlank c = false := by
    obtain ⟨c, hc, hcblank⟩ := hblank
    exact ⟨c, by simp [hc], hcblank⟩
  have hread : ofScan scan' = .error (.unrecognizedToken found expected) :=
    ParseState.read_append_of_unrecognizedToken hfault hbegin _
  exact (parse_eq_error_iff hlexes' hblank').mpr ⟨_, hread, rfl⟩

private theorem exists_parse_append_of_viable {text : String} {scan : Text.Scan Token}
    (hlexes : Token.lexicon.Lexes 0 text.toList scan) (hstuck : scan.stuckAt? = none)
    (hviable : IsViable (scan.lexemes.map Text.Lexeme.token)) :
    ∃ (more : String) (f : Formula), parse (text ++ more) = .ok f := by
  obtain ⟨us, f, hf⟩ := hviable
  refine ⟨String.ofList (us.flatMap Token.spelling), f, parse_eq_ok_iff.mpr ⟨_, ?_, hf⟩⟩
  rw [String.toList_append, String.toList_ofList]
  exact (hlexes.cuts hstuck).append Token.lexicon_prefixFree (Token.cuts_flatMap_spelling us)

/-- A text that is not blank and is no formula is reported with the fault of the lexemes that it
has. The fault lies between two characters or at an end of the text. If a token does not fit, every
longer text is reported in the same way, and if the text ends too early, some longer text is a
formula. -/
theorem parse_error_locates {text : String} {e : EvaluationError}
    (hblank : ∃ c ∈ text.toList, Text.isBlank c = false) (herror : parse text = .error e) :
    ∃ (scan : Text.Scan Token) (fault : SyntaxFault),
      Token.lexicon.Lexes 0 text.toList scan ∧ fault.Locates scan ∧
      e = .invalidSyntax fault.detail text (some fault.position) ∧
      fault.position ≤ text.utf8ByteSize ∧
      (∃ before after : String, text = before ++ after ∧ before.utf8ByteSize = fault.position) ∧
      (∀ found expected, fault = .unrecognizedToken found expected → ∀ more : String,
        parse (text ++ more) =
          .error (.invalidSyntax fault.detail (text ++ more) (some fault.position))) ∧
      ∀ offset expected, fault = .unrecognizedEnd offset expected →
        ∃ (more : String) (f : Formula), parse (text ++ more) = .ok f := by
  have hlexes := Text.Lexicon.lexes_scan Token.lexicon_regular 0 text.toList
  obtain ⟨fault, hfault, rfl⟩ := (parse_eq_error_iff hlexes hblank).mp herror
  have hlocates := ParseState.locates_of_read_start hfault (lexemes_ne_nil hlexes hblank)
  obtain ⟨before, after, htext, hsize⟩ :=
    Text.exists_append_of_isBoundary (hlocates.isBoundary hlexes)
  refine ⟨_, fault, hlexes, hlocates, rfl, ?_, ⟨before, after, htext, hsize⟩, ?_, ?_⟩
  · rw [← hsize, htext, String.utf8ByteSize_append]
    exact Nat.le_add_right _ _
  · rintro found expected rfl more
    exact parse_append_of_unrecognizedToken hlexes hblank hfault more
  · rintro offset expected rfl
    generalize Token.lexicon.scan 0 text.toList = scan at hlexes hlocates
    cases hlocates with
    | unrecognizedEnd hviable => exact exists_parse_append_of_viable hlexes rfl hviable

/-- A parenthesis that closes nothing is reported before the `<` behind it, and its place counts the
three bytes of the space before it. -/
theorem parse_error_locates_surplus :
    (∃ c ∈ "p\u3000) <".toList, Text.isBlank c = false) ∧
      ∃ (scan : Text.Scan Token) (fault : SyntaxFault),
        Token.lexicon.Lexes 0 "p\u3000) <".toList scan ∧ fault.Locates scan ∧
        parse "p\u3000) <" = .error (.invalidSyntax fault.detail "p\u3000) <" (some 4)) ∧
        fault.position = 4 := by
  have hblank : ∃ c ∈ "p\u3000) <".toList, Text.isBlank c = false := ⟨'p', by decide, by decide⟩
  have hscan : ofScan (Token.scan "p\u3000) <") =
      .error (.unrecognizedToken ⟨.closeParen, 4, 5⟩ [.binary .implies, .binary .iff]) := by rfl
  have herror : parse "p\u3000) <" = .error (.invalidSyntax
      (SyntaxFault.unrecognizedToken ⟨.closeParen, 4, 5⟩ [.binary .implies, .binary .iff]).detail
      "p\u3000) <" (some 4)) := by
    rw [parse_eq, if_neg (by decide), hscan]
    rfl
  obtain ⟨scan, fault, hlexes, hlocates, heq, -⟩ := parse_error_locates hblank herror
  have hposition : 4 = fault.position := by
    injection heq with _ _ hposition
    exact Option.some.inj hposition
  refine ⟨hblank, scan, fault, hlexes, hlocates, ?_, hposition.symm⟩
  rw [herror, heq, ← hposition]

end Formula

end PropLogic
