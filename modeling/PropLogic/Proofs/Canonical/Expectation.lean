import PropLogic.Proofs.Canonical.Faults

/-!
# What a fault lists

A fault lists the tokens that would have fitted. Where an operand is due, these are all tokens with
which one begins. Behind a complete operand they are the connectives, and the closing parenthesis if
one is open. A closing parenthesis and the end of a text settle the phrase before them, whether they
fit or not, and then conjunction and disjunction are not listed although a formula could continue
with them. Apart from these two, the listed tokens are exactly those with which some formula
continues.
-/

namespace PropLogic

/-! ### What is due behind tokens -/

/-- Whether an operand is due behind the tokens `ts`. -/
def operandDue (ts : List Token) : Bool :=
  match ts.getLast? with
  | some .closeParen => false
  | some (.atom _) => false
  | _ => true

/-- Whether a parenthesis is open behind the tokens `ts`. -/
def parenOpen (ts : List Token) : Bool := ts.count .closeParen < ts.count .openParen

/-- The tokens that are listed behind `ts`. A phrase that is settled takes no connective that binds
tighter than the conditional. -/
def listing (ts : List Token) (settled : Bool) : List Token :=
  if operandDue ts then [.openParen, .not, .atom .p, .atom .q, .atom .r]
  else
    (if parenOpen ts then [.closeParen] else []) ++ [.binary .implies, .binary .iff] ++
      if settled then [] else [.binary .and, .binary .or]

private theorem listing_sublist (ts : List Token) (settled : Bool) :
    (listing ts settled).Sublist Token.all := by
  rw [listing]
  cases operandDue ts <;> cases parenOpen ts <;> cases settled <;> decide

private theorem listing_ne_nil (ts : List Token) (settled : Bool) : listing ts settled ≠ [] := by
  unfold listing
  split <;> simp

private theorem mem_listing_true {ts : List Token} {t : Token} :
    t ∈ listing ts true ↔
      t ∈ listing ts false ∧
        ¬ (operandDue ts = false ∧ (t = .binary .and ∨ t = .binary .or)) := by
  rw [listing, listing]
  cases operandDue ts with
  | true => simp
  | false =>
      rcases t with _ | _ | _ | op | v
      case binary => cases op <;> simp
      all_goals simp

private theorem operandDue_append_singleton (ts : List Token) (t : Token) :
    operandDue (ts ++ [t]) = operandDue [t] := by
  rw [operandDue, List.getLast?_concat]
  rfl

private theorem Phrase.operandDue_append {k : Nat} {us : List Token} {f : Formula} (h : Phrase k us f)
    (ts : List Token) : operandDue (ts ++ us) = false := by
  induction h generalizing ts with
  | atom v => exact operandDue_append_singleton ts _
  | @parenthesized us f _ _ =>
      rw [← List.append_assoc]
      exact operandDue_append_singleton _ _
  | @not us f _ ih =>
      rw [List.append_cons]
      exact ih _
  | @binary op us us' l r _ _ _ ih =>
      rw [← List.append_assoc, List.append_cons]
      exact ih _
  | relax _ ih => exact ih ts

private theorem Phrase.count_parens {k : Nat} {us : List Token} {f : Formula} (h : Phrase k us f) :
    us.count .openParen = us.count .closeParen := by
  have hopen : ∀ t : Token, (t.opens? == some true) = (t == .openParen) := by
    intro t
    cases t <;> rfl
  have hclose : ∀ t : Token, (t.opens? == some false) = (t == .closeParen) := by
    intro t
    cases t <;> rfl
  have hcount := h.count_opens
  simp only [List.count_filterMap, hopen, hclose] at hcount
  exact hcount

namespace ParseState

/-! ### What is due in a state -/

private theorem StackReads.count_parens {stack : List Pending} {ts : List Token}
    (h : StackReads stack ts) :
    ts.count .openParen = ts.count .closeParen + stack.count .paren := by
  induction h with
  | nil => rfl
  | paren _ ih =>
      simp [ih]
      omega
  | not _ ih => simp [ih]
  | binary _ _ hl ih =>
      have hphrase := hl.count_parens
      simp [ih, hphrase]
      omega

private theorem StackReads.operandDue {stack : List Pending} {ts : List Token}
    (h : StackReads stack ts) :
    operandDue ts = true := by
  cases h with
  | nil => rfl
  | paren => exact operandDue_append_singleton _ _
  | not => exact operandDue_append_singleton _ _
  | binary => exact operandDue_append_singleton _ _

private theorem Reads.parenOpen_of_phrase {stack : List Pending} {f : Formula} {level : Nat}
    {ts : List Token} (h : Reads (.phrase stack f level) ts) :
    parenOpen ts = decide (.paren ∈ stack) := by
  cases h with
  | @phrase stack ts us f level hs _ hf =>
      have hstack := hs.count_parens
      have hphrase := hf.count_parens
      rw [parenOpen, decide_eq_decide, ← List.count_pos_iff]
      simp only [List.count_append]
      omega

private theorem Reads.operandDue_of_phrase {stack : List Pending} {f : Formula} {level : Nat}
    {ts : List Token} (h : Reads (.phrase stack f level) ts) : operandDue ts = false := by
  cases h with
  | phrase _ _ hf => exact hf.operandDue_append _

private theorem level_of_run? {ts : List Token} {stack : List Pending} {f : Formula} {level : Nat}
    (hrun : start.run? ts = some (.phrase stack f level)) : level = atomLevel := by
  rcases List.eq_nil_or_concat ts with rfl | ⟨before, t, rfl⟩
  · cases hrun
  · rw [List.concat_eq_append, run?_append] at hrun
    obtain ⟨s, -, hlast⟩ := Option.bind_eq_some_iff.mp hrun
    have hstep : s.step? t = some (.phrase stack f level) := by simpa [run?_cons] using hlast
    cases s with
    | operand stack' =>
        cases t with
        | atom v =>
            cases hstep
            rfl
        | openParen => cases hstep
        | closeParen => cases hstep
        | not => cases hstep
        | binary op => cases hstep
    | phrase stack' g level' =>
        cases t with
        | closeParen =>
            rw [step?] at hstep
            split at hstep
            next =>
              cases hstep
              rfl
            next => cases hstep
        | binary op =>
            obtain ⟨_, _, _, _, _, h⟩ := step?_binary hstep
            cases h
        | openParen => cases hstep
        | not => cases hstep
        | atom v => cases hstep

/-! ### What is listed in a state -/

private theorem expected_operand (stack : List Pending) :
    (operand stack).expected = [.openParen, .not, .atom .p, .atom .q, .atom .r] := rfl

private theorem paren_mem_absorb (k : Nat) (stack : List Pending) (f : Formula) :
    .paren ∈ (absorb k stack f).1 ↔ .paren ∈ stack := by
  induction stack generalizing f with
  | nil => rfl
  | cons top stack ih =>
      cases top with
      | paren => rfl
      | not => simpa [absorb_not] using ih (.not f)
      | binary op l =>
          rw [absorb]
          split
          · simpa using ih (.binary op l f)
          · rfl

private theorem isSome_step?_closeParen (stack : List Pending) (f : Formula) (level : Nat) :
    ((phrase stack f level).step? .closeParen).isSome = decide (.paren ∈ stack) := by
  have hmem := paren_mem_absorb 0 stack f
  rcases absorb_zero_cases stack f with ⟨g, hg⟩ | ⟨rest, g, hg, -⟩
  · rw [hg] at hmem
    simpa [step?, hg] using hmem
  · rw [hg] at hmem
    simpa [step?, hg] using hmem

private theorem expected_phrase (stack : List Pending) (f : Formula) (level : Nat) :
    (phrase stack f level).expected =
      (if .paren ∈ stack then [.closeParen] else []) ++ [.binary .implies, .binary .iff] ++
        ((if 2 ≤ level then [.binary .and] else []) ++
          if 1 ≤ level then [.binary .or] else []) := by
  have hclose := isSome_step?_closeParen stack f level
  have hbinary : ∀ op : Connective,
      ((phrase stack f level).step? (.binary op)).isSome = decide (op.level ≤ level) := by
    intro op
    rw [step?]
    split <;> simp [*]
  have hother : ∀ t, t = .openParen ∨ t = .not ∨ (∃ v, t = .atom v) →
      ((phrase stack f level).step? t).isSome = false := by
    rintro t (rfl | rfl | ⟨v, rfl⟩) <;> rfl
  by_cases hparen : Pending.paren ∈ stack <;> by_cases htwo : 2 ≤ level <;>
    by_cases hone : 1 ≤ level <;>
    simp [expected, Token.all, hclose, hbinary, hother, Connective.level,
      hparen, htwo, hone]

private theorem expected_eq_listing {ts : List Token} {s : ParseState} (hrun : start.run? ts = some s) :
    s.expected = listing ts false := by
  have hreads : s.Reads ts := reads_start.run hrun
  cases s with
  | operand stack =>
      cases hreads with
      | operand hs => rw [expected_operand, listing, hs.operandDue, if_pos rfl]
  | phrase stack f level =>
      have hlevel := level_of_run? hrun
      subst hlevel
      rw [expected_phrase, listing, hreads.operandDue_of_phrase, hreads.parenOpen_of_phrase]
      simp [atomLevel]

private theorem expected_settle_eq_listing {ts : List Token} {s : ParseState}
    (hrun : start.run? ts = some s) : s.settle.expected = listing ts true := by
  have hreads : s.Reads ts := reads_start.run hrun
  cases s with
  | operand stack =>
      cases hreads with
      | operand hs => rw [settle, expected_operand, listing, hs.operandDue, if_pos rfl]
  | phrase stack f level =>
      rw [settle, expected_phrase, listing, hreads.operandDue_of_phrase,
        hreads.parenOpen_of_phrase]
      simp [paren_mem_absorb]

private theorem refusing_eq (s : ParseState) (t : Token) :
    s.refusing t = if t = .closeParen then s.settle else s := by
  cases t <;> rfl

end ParseState

/-! ### Faults of texts -/

/-- Whether the phrase before a fault is settled, where `found?` is the token that does not fit or
`none` at the end of a text. -/
def settles (found? : Option Token) : Bool := found?.all fun t => t == .closeParen

/-- The fault of a text with the given scan was found at `found?` behind the tokens `ts`, and it
lists the tokens `expected`. -/
inductive SyntaxFault.FoundBehind (scan : Text.Scan Token) :
    SyntaxFault → List Token → Option Token → List Token → Prop where
  | atToken {before after : List (Text.Lexeme Token)} {found : Text.Lexeme Token}
      {expected : List Token} :
      scan.lexemes = before ++ found :: after →
        FoundBehind scan (.unrecognizedToken found expected) (before.map Text.Lexeme.token)
          (some found.token) expected
  | atEnd {offset : Nat} {expected : List Token} :
      scan.stuckAt? = none →
        FoundBehind scan (.unrecognizedEnd offset expected)
          (scan.lexemes.map Text.Lexeme.token) none expected

theorem SyntaxFault.FoundBehind.detail {scan : Text.Scan Token} {fault : SyntaxFault}
    {ts : List Token} {found? : Option Token} {expected : List Token}
    (h : fault.FoundBehind scan ts found? expected) (hne : expected ≠ []) :
    ∃ head, fault.detail =
      head ++ ("\nExpected one of " ++ alternatives (expected.map fun t => s!"\"{t}\"")) := by
  cases expected with
  | nil => exact absurd rfl hne
  | cons t expected =>
      cases h with
      | atToken => exact ⟨_, rfl⟩
      | atEnd => exact ⟨_, rfl⟩

namespace ParseState

private theorem foundBehind_of_read_start {scan : Text.Scan Token} {fault : SyntaxFault}
    (hfault : start.read 0 scan.lexemes scan.stuckAt? = .error fault)
    (hne : scan.stuckAt? = none → scan.lexemes ≠ []) :
    (∃ offset, fault = .invalidToken offset) ∨
      ∃ ts found? s, start.run? ts = some s ∧
        fault.FoundBehind scan ts found? (listing ts (settles found?)) := by
  rcases read_error_cases hfault hne with
    ⟨before, found, after, s, hlexemes, hbefore, -, rfl⟩ | ⟨s, hrun, hrest⟩
  · refine Or.inr ⟨_, some found.token, s, hbefore, ?_⟩
    have hlisting : (s.refusing found.token).expected =
        listing (before.map Text.Lexeme.token) (settles (some found.token)) := by
      by_cases hclose : found.token = .closeParen
      · rw [refusing_eq, if_pos hclose, expected_settle_eq_listing hbefore, hclose]
        rfl
      · have hopen : settles (some found.token) = false := beq_eq_false_iff_ne.mpr hclose
        rw [refusing_eq, if_neg hclose, expected_eq_listing hbefore, hopen]
    rw [hlisting]
    exact .atToken hlexemes
  · rcases hrest with ⟨offset, -, rfl⟩ | ⟨before, last, hstuck, -, rfl⟩
    · exact Or.inl ⟨offset, rfl⟩
    · refine Or.inr ⟨_, none, s, hrun, ?_⟩
      rw [expected_settle_eq_listing hrun]
      exact .atEnd hstuck

end ParseState

/-- The listed tokens are those with which some formula continues, apart from conjunction and
disjunction behind an operand that a closing parenthesis or the end of the text has settled. -/
theorem mem_listing_iff {ts : List Token} {s : ParseState} (hrun : ParseState.start.run? ts = some s)
    {settled : Bool} {t : Token} :
    t ∈ listing ts settled ↔ IsViable (ts ++ [t]) ∧
      ¬ (settled = true ∧ operandDue ts = false ∧ (t = .binary .and ∨ t = .binary .or)) := by
  have hviable : t ∈ listing ts false ↔ IsViable (ts ++ [t]) := by
    rw [← ParseState.expected_eq_listing hrun, ParseState.mem_expected,
      isViable_append_singleton_iff hrun]
  cases settled with
  | false => simp [hviable]
  | true => simp [mem_listing_true, hviable]

namespace Formula

private theorem exists_isBlank_eq_false_of_invalidSyntax {text detail input : String}
    {position? : Option Nat} (h : parse text = .error (.invalidSyntax detail input position?)) :
    ∃ c ∈ text.toList, Text.isBlank c = false := by
  by_cases hblank : text.toList.all Text.isBlank = true
  · rw [parse_eq, if_pos hblank] at h
    cases h
  · simpa using hblank

/-- A text that stops being a formula at a token or at its end is reported with a list of tokens:
where an operand is due, those with which an operand begins; behind a complete operand, the closing
parenthesis if one is open, the conditional and the biconditional, and conjunction and disjunction
unless a closing parenthesis or the end of the text has settled the operand. Every listed token
continues some formula, and no other token does but conjunction and disjunction behind a settled
operand. -/
theorem parse_error_lists {text detail input : String} {position? : Option Nat}
    (herror : parse text = .error (.invalidSyntax detail input position?)) :
    ∃ (scan : Text.Scan Token) (fault : SyntaxFault),
      Token.lexicon.Lexes 0 text.toList scan ∧ fault.Locates scan ∧ detail = fault.detail ∧
      ((∃ offset, fault = .invalidToken offset) ∨
        ∃ ts found? expected, fault.FoundBehind scan ts found? expected ∧
          (∃ head, detail = head ++ ("\nExpected one of " ++
            SyntaxFault.alternatives (expected.map fun t => s!"\"{t}\""))) ∧
          expected = listing ts (settles found?) ∧ expected ≠ [] ∧ expected.Sublist Token.all ∧
          ∀ t, t ∈ expected ↔ IsViable (ts ++ [t]) ∧
            ¬ (settles found? = true ∧ operandDue ts = false ∧
              (t = .binary .and ∨ t = .binary .or))) := by
  have hlexes := Text.Lexicon.lexes_scan Token.lexicon_regular 0 text.toList
  have hblank := exists_isBlank_eq_false_of_invalidSyntax herror
  have hne := lexemes_ne_nil hlexes hblank
  obtain ⟨fault, hfault, heq⟩ := (parse_eq_error_iff hlexes hblank).mp herror
  cases heq
  refine ⟨_, fault, hlexes, ParseState.locates_of_read_start hfault hne, rfl, ?_⟩
  rcases ParseState.foundBehind_of_read_start hfault hne with hinvalid | ⟨ts, found?, s, hrun, hfound⟩
  · exact Or.inl hinvalid
  · have hlisting := listing_ne_nil ts (settles found?)
    exact Or.inr ⟨ts, found?, _, hfound, hfound.detail hlisting, rfl, hlisting,
      listing_sublist _ _, fun t => mem_listing_iff hrun⟩

/-- A second operand inside of an open parenthesis. -/
theorem parse_error_lists_juxtaposed :
    parse "(p q" = .error (.invalidSyntax
        "Unrecognized token `q` found at 3:4\nExpected one of \")\", \"<=\", \"==\", \"and\" or \"or\""
        "(p q" (some 3)) ∧
      ∃ (scan : Text.Scan Token) (fault : SyntaxFault) (ts : List Token) (found? : Option Token),
        Token.lexicon.Lexes 0 "(p q".toList scan ∧
        fault.FoundBehind scan ts found? (listing ts (settles found?)) ∧
        ∀ t ∈ listing ts (settles found?), IsViable (ts ++ [t]) := by
  have herror : parse "(p q" = .error (.invalidSyntax
      "Unrecognized token `q` found at 3:4\nExpected one of \")\", \"<=\", \"==\", \"and\" or \"or\""
      "(p q" (some 3)) := by rfl
  obtain ⟨scan, fault, hlexes, hlocates, -,
    ⟨offset, rfl⟩ | ⟨ts, found?, _, hfound, -, rfl, -, -, hmem⟩⟩ := parse_error_lists herror
  · -- the whole text has tokens, so no scan of it is stuck
    have hscan := hlexes.eq_scan Token.lexicon_regular
    cases hlocates with
    | invalidToken _ => cases congrArg Text.Scan.stuckAt? hscan
  · exact ⟨herror, scan, fault, ts, found?, hlexes, hfound, fun t ht => ((hmem t).mp ht).1⟩

/-- A formula can continue with a conjunction behind `(p`, but the list does not say so. -/
theorem parse_error_hides_conjunction :
    parse "(p" = .error (.invalidSyntax
        "Unrecognized EOF found at 2\nExpected one of \")\", \"<=\" or \"==\"" "(p" (some 2)) ∧
      Token.lexicon.Cuts "(p".toList [.openParen, .atom .p] ∧
      IsViable ([.openParen, .atom .p] ++ [.binary .and]) := by
  refine ⟨by rfl, ?_, ?_⟩
  · rw [Text.Lexicon.cuts_iff_scan Token.lexicon_regular 0]
    decide
  · exact isViable_iff_run?.mpr ⟨_, rfl⟩

end Formula

end PropLogic
