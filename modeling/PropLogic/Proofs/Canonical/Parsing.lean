import PropLogic.Canonical.Parser
import PropLogic.Proofs.Canonical.Reading
import PropLogic.Proofs.Text.Cutting
import PropLogic.Proofs.Text.Joining

/-!
# Parsing canonical texts

No canonical token begins another one, so the tokens of a canonical text need no separators. A text
is parsed to a formula exactly if it can be cut into tokens that derive the formula.
-/

namespace PropLogic

namespace Token

theorem mem_lexicon {e : List Char × Token} : e ∈ lexicon ↔ e = (e.2.spelling, e.2) := by
  obtain ⟨w, t⟩ := e
  simp only [lexicon, List.mem_map, Prod.mk.injEq, and_true]
  constructor
  · rintro ⟨t', _, rfl, rfl⟩
    rfl
  · rintro rfl
    exact ⟨t, mem_all t, rfl, rfl⟩

theorem lexicon_regular : lexicon.Regular := ⟨by decide, by decide⟩

theorem eq_of_spelling_fits {t u : Token} (h : t.spelling <+: u.spelling) : t = u := by
  have hall : ∀ t ∈ all, ∀ u ∈ all, t.spelling <+: u.spelling → t = u := by decide
  exact hall t (mem_all t) u (mem_all u) h

theorem lexicon_prefixFree : lexicon.PrefixFree := by
  intro e he e' he' hfits
  rw [mem_lexicon.mp he, mem_lexicon.mp he'] at hfits ⊢
  rw [eq_of_spelling_fits hfits]

theorem lexicon_solid : lexicon.Solid := by
  have hnone : ∀ t ∈ all, t.spelling.any Text.isBlank = false := by decide
  intro e he c hc
  rw [mem_lexicon.mp he] at hc
  exact Bool.eq_false_iff.mpr (List.any_eq_false.mp (hnone e.2 (mem_all e.2)) c hc)

theorem isLongest_spelling (t : Token) (rest : List Char) :
    lexicon.IsLongest (t.spelling, t) (t.spelling ++ rest) :=
  lexicon_prefixFree.isLongest_append (mem_lexicon.mpr rfl) rest

theorem cuts_spelling_append {t : Token} {rest : List Char} {ts : List Token} :
    lexicon.Cuts (t.spelling ++ rest) ts ↔ ∃ us, ts = t :: us ∧ lexicon.Cuts rest us :=
  Text.Lexicon.cuts_append_iff lexicon_regular (isLongest_spelling t rest)

theorem cuts_flatMap_spelling (ts : List Token) :
    lexicon.Cuts (ts.flatMap spelling) ts := by
  induction ts with
  | nil => exact .nil
  | cons t ts ih => exact .token (isLongest_spelling t _) ih

end Token

private theorem eq_nil_of_cuts_of_blank {cs : List Char} (hblank : ∀ c ∈ cs, Text.isBlank c = true)
    {ts : List Token} (h : Token.lexicon.Cuts cs ts) : ts = [] := by
  induction cs with
  | nil => exact (Text.Lexicon.cuts_nil_iff Token.lexicon_regular).mp h
  | cons c cs ih =>
      have hc := hblank c List.mem_cons_self
      have hcs : ∀ d ∈ cs, Text.isBlank d = true := fun d hd => hblank d (List.mem_cons_of_mem _ hd)
      exact ih hcs ((Text.Lexicon.cuts_cons_of_isBlank Token.lexicon_regular hc).mp h)

namespace Formula

theorem ofScan_eq_ok_iff {text : String} {f : Formula} :
    ofScan (Token.scan text) = .ok f ↔
      ∃ ts, Token.lexicon.Cuts text.toList ts ∧ Derives .expr ts f := by
  rw [ofScan, ParseState.read_eq_ok_iff, ParseState.exists_run?_iff_derives]
  constructor
  · rintro ⟨hstuck, hderives⟩
    have hcuts := (Text.Lexicon.cuts_iff_scan Token.lexicon_regular 0).mpr ⟨hstuck, rfl⟩
    exact ⟨_, hcuts, hderives⟩
  · rintro ⟨ts, hcuts, hderives⟩
    obtain ⟨hstuck, rfl⟩ := (Text.Lexicon.cuts_iff_scan Token.lexicon_regular 0).mp hcuts
    exact ⟨hstuck, hderives⟩

/-- A text is parsed to the formula that its tokens derive. -/
theorem parse_eq_ok_iff {text : String} {f : Formula} :
    parse text = .ok f ↔ ∃ ts, Token.lexicon.Cuts text.toList ts ∧ Derives .expr ts f := by
  rw [← ofScan_eq_ok_iff, parse_eq]
  split
  next hblank =>
    -- a blank text has no token, and the grammar derives nothing from no token
    constructor
    · intro h
      cases h
    · intro h
      obtain ⟨ts, hcuts, hderives⟩ := ofScan_eq_ok_iff.mp h
      have hall : ∀ c ∈ text.toList, Text.isBlank c = true := List.all_eq_true.mp hblank
      exact absurd (eq_nil_of_cuts_of_blank hall hcuts) hderives.phrase.ne_nil
  next =>
    cases ofScan (Token.scan text) with
    | ok g => simp
    | error fault => simp

/-- The parser accepts the sentences of the grammar and nothing else, and the grammar is
unambiguous: a text is parsed to a formula exactly if it can be cut into tokens that derive the
formula, and no token sequence derives two formulas. -/
theorem parse_accepts_unambiguous_grammar :
    (∀ (text : String) (f : Formula),
      parse text = .ok f ↔ ∃ ts, Token.lexicon.Cuts text.toList ts ∧ Derives .expr ts f) ∧
    ∀ (ts : List Token) (f g : Formula), Derives .expr ts f → Derives .expr ts g → f = g :=
  ⟨fun _ _ => parse_eq_ok_iff, fun _ _ _ => Derives.unique⟩

/-- Negation binds tightest, then come conjunction, disjunction and the conditional, which needs no
separators. The tokens derive no other formula. -/
theorem parse_accepts_unambiguous_grammar_conditional :
    let f := binary .implies (.atom .p)
      (.binary .or (.atom .q) (.binary .and (.atom .r) (.not (.atom .p))))
    parse "p<=q or r and not p" = .ok f ∧
      ∀ g, Derives .expr [.atom .p, .binary .implies, .atom .q, .binary .or, .atom .r, .binary .and,
        .not, .atom .p] g → f = g := by
  intro f
  have hp : Derives .expr [.atom .p] (.atom .p) := .expr_of_atom (.atom .p)
  have hq : Derives .disjunction [.atom .q] (.atom .q) :=
    .ofConjunction (.ofNegation (.ofAtom (.atom .q)))
  have hand : Derives .conjunction [.atom .r, .binary .and, .not, .atom .p]
      (.binary .and (.atom .r) (.not (.atom .p))) :=
    .and (.ofNegation (.ofAtom (.atom .r))) (.not (.ofAtom (.atom .p)))
  have hformula : Derives .expr [.atom .p, .binary .implies, .atom .q, .binary .or, .atom .r,
      .binary .and, .not, .atom .p] f := .implies hp (.or hq hand)
  refine ⟨?_, fun g hg => parse_accepts_unambiguous_grammar.2 _ _ g hformula hg⟩
  apply (parse_accepts_unambiguous_grammar.1 _ _).mpr
  refine ⟨_, ?_, hformula⟩
  rw [Text.Lexicon.cuts_iff_scan Token.lexicon_regular 0]
  decide

end Formula

end PropLogic
