import PropLogic.Proofs.Formula.Rendering
import PropLogic.Proofs.Request.Acceptance

/-!
# Displayed formulas are read back

The display of a formula is a request whose tokens derive the formula. It is a rendering: the
parentheses are placed by comparing levels, and every operand that needs a pair gets one. Hence a
displayed formula is answered with its own truth table, and no two formulas look alike.
-/

namespace PropLogic

namespace Formula

def parenthesizedTokens (b : Bool) (ts : List Token) : List Token :=
  if b then .openParen :: ts ++ [.closeParen] else ts

def displayedTokens : Formula → List Token
  | .atom v => [.atom v]
  | .not f =>
      .not :: parenthesizedTokens (needsParentheses f.level unaryLevel .left) f.displayedTokens
  | .binary op l r =>
      parenthesizedTokens (needsParentheses l.level op.level .left) l.displayedTokens ++
        .binary op ::
          parenthesizedTokens (needsParentheses r.level op.level .right) r.displayedTokens

/-! ### The display is a rendering -/

private theorem rendering_operand {f g : Formula} {side : Side} (h : f.operand? side = some g)
    (rule : Nat → Nat → Side → Bool) :
    g.rendering (fun path => (f.picks rule (side :: path)).toNat) =
      parenthesizedTokens (rule g.level f.level side)
        (g.rendering fun path => (g.picks rule path).toNat) := by
  cases hrule : rule g.level f.level side <;> cases g <;>
    simp [rendering, picks, h, hrule, enclosed, parenthesizedTokens]

theorem displayedTokens_eq_rendering (f : Formula) :
    f.displayedTokens = f.rendering fun path => (f.picks needsParentheses path).toNat := by
  induction f with
  | atom v => rfl
  | not f ih =>
      have hside : (Formula.not f).operand? .left = some f := rfl
      rw [rendering, rendering_operand hside, ← ih]
      exact (enclosed_zero _).symm
  | binary op l r ihl ihr =>
      have hleft : (binary op l r).operand? .left = some l := rfl
      have hright : (binary op l r).operand? .right = some r := rfl
      rw [rendering, rendering_operand hleft, rendering_operand hright, ← ihl, ← ihr]
      exact (enclosed_zero _).symm

/-! ### Tokens of the display -/

private theorem cuts_parenthesized {cs : List Char} {ts : List Token} (h : Surface.lexicon.Cuts cs ts)
    (b : Bool) : Surface.lexicon.Cuts (parenthesized b cs) (parenthesizedTokens b ts) := by
  cases b with
  | false => exact h
  | true => exact Surface.cuts_parenthesized h

theorem cuts_displayed (f : Formula) : Surface.lexicon.Cuts f.displayed f.displayedTokens := by
  induction f with
  | atom v =>
      have hmem : ([v.letter], Token.atom v) ∈ Surface.lexicon := by cases v <;> decide
      exact Surface.cuts_spelling_append hmem .nil
  | not f ih =>
      have hmem : (['¬'], Token.not) ∈ Surface.lexicon := by decide
      exact Surface.cuts_spelling_append hmem (cuts_parenthesized ih _)
  | binary op l r ihl ihr =>
      have hmem : ([op.glyph], Token.binary op) ∈ Surface.lexicon := by cases op <;> decide
      have hspace : Text.isBlank ' ' = true := by decide
      have hright := cuts_parenthesized ihr (needsParentheses r.level op.level .right)
      have hglyph : Surface.lexicon.Cuts (' ' :: op.glyph :: ' ' :: _) (.binary op :: _) :=
        .blank hspace (Surface.cuts_spelling_append hmem (.blank hspace hright))
      have hleft := cuts_parenthesized ihl (needsParentheses l.level op.level .left)
      simpa [displayed, displayedTokens] using Surface.cuts_append hleft hglyph

theorem cuts_toString (f : Formula) :
    Surface.lexicon.Cuts (toString f).toList f.displayedTokens := by
  have hdisplay : (toString f).toList = f.displayed := String.toList_ofList
  rw [hdisplay]
  exact f.cuts_displayed

theorem derives_toString (f : Formula) : Derives .expr f.displayedTokens f := by
  rw [displayedTokens_eq_rendering]
  have hpairs : f.Suffices fun path => (f.picks needsParentheses path).toNat := by
    intro path _
    simp only [picks_toNat]
    exact Nat.le_add_right _ _
  exact derives_iff_rendering.mpr ⟨_, hpairs, rfl⟩

private theorem parse_normalize_toString (f : Formula) :
    parse (Surface.normalize (toString f)) = .ok f :=
  parse_normalize_of_cuts f.cuts_toString f.derives_toString

/-- A displayed formula is read back as itself and answered with its own truth table, and formulas
that are displayed alike are equal. -/
theorem toString_round_trip :
    (∀ f : Formula, parse (Surface.normalize (toString f)) = .ok f ∧
      ∃ t, answer (toString f) = .ok t ∧ TruthTable.ofFormula f = .ok t.table) ∧
    ∀ f g : Formula, toString f = toString g → f = g := by
  constructor
  · intro f
    obtain ⟨c, -, hanswer⟩ := answer_of_cuts f.cuts_toString f.derives_toString
    exact ⟨f.parse_normalize_toString, _, hanswer, TruthTable.ofFormula_eq_ok f⟩
  · intro f g h
    have hparse := f.parse_normalize_toString
    rw [h, g.parse_normalize_toString] at hparse
    cases hparse
    rfl

/-- The brackets of a chain of conditionals are read back, and a disjunction has brackets as an
operand of a conjunction only. -/
theorem toString_round_trip_chain :
    let f := binary .implies (binary .implies (.atom .p) (.atom .q))
      (.binary .or (.not (.atom .r)) (.binary .and (.binary .or (.atom .p) (.atom .q)) (.atom .r)))
    toString f = "(p → q) → ¬r ∨ (p ∨ q) ∧ r" ∧
      parse (Surface.normalize "(p → q) → ¬r ∨ (p ∨ q) ∧ r") = .ok f ∧
      ∀ g : Formula, toString g = "(p → q) → ¬r ∨ (p ∨ q) ∧ r" → g = f := by
  intro f
  have hdisplay : toString f = "(p → q) → ¬r ∨ (p ∨ q) ∧ r" := by decide
  refine ⟨hdisplay, ?_, ?_⟩
  · rw [← hdisplay]
    exact (toString_round_trip.1 _).1
  · intro g hg
    exact toString_round_trip.2 _ _ (hg.trans hdisplay.symm)

end Formula

end PropLogic
