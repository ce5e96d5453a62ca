import Mathlib.Algebra.GroupWithZero.Nat
import Mathlib.Algebra.Order.BigOperators.Group.List
import Mathlib.Algebra.Order.Group.Nat
import PropLogic.Proofs.Canonical.Parsing
import PropLogic.Proofs.Formula.RoundTrip

/-!
# The parentheses of a formula

The texts that are read as a formula are those whose tokens are a rendering with enough pairs of
parentheses. Hence the renderings with no pair that is not needed are the shortest, and the display
of a formula exceeds them by one pair for each chained conditional.
-/

namespace PropLogic

def Token.displayed : Token → List Char
  | .openParen => ['(']
  | .closeParen => [')']
  | .not => ['¬']
  | .binary op => [' ', op.glyph, ' ']
  | .atom v => [v.letter]

namespace Formula

/-! ### The display -/

private theorem parenthesized_flatMap_displayed (b : Bool) (ts : List Token) :
    parenthesized b (ts.flatMap Token.displayed) =
      (parenthesizedTokens b ts).flatMap Token.displayed := by
  cases b <;> simp [parenthesized, parenthesizedTokens, Token.displayed]

private theorem displayed_eq_flatMap (f : Formula) :
    f.displayed = f.displayedTokens.flatMap Token.displayed := by
  induction f with
  | atom v => rfl
  | not f ih =>
      rw [displayed, ih, parenthesized_flatMap_displayed]
      rfl
  | binary op l r ihl ihr =>
      rw [displayed, ihl, ihr, parenthesized_flatMap_displayed, parenthesized_flatMap_displayed]
      simp [displayedTokens, Token.displayed]

private theorem toNat_picks_needsParentheses (f : Formula) (path : Path) :
    (f.picks needsParentheses path).toNat =
      if f.picks isChained path then 1 else f.need path := by
  have hsum := f.picks_toNat path
  have hle := Bool.toNat_le (f.picks needsParentheses path)
  cases hchained : f.picks isChained path with
  | false => simpa [hchained] using hsum
  | true =>
      rw [hchained, Bool.toNat_true] at hsum
      rw [if_pos rfl]
      omega

private theorem toList_toString (f : Formula) :
    (toString f).toList = (f.rendering fun path =>
      if f.picks isChained path then 1 else f.need path).flatMap Token.displayed := by
  have hdisplay : (toString f).toList = f.displayed := String.toList_ofList
  rw [hdisplay, displayed_eq_flatMap, displayedTokens_eq_rendering]
  simp only [toNat_picks_needsParentheses]

/-! ### The number of parentheses -/

private theorem count_opens_enclosed (b : Bool) (n : Nat) (ts : List Token) :
    ((enclosed n ts).filterMap Token.opens?).count b = n + (ts.filterMap Token.opens?).count b := by
  cases b <;> simp [enclosed, Token.opens?, List.filterMap_replicate, List.count_replicate,
    Nat.add_comm]

private theorem count_opens_rendering (b : Bool) (f : Formula) (pairs : Path → Nat) :
    ((f.rendering pairs).filterMap Token.opens?).count b = (f.nodes.map pairs).sum := by
  induction f generalizing pairs with
  | atom v => simp [rendering, nodes, count_opens_enclosed, List.filterMap_cons, Token.opens?]
  | not f ih =>
      rw [rendering, count_opens_enclosed, List.filterMap_cons_none rfl, ih, nodes, List.map_cons,
        List.sum_cons, List.map_map]
      rfl
  | binary op l r ihl ihr =>
      rw [rendering, count_opens_enclosed, List.filterMap_append, List.filterMap_cons_none rfl,
        List.count_append, ihl, ihr, nodes, List.map_cons, List.sum_cons, List.map_append,
        List.sum_append, List.map_map, List.map_map]
      rfl

private theorem count_paren_of_rendering {cs : List Char} {f : Formula} {pairs : Path → Nat}
    (h : cs.filterMap Surface.opens? = (f.rendering pairs).filterMap Token.opens?) {c : Char}
    (hc : c ∈ ['(', ')']) : cs.count c = (f.nodes.map pairs).sum := by
  obtain ⟨b, rfl⟩ : ∃ b : Bool, c = if b then '(' else ')' := by
    simp only [List.mem_cons, List.not_mem_nil, or_false] at hc
    rcases hc with rfl | rfl
    · exact ⟨true, rfl⟩
    · exact ⟨false, rfl⟩
  rw [← Surface.count_filterMap_opens?, h, count_opens_rendering]

/-! ### The fewest parentheses -/

/-- The number of pairs of parentheses that the nodes of a formula need. -/
def leastPairs (f : Formula) : Nat := (f.nodes.map f.need).sum

private theorem leastPairs_le {f : Formula} {pairs : Path → Nat} (h : f.Suffices pairs) :
    f.leastPairs ≤ (f.nodes.map pairs).sum :=
  List.sum_le_sum h

private theorem sum_map_add_toNat {α : Type} (g : α → Nat) (p : α → Bool) (xs : List α) :
    (xs.map fun x => g x + (p x).toNat).sum = (xs.map g).sum + xs.countP p := by
  induction xs with
  | nil => rfl
  | cons x xs ih =>
      rw [List.map_cons, List.sum_cons, ih, List.map_cons, List.sum_cons, List.countP_cons]
      cases p x <;> simp <;> omega

theorem count_toString (f : Formula) {c : Char} (hc : c ∈ ['(', ')']) :
    (toString f).toList.count c = f.leastPairs + f.nodes.countP (f.picks isChained) := by
  have hparens := Surface.filterMap_opens?_of_cuts f.cuts_toString
  rw [displayedTokens_eq_rendering] at hparens
  rw [count_paren_of_rendering hparens hc, leastPairs, ← sum_map_add_toNat]
  simp only [picks_toNat]

private theorem exists_text_of_leastPairs (f : Formula) :
    ∃ text : String, parse text = .ok f ∧
      ∀ c ∈ ['(', ')'], text.toList.count c = f.leastPairs := by
  let text := String.ofList ((f.rendering f.need).flatMap Token.spelling)
  have hcuts : Token.lexicon.Cuts text.toList (f.rendering f.need) := by
    rw [String.toList_ofList]
    exact Token.cuts_flatMap_spelling _
  have hf : Derives .expr (f.rendering f.need) f :=
    derives_iff_rendering.mpr ⟨f.need, fun _ _ => Nat.le_refl _, rfl⟩
  refine ⟨text, parse_eq_ok_iff.mpr ⟨_, hcuts, hf⟩, fun c hc => ?_⟩
  exact count_paren_of_rendering (Surface.filterMap_opens?_of_canonical_cuts hcuts) hc

/-- Replacing notations neither adds nor removes parentheses, so requests need as many as canonical
texts. -/
private theorem leastPairs_le_count {text : String} {f : Formula}
    (h : parse text = .ok f ∨ parse (Surface.normalize text) = .ok f) {c : Char}
    (hc : c ∈ ['(', ')']) : f.leastPairs ≤ text.toList.count c := by
  obtain ⟨ts, hparens, hf⟩ : ∃ ts,
      text.toList.filterMap Surface.opens? = ts.filterMap Token.opens? ∧ Derives .expr ts f := by
    rcases h with h | h
    · obtain ⟨ts, hcuts, hf⟩ := parse_eq_ok_iff.mp h
      exact ⟨ts, Surface.filterMap_opens?_of_canonical_cuts hcuts, hf⟩
    · obtain ⟨ts, hcuts, hf⟩ := parse_eq_ok_iff.mp h
      rw [Surface.toList_normalize] at hcuts
      exact ⟨ts, Surface.filterMap_opens?_of_cuts_normalizeChars hcuts, hf⟩
  obtain ⟨pairs, hpairs, rfl⟩ := derives_iff_rendering.mp hf
  rw [count_paren_of_rendering hparens hc]
  exact leastPairs_le hpairs

theorem parse_eq_ok_iff_rendering {text : String} {f : Formula} :
    parse text = .ok f ↔
      ∃ pairs, f.Suffices pairs ∧ Token.lexicon.Cuts text.toList (f.rendering pairs) := by
  rw [parse_eq_ok_iff]
  constructor
  · rintro ⟨ts, hcuts, hf⟩
    obtain ⟨pairs, hpairs, rfl⟩ := derives_iff_rendering.mp hf
    exact ⟨pairs, hpairs, hcuts⟩
  · rintro ⟨pairs, hpairs, hcuts⟩
    exact ⟨_, hcuts, derives_iff_rendering.mpr ⟨pairs, hpairs, rfl⟩⟩

/-- A text is read as a formula iff its tokens are a rendering in which every node has at least the
pairs of parentheses that it needs. The display has these pairs and one around each chained operand.
No text for the formula, canonical or in the notations of requests, has fewer parentheses than the
nodes need, some text has just as many, and the display has one pair more for each chained operand. -/
theorem parenthesization_exact (f : Formula) :
    (∀ text : String, parse text = .ok f ↔
      ∃ pairs : Path → Nat, (∀ path ∈ f.nodes, f.need path ≤ pairs path) ∧
        Token.lexicon.Cuts text.toList (f.rendering pairs)) ∧
    (toString f).toList = (f.rendering fun path =>
      if f.picks isChained path then 1 else f.need path).flatMap Token.displayed ∧
    (∃ text : String, parse text = .ok f ∧ ∀ c ∈ ['(', ')'], text.toList.count c = f.leastPairs) ∧
    (∀ text : String, parse text = .ok f ∨ parse (Surface.normalize text) = .ok f →
      ∀ c ∈ ['(', ')'], f.leastPairs ≤ text.toList.count c) ∧
    ∀ c ∈ ['(', ')'],
      (toString f).toList.count c = f.leastPairs + f.nodes.countP (f.picks isChained) := by
  have hread (text : String) : parse text = .ok f ↔
      ∃ pairs, f.Suffices pairs ∧ Token.lexicon.Cuts text.toList (f.rendering pairs) :=
    parse_eq_ok_iff_rendering
  have hleast : ∀ text : String, parse text = .ok f ∨ parse (Surface.normalize text) = .ok f →
      ∀ c ∈ ['(', ')'], f.leastPairs ≤ text.toList.count c :=
    fun text h c hc => leastPairs_le_count h hc
  exact ⟨hread, f.toList_toString, f.exists_text_of_leastPairs, hleast, fun c hc => f.count_toString hc⟩

/-- The display of a chain of conditionals has a pair of parentheses that is not needed, beside the
pair around a disjunction in a conjunction. -/
theorem parenthesization_exact_chain :
    let f := binary .implies (binary .implies (.atom .p) (.atom .q))
      (binary .or (.atom .p) (binary .and (.atom .r) (binary .or (.atom .p) (.atom .q))))
    parse "((p) <= q) <= p or r and (p or q)" = .ok f ∧
      (∃ pairs : Path → Nat, (∀ path ∈ f.nodes, f.need path ≤ pairs path) ∧
        Token.lexicon.Cuts "((p) <= q) <= p or r and (p or q)".toList (f.rendering pairs)) ∧
      parse "p <= q <= p or r and (p or q)" = .ok f ∧
      f.leastPairs ≤ "p <= q <= p or r and (p or q)".toList.count '(' ∧
      '(' ∈ ['(', ')'] ∧ (toString f).toList.count '(' = 1 + 1 := by
  intro f
  obtain ⟨hread, -, -, hleast, hdisplay⟩ := parenthesization_exact f
  have hbracketed : parse "((p) <= q) <= p or r and (p or q)" = .ok f :=
    sameOutcome_iff.mp (by decide)
  have hbare : parse "p <= q <= p or r and (p or q)" = .ok f := sameOutcome_iff.mp (by decide)
  have hpairs : f.leastPairs = 1 := by decide
  have hchained : f.nodes.countP (f.picks isChained) = 1 := by decide
  have hopen : '(' ∈ ['(', ')'] := by decide
  have hcount := hdisplay '(' hopen
  rw [hpairs, hchained] at hcount
  exact ⟨hbracketed, (hread _).mp hbracketed, hbare, hleast _ (.inl hbare) '(' hopen, hopen, hcount⟩

end Formula

end PropLogic
