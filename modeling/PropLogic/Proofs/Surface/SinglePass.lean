import PropLogic.Proofs.Surface.Rewriting
import PropLogic.Proofs.Text.Scanning

/-!
# Rewriting in one pass

The replacements run over the whole text one after the other. The result is that of a single pass
from left to right, in which the longest operator spelling at each place is replaced. No replacement
comes across what another one has put in, so a rewritten text is not changed by another rewriting.
-/

namespace PropLogic.Surface

/-! ### The pieces of a text -/

/-- The operator spellings of requests with their canonical texts. -/
def operators : Text.Lexicon String :=
  [(['<', '=', '>'], " == "), (['=', '>'], " <= "), (['¬'], " not "), (['!'], " not "),
   (['∧'], " and "), (['&'], " and "), (['∨'], " or "), (['|'], " or "), (['→'], " <= "),
   (['↔'], " == ")]

/-- A piece of a text: an operator spelling with its canonical text, or a single character. -/
inductive Piece where
  | kept (c : Char)
  | operator (spelling : List Char) (canonical : String)
  deriving DecidableEq, Repr

namespace Piece

def source : Piece → List Char
  | .kept c => [c]
  | .operator spelling _ => spelling

def rewritten : Piece → List Char
  | .kept c => [c]
  | .operator _ canonical => canonical.toList

def kept? : Piece → Option Char
  | .kept c => some c
  | .operator .. => none

end Piece

/-- The pieces of a text after its first `skip` characters, which belong to an operator that is
already found. -/
def piecesAfter (skip : Nat) : List Char → List Piece
  | [] => []
  | c :: rest =>
      match skip with
      | k + 1 => piecesAfter k rest
      | 0 =>
          match operators.longest? (c :: rest) with
          | some (spelling, canonical) =>
              .operator spelling canonical :: piecesAfter (spelling.length - 1) rest
          | none => .kept c :: piecesAfter 0 rest

/-- The pieces of a text. From left to right, the longest operator spelling at a place is a piece,
and where there is none the next character is. -/
def pieces (cs : List Char) : List Piece := piecesAfter 0 cs

private theorem piecesAfter_eq_pieces_drop (skip : Nat) (cs : List Char) :
    piecesAfter skip cs = pieces (cs.drop skip) := by
  induction cs generalizing skip with
  | nil => simp [pieces, piecesAfter]
  | cons c rest ih =>
      cases skip with
      | zero => rfl
      | succ k => simpa [piecesAfter] using ih k

private theorem operators_regular : operators.Regular := ⟨by decide, by decide⟩

/-- The replacements are those of the operator spellings, with a space on both sides of the token. -/
theorem operators_eq :
    operators = replacements.map fun w => (w.spelling, String.ofList w.padded) := by
  decide

private theorem mem_operators {w : Replacement} (hw : w ∈ replacements) :
    (w.spelling, String.ofList w.padded) ∈ operators := by
  rw [operators_eq]
  exact List.mem_map_of_mem hw

private theorem pieces_cons {c : Char} {rest : List Char}
    (h : ∀ w ∈ replacements, ¬ w.spelling <+: c :: rest) :
    pieces (c :: rest) = .kept c :: pieces rest := by
  have hnone : operators.longest? (c :: rest) = none := by
    rw [Text.Lexicon.longest?_eq_none_iff, operators_eq, List.forall_mem_map]
    exact h
  simp [pieces, piecesAfter, hnone]

private theorem pieces_spelling_append {w : Replacement} (hw : w ∈ replacements) (rest : List Char) :
    pieces (w.spelling ++ rest) =
      .operator w.spelling (String.ofList w.padded) :: pieces rest := by
  have hmax : ∀ w ∈ replacements, ∀ e ∈ operators, w.spelling <+: e.1 →
      e.1.length ≤ w.spelling.length := by decide
  have hlongest : operators.IsLongest (w.spelling, String.ofList w.padded) (w.spelling ++ rest) :=
    Text.Lexicon.isLongest_append (mem_operators hw) (hmax w hw) rest
  have hfound := (Text.Lexicon.longest?_eq_some_iff operators_regular).mpr hlongest
  cases hspelling : w.spelling with
  | nil => exact absurd hspelling (replacements_ne_nil w hw)
  | cons c tail =>
      rw [hspelling, List.cons_append] at hfound
      have hdrop : (tail ++ rest).drop ((c :: tail).length - 1) = rest := by simp
      rw [List.cons_append, pieces, piecesAfter]
      simp only [hfound]
      rw [piecesAfter_eq_pieces_drop, hdrop]

theorem Rewritten.flatMap_pieces {cs ds : List Char} (h : Rewritten cs ds) :
    (pieces cs).flatMap Piece.source = cs ∧ (pieces cs).flatMap Piece.rewritten = ds := by
  induction h with
  | nil => exact ⟨rfl, rfl⟩
  | keep hkeep _ ih =>
      rw [pieces_cons hkeep, List.flatMap_cons, List.flatMap_cons, ih.1, ih.2]
      exact ⟨rfl, rfl⟩
  | spelling hw _ ih =>
      rw [pieces_spelling_append hw, List.flatMap_cons, List.flatMap_cons, ih.1, ih.2]
      exact ⟨rfl, congrArg (· ++ _) String.toList_ofList⟩

/-! ### Replacements leave inserted text alone -/

/-- A character of a text that is being rewritten, and whether a replacement has put it in. -/
structure Traced where
  char : Char
  inserted : Bool
  deriving DecidableEq, Repr

def traced (inserted : Bool) (cs : List Char) : List Traced := cs.map fun c => ⟨c, inserted⟩

private theorem map_char_traced (inserted : Bool) (cs : List Char) :
    (traced inserted cs).map Traced.char = cs := by
  rw [traced, List.map_map]
  exact List.map_id cs

namespace Replacement

/-- The second text is the first one after the replacement `w`, and none of the characters that `w`
has replaced was put in before. -/
inductive Acts (w : Replacement) : List Traced → List Traced → Prop where
  | nil : w.Acts [] []
  | keep {x : Traced} {xs ys : List Traced} :
      ¬ w.spelling <+: (x :: xs).map Traced.char → w.Acts xs ys → w.Acts (x :: xs) (x :: ys)
  | replace {xs ys : List Traced} :
      w.Acts xs ys → w.Acts (traced false w.spelling ++ xs) (traced true w.padded ++ ys)

/-- The replacements `ws`, one after the other, lead from the first text to the second. -/
inductive ActInTurn : List Replacement → List Traced → List Traced → Prop where
  | nil {xs : List Traced} : ActInTurn [] xs xs
  | cons {w : Replacement} {ws : List Replacement} {xs ys zs : List Traced} :
      w.Acts xs ys → ActInTurn ws ys zs → ActInTurn (w :: ws) xs zs

theorem Acts.run {w : Replacement} (hw : w.spelling ≠ []) {xs ys : List Traced}
    (h : w.Acts xs ys) : ys.map Traced.char = w.run (xs.map Traced.char) := by
  induction h with
  | nil => rfl
  | keep hkeep _ ih =>
      rw [List.map_cons] at hkeep ⊢
      rw [ih, List.map_cons]
      exact (Text.replaceAll_cons_of_not_fits hkeep).symm
  | replace _ ih =>
      rw [List.map_append, List.map_append, map_char_traced, map_char_traced, ih]
      exact (Text.replaceAll_self_append hw _).symm

theorem ActInTurn.run {ws : List Replacement} (hws : ∀ w ∈ ws, w.spelling ≠ [])
    {xs ys : List Traced} (h : ActInTurn ws xs ys) :
    ys.map Traced.char = runAll ws (xs.map Traced.char) := by
  induction h with
  | nil => rfl
  | cons hacts _ ih =>
      rw [runAll_cons, ← hacts.run (hws _ List.mem_cons_self)]
      exact ih fun w hw => hws w (List.mem_cons_of_mem _ hw)

private theorem Acts.append_of_misses {w : Replacement} {piece : List Char}
    (h : Text.misses w.spelling piece = true) (inserted : Bool) {xs ys : List Traced}
    (hacts : w.Acts xs ys) : w.Acts (traced inserted piece ++ xs) (traced inserted piece ++ ys) := by
  induction piece with
  | nil => exact hacts
  | cons c piece ih =>
      refine .keep ?_ (ih (Text.misses_tail h))
      have hkeep := Text.not_fits_append_of_misses h (xs.map Traced.char)
      rw [← map_char_traced inserted piece, ← List.map_append] at hkeep
      exact hkeep

end Replacement

/-- A piece once the spellings `done` are replaced. -/
def Piece.after (done : List (List Char)) : Piece → List Traced
  | .kept c => traced false [c]
  | .operator spelling canonical =>
      if spelling ∈ done then traced true canonical.toList else traced false spelling

/-- A text once the replacements `done` are carried out. -/
def textAfter (done : List Replacement) (cs : List Char) : List Traced :=
  (pieces cs).flatMap (Piece.after (done.map Replacement.spelling))

private theorem textAfter_cons (done : List Replacement) {c : Char} {rest : List Char}
    (h : ∀ w ∈ replacements, ¬ w.spelling <+: c :: rest) :
    textAfter done (c :: rest) = ⟨c, false⟩ :: textAfter done rest := by
  rw [textAfter, pieces_cons h]
  rfl

private theorem textAfter_spelling_append (done : List Replacement) {w : Replacement}
    (hw : w ∈ replacements) (rest : List Char) :
    textAfter done (w.spelling ++ rest) =
      (if w.spelling ∈ done.map Replacement.spelling then traced true w.padded
        else traced false w.spelling) ++ textAfter done rest := by
  rw [textAfter, pieces_spelling_append hw, List.flatMap_cons, Piece.after, String.toList_ofList]
  rfl

private theorem textAfter_nil (cs : List Char) : textAfter [] cs = traced false cs := by
  have hpiece : Piece.after [] = fun piece => traced false piece.source := by
    funext piece
    cases piece <;> rfl
  calc textAfter [] cs
      = traced false ((pieces cs).flatMap Piece.source) := by
        simp [textAfter, hpiece, traced, List.map_flatMap]
    _ = traced false cs := by rw [(rewritten_normalizeChars cs).flatMap_pieces.1]

/-- When the turn of `w` comes, an operator is in place already, or it is its own, or it is still to
come. In the first case and in the last one `w` leaves it alone. -/
private theorem turn_cases {done later : List Replacement} {w : Replacement}
    (hsplit : replacements = done ++ w :: later) {u : Replacement} (hu : u ∈ replacements) :
    (u.spelling ∈ done.map Replacement.spelling ∧ Text.misses w.spelling u.padded = true) ∨
      (u = w ∧ u.spelling ∉ done.map Replacement.spelling) ∨
      (u.spelling ∉ (done ++ [w]).map Replacement.spelling ∧
        Text.misses w.spelling u.spelling = true) := by
  have hindependent := replacements_independent
  have hnodup : (replacements.map Replacement.spelling).Nodup := by decide
  rw [hsplit] at hindependent hnodup hu
  rw [List.pairwise_append, List.pairwise_cons] at hindependent
  obtain ⟨-, ⟨hlater, -⟩, hearlier⟩ := hindependent
  rw [List.map_append, List.map_cons] at hnodup
  obtain ⟨-, hrest, hdisjoint⟩ := List.nodup_append.mp hnodup
  rcases List.mem_append.mp hu with hmem | hmem
  · exact Or.inl ⟨List.mem_map_of_mem hmem, (hearlier u hmem w List.mem_cons_self).after⟩
  have hfresh : u.spelling ∉ done.map Replacement.spelling :=
    fun hdone => hdisjoint _ hdone _ (List.mem_map_of_mem hmem) rfl
  rcases List.mem_cons.mp hmem with heq | hmem
  · exact Or.inr (Or.inl ⟨heq, hfresh⟩)
  · have hother : u.spelling ≠ w.spelling :=
      fun heq => (List.nodup_cons.mp hrest).1 (heq ▸ List.mem_map_of_mem hmem)
    refine Or.inr (Or.inr ⟨?_, (hlater u hmem).before⟩)
    rw [List.map_append, List.mem_append, List.map_singleton, List.mem_singleton]
    exact fun h => h.elim hfresh hother

/-- When its turn comes, a replacement finds its spelling in its own pieces and nowhere else. -/
private theorem acts_textAfter {done later : List Replacement} {w : Replacement}
    (hsplit : replacements = done ++ w :: later)
    (hdone : ∀ cs, (textAfter done cs).map Traced.char = Replacement.runAll done cs)
    {cs ds : List Char} (h : Rewritten cs ds) :
    w.Acts (textAfter done cs) (textAfter (done ++ [w]) cs) := by
  induction h with
  | nil => exact .nil
  | @keep c cs ds hkeep _ ih =>
      rw [textAfter_cons done hkeep, textAfter_cons _ hkeep]
      refine .keep ?_ ih
      rw [← textAfter_cons done hkeep, hdone]
      intro hfits
      have hw : w ∈ replacements := by simp [hsplit]
      exact hkeep w hw (Replacement.fits_of_fits_runAll (space_not_mem_replacements w hw) hfits)
  | @spelling u cs ds hu _ ih =>
      rw [textAfter_spelling_append _ hu, textAfter_spelling_append _ hu]
      rw [List.map_append, List.map_singleton]
      rcases turn_cases hsplit hu with ⟨hmem, hmiss⟩ | ⟨rfl, hfresh⟩ | ⟨hfresh, hmiss⟩
      · rw [if_pos hmem, if_pos (List.mem_append_left _ hmem)]
        exact ih.append_of_misses hmiss true
      · rw [if_neg hfresh, if_pos (List.mem_append_right _ List.mem_cons_self)]
        exact .replace ih
      · rw [List.map_append, List.map_singleton] at hfresh
        rw [if_neg fun hmem => hfresh (List.mem_append_left _ hmem), if_neg hfresh]
        exact ih.append_of_misses hmiss false

private theorem actInTurn_textAfter {done later : List Replacement}
    (hsplit : replacements = done ++ later)
    (hdone : ∀ cs, (textAfter done cs).map Traced.char = Replacement.runAll done cs)
    (cs : List Char) :
    Replacement.ActInTurn later (textAfter done cs) (textAfter replacements cs) := by
  induction later generalizing done with
  | nil =>
      rw [hsplit, List.append_nil]
      exact .nil
  | cons w later ih =>
      have hacts (cs : List Char) : w.Acts (textAfter done cs) (textAfter (done ++ [w]) cs) :=
        acts_textAfter hsplit hdone (rewritten_normalizeChars cs)
      refine .cons (hacts cs) (ih (by simp [hsplit]) fun cs => ?_)
      rw [(hacts cs).run (replacements_ne_nil w (by simp [hsplit])), hdone, Replacement.runAll,
        Replacement.runAll, List.foldl_append]
      rfl

private theorem Rewritten.filter_textAfter {cs ds : List Char} (h : Rewritten cs ds) :
    ((textAfter replacements cs).filter fun x => !x.inserted).map Traced.char =
      (pieces cs).filterMap Piece.kept? := by
  induction h with
  | nil => rfl
  | keep hkeep _ ih =>
      rw [textAfter_cons _ hkeep, pieces_cons hkeep, List.filter_cons_of_pos rfl, List.map_cons, ih]
      rfl
  | @spelling w cs ds hw _ ih =>
      have hnone : (traced true w.padded).filter (fun x => !x.inserted) = [] := by
        simp [traced]
      rw [textAfter_spelling_append _ hw, if_pos (List.mem_map_of_mem hw), List.filter_append,
        hnone, List.nil_append, ih, pieces_spelling_append hw]
      rfl

theorem Rewritten.normalizeChars_self {cs ds : List Char} (h : Rewritten cs ds) :
    normalizeChars ds = ds := by
  induction h with
  | nil => rfl
  | @keep c cs ds hkeep hrest ih =>
      have hds : normalizeChars (c :: cs) = c :: ds := by
        rw [normalizeChars_cons hkeep, hrest.normalizeChars_eq]
      have hkeep' : ∀ w ∈ replacements, ¬ w.spelling <+: c :: ds := by
        intro w hw hfits
        rw [← hds] at hfits
        exact hkeep w hw (fits_of_fits_normalizeChars (space_not_mem_replacements w hw) hfits)
      rw [normalizeChars_cons hkeep', ih]
  | @spelling w cs ds hw _ ih =>
      have hmiss : ∀ w ∈ replacements, ∀ v ∈ replacements,
          Text.misses v.spelling w.padded = true := by decide
      have happend := Replacement.runAll_append_of_misses (hmiss w hw) ds
      change normalizeChars (w.padded ++ ds) = w.padded ++ normalizeChars ds at happend
      rw [happend, ih]

/-- The rewriting is one pass over the text: the longest operator spelling at each place gives way
to its padded token, and a character where none begins is copied. Carried out in turn, the
replacements take nothing but characters of the text itself, and in the end those that no
replacement has put in are the ones beside the operators. Rewriting again changes nothing, and the
parentheses stay as they are. -/
theorem normalize_is_single_pass (text : String) :
    (pieces text.toList).flatMap Piece.source = text.toList ∧
    normalize text = String.ofList ((pieces text.toList).flatMap Piece.rewritten) ∧
    (∃ xs, Replacement.ActInTurn replacements (traced false text.toList) xs ∧
      xs.map Traced.char = (normalize text).toList ∧
      (xs.filter fun x => !x.inserted).map Traced.char =
        (pieces text.toList).filterMap Piece.kept?) ∧
    normalize (normalize text) = normalize text ∧
    (normalize text).toList.filter (fun c => c == '(' || c == ')') =
      text.toList.filter fun c => c == '(' || c == ')' := by
  have hrewritten := rewritten_normalizeChars text.toList
  have htext : (normalize text).toList = normalizeChars text.toList := by
    rw [normalize, String.toList_ofList]
  refine ⟨hrewritten.flatMap_pieces.1, ?_, ?_, ?_, ?_⟩
  · rw [normalize, hrewritten.flatMap_pieces.2]
  · have hstart : ∀ cs, (textAfter [] cs).map Traced.char = Replacement.runAll [] cs := by
      intro cs
      rw [textAfter_nil, map_char_traced]
      rfl
    have hturns := actInTurn_textAfter rfl hstart text.toList
    rw [textAfter_nil] at hturns
    refine ⟨_, hturns, ?_, hrewritten.filter_textAfter⟩
    rw [hturns.run (by decide), map_char_traced, htext]
    rfl
  · rw [normalize, htext, hrewritten.normalizeChars_self, normalize]
  · rw [htext, ← List.filterMap_eq_filter]
    exact hrewritten.filterMap_eq (by decide)

/-- The longest spelling wins, and what is left of a sign may begin another one. -/
example : pieces "p<=>=>q".toList =
    [.kept 'p', .operator ['<', '=', '>'] " == ", .operator ['=', '>'] " <= ", .kept 'q'] := by
  decide

end PropLogic.Surface
