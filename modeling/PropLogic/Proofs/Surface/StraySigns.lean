import PropLogic.Proofs.Canonical.Parsing
import PropLogic.Proofs.Surface.Rewriting
import PropLogic.Surface.Check

/-!
# Stray signs

The signs `<`, `=` and `>` may stand in a request, but alone they are no token. A rewritten request
consists of white space, canonical tokens and such signs, so the place where no token begins, if
there is one, is that of a sign.
-/

namespace PropLogic.Surface

/-- The characters that are allowed only as parts of operators. -/
def isSign (c : Char) : Bool := c == '<' || c == '=' || c == '>'

/-- The text consists of white space, canonical tokens and signs. -/
inductive Strewn : List Char → Prop where
  | nil : Strewn []
  | blank {c : Char} {cs : List Char} : Text.isBlank c = true → Strewn cs → Strewn (c :: cs)
  | token (t : Token) {cs : List Char} : Strewn cs → Strewn (t.spelling ++ cs)
  | sign {c : Char} {cs : List Char} : isSign c = true → Strewn cs → Strewn (c :: cs)

private theorem alphabet_cases {c : Char} (h : c ∈ alphabet) :
    isSign c = true ∨ (∃ t : Token, t.spelling = [c]) ∨ ∃ w ∈ replacements, w.spelling = [c] := by
  have hall : alphabet.all (fun c => isSign c || Token.all.any (fun t => t.spelling == [c]) ||
      replacements.any fun w => w.spelling == [c]) = true := by decide
  have hc := List.all_eq_true.mp hall c h
  simp only [Bool.or_eq_true, List.any_eq_true, beq_iff_eq] at hc
  rcases hc with (hsign | ⟨t, -, ht⟩) | hw
  · exact Or.inl hsign
  · exact Or.inr (Or.inl ⟨t, ht⟩)
  · exact Or.inr (Or.inr hw)

theorem Rewritten.strewn {cs ds : List Char} (h : Rewritten cs ds)
    (hallowed : ∀ c ∈ cs, isAllowed c = true) : Strewn ds := by
  have hspace : Text.isBlank ' ' = true := by decide
  induction h with
  | nil => exact .nil
  | @keep c cs ds hkeep _ ih =>
      have hds : Strewn ds := ih fun d hd => hallowed d (List.mem_cons_of_mem _ hd)
      have hc := hallowed c List.mem_cons_self
      simp only [isAllowed, Bool.or_eq_true, List.contains_iff_mem] at hc
      rcases hc with hblank | hmem
      · exact .blank hblank hds
      · rcases alphabet_cases hmem with hsign | ⟨t, ht⟩ | ⟨w, hw, hspelling⟩
        · exact .sign hsign hds
        · have htoken := Strewn.token t hds
          rw [ht] at htoken
          exact htoken
        · refine absurd ?_ (hkeep w hw)
          rw [hspelling]
          exact List.prefix_append [c] cs
  | @spelling w cs ds hw _ ih =>
      have hds : Strewn ds := ih fun d hd => hallowed d (List.mem_append_right _ hd)
      have hpadded : w.padded ++ ds = ' ' :: (w.token.spelling ++ ' ' :: ds) := by
        simp [Replacement.padded]
      rw [hpadded]
      exact .blank hspace (.token w.token (.blank hspace hds))

/-! ### Places without token -/

private theorem spelling_of_isSign {t : Token} {c : Char} {cs : List Char} (hc : isSign c = true)
    (h : t.spelling = c :: cs) : ∃ d, cs = [d] ∧ isSign d = true := by
  have hall : ∀ t ∈ Token.all, t.spelling.head?.all isSign = true →
      t.spelling.length = 2 ∧ t.spelling.all isSign = true := by decide
  obtain ⟨hlength, hsigns⟩ := hall t (Token.mem_all t) (by rw [h]; exact hc)
  rw [h] at hlength hsigns
  obtain ⟨d, rfl⟩ := List.length_eq_one_iff.mp (Nat.succ.inj hlength)
  refine ⟨d, rfl, ?_⟩
  simpa [hc] using hsigns

private theorem isBlank_of_isSign {c : Char} (hc : isSign c = true) : Text.isBlank c = false := by
  simp only [isSign, Bool.or_eq_true, beq_iff_eq] at hc
  rcases hc with (rfl | rfl) | rfl <;> decide

theorem isSign_of_isBlank {c : Char} (hc : Text.isBlank c = true) : isSign c = false := by
  rw [Bool.eq_false_iff]
  intro hsign
  rw [isBlank_of_isSign hsign] at hc
  cases hc

private theorem exists_cons_spelling (t : Token) :
    ∃ c w, t.spelling = c :: w ∧ Text.isBlank c = false :=
  Token.lexicon_regular.exists_cons (e := (t.spelling, t)) (Token.mem_lexicon.mpr rfl)

namespace Strewn

private theorem cons_cases {c : Char} {cs : List Char} (h : Strewn (c :: cs)) :
    (Text.isBlank c = true ∧ Strewn cs) ∨
      (∃ t ds, c :: cs = Token.spelling t ++ ds ∧ Strewn ds) ∨ (isSign c = true ∧ Strewn cs) := by
  generalize htext : c :: cs = text at h
  cases h with
  | nil => cases htext
  | blank hc h =>
      cases htext
      exact Or.inl ⟨hc, h⟩
  | token t h => exact Or.inr (Or.inl ⟨t, _, rfl, h⟩)
  | sign hc h =>
      cases htext
      exact Or.inr (Or.inr ⟨hc, h⟩)

private theorem of_blank {c : Char} {cs : List Char} (hc : Text.isBlank c = true)
    (h : Strewn (c :: cs)) :
    Strewn cs := by
  rcases h.cons_cases with ⟨-, hrest⟩ | ⟨t, ds, htext, -⟩ | ⟨-, hrest⟩
  · exact hrest
  · obtain ⟨d, w, hspelling, hd⟩ := exists_cons_spelling t
    rw [hspelling] at htext
    cases htext
    rw [hc] at hd
    cases hd
  · exact hrest

private theorem of_sign {c : Char} {cs : List Char} (hc : isSign c = true) (h : Strewn (c :: cs)) :
    Strewn cs := by
  rcases h.cons_cases with ⟨-, hrest⟩ | ⟨t, ds, htext, hrest⟩ | ⟨-, hrest⟩
  · exact hrest
  · obtain ⟨d, w, hspelling, -⟩ := exists_cons_spelling t
    rw [hspelling] at htext
    cases htext
    obtain ⟨e, rfl, he⟩ := spelling_of_isSign hc hspelling
    exact .sign he hrest
  · exact hrest

private theorem of_token {t : Token} {cs : List Char} (h : Strewn (t.spelling ++ cs)) : Strewn cs := by
  obtain ⟨c, w, hspelling, hblank⟩ := exists_cons_spelling t
  by_cases hc : isSign c = true
  · obtain ⟨d, rfl, hd⟩ := spelling_of_isSign hc hspelling
    rw [hspelling] at h
    exact of_sign hd (of_sign hc h)
  · have htext : t.spelling ++ cs = c :: (w ++ cs) := by rw [hspelling, List.cons_append]
    rw [htext] at h
    rcases h.cons_cases with ⟨hc', -⟩ | ⟨u, ds, hu, hrest⟩ | ⟨hc', -⟩
    · rw [hblank] at hc'
      cases hc'
    · rw [← htext] at hu
      have hfits : t.spelling <+: u.spelling ++ ds := ⟨cs, hu⟩
      have htu : t = u := by
        rcases List.prefix_or_prefix_of_prefix hfits (List.prefix_append _ _) with hfits | hfits
        · exact Token.eq_of_spelling_fits hfits
        · exact (Token.eq_of_spelling_fits hfits).symm
      rw [htu] at hu
      rw [List.append_cancel_left hu]
      exact hrest
    · exact absurd hc' hc

theorem isSign_of_stuck {cs : List Char} (h : Strewn cs) {offset : Nat} {s : Text.Scan Token}
    (hlexes : Token.lexicon.Lexes offset cs s) {n : Nat} (hstuck : s.stuckAt? = some n) :
    ∃ before c after, cs = before ++ c :: after ∧ n = offset + Text.byteLength before ∧
      isSign c = true := by
  -- what is left of the text behind white space or a token consists of the same pieces
  induction hlexes with
  | ending => cases hstuck
  | @stuck offset c rest hblank hnone =>
      cases hstuck
      refine ⟨[], c, rest, rfl, rfl, ?_⟩
      rcases h.cons_cases with ⟨hc, -⟩ | ⟨t, ds, htext, -⟩ | ⟨hc, -⟩
      · rw [hblank] at hc
        cases hc
      · refine absurd ?_ (hnone (t.spelling, t) (Token.mem_lexicon.mpr rfl))
        rw [htext]
        exact List.prefix_append _ _
      · exact hc
  | @blank offset c rest s hc _ ih =>
      obtain ⟨before, d, after, rfl, rfl, hd⟩ := ih (h.of_blank hc) hstuck
      exact ⟨c :: before, d, after, rfl, by simp [Nat.add_assoc], hd⟩
  | @token offset w rest t s hw _ ih =>
      have hspelling : w = t.spelling := congrArg Prod.fst (Token.mem_lexicon.mp hw.mem)
      rw [hspelling] at h
      obtain ⟨before, d, after, rfl, rfl, hd⟩ := ih h.of_token hstuck
      exact ⟨w ++ before, d, after, by simp, by simp [Nat.add_assoc], hd⟩

end Strewn

end PropLogic.Surface
