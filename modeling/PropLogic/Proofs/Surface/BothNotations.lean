import PropLogic.Proofs.Surface.Notation

/-!
# Texts in both notations

A text that is not checked may write its tokens in the notation of requests or in the canonical one,
side by side. If its rewritten form can be cut into tokens, the text consists of white space and
spellings of these tokens. Its letters are then those of the variables, and the last letter of every
`or`.
-/

namespace PropLogic.Surface

def spellings : List (List Char × Token) :=
  replacements.map (fun w => (w.spelling, w.token)) ++ Token.lexicon

/-- The text consists of white space and the tokens `ts`, each in a spelling of either notation. -/
inductive Spells : List Char → List Token → Prop where
  | nil : Spells [] []
  | blank {c : Char} {cs : List Char} {ts : List Token} :
      Text.isBlank c = true → Spells cs ts → Spells (c :: cs) ts
  | token {w cs : List Char} {t : Token} {ts : List Token} :
      (w, t) ∈ spellings → Spells cs ts → Spells (w ++ cs) (t :: ts)

private theorem exists_spelling_of_cuts_normalizeChars {c : Char} {rest : List Char} {ts : List Token}
    (hblank : Text.isBlank c = false) (h : Token.lexicon.Cuts (normalizeChars (c :: rest)) ts) :
    ∃ w t tail us, c :: rest = w ++ tail ∧ ts = t :: us ∧ (w, t) ∈ spellings ∧
      Token.lexicon.Cuts (normalizeChars tail) us := by
  by_cases hfit : ∃ w ∈ replacements, w.spelling <+: c :: rest
  · obtain ⟨w, hw, tail, htext⟩ := hfit
    have hmem : (w.spelling, w.token) ∈ spellings :=
      List.mem_append_left _ (List.mem_map_of_mem hw)
    rw [← htext, normalizeChars_spelling_append hw, cuts_padded_append] at h
    obtain ⟨us, rfl, hus⟩ := h
    exact ⟨w.spelling, w.token, tail, us, htext.symm, rfl, hmem, hus⟩
  · -- the first character is kept, and a canonical token begins with it
    have hkeep : normalizeChars (c :: rest) = c :: normalizeChars rest :=
      normalizeChars_cons fun w hw hfits => hfit ⟨w, hw, hfits⟩
    obtain ⟨e, he, hfits⟩ := (hkeep ▸ h).exists_fits hblank
    have hspaces : ∀ e ∈ Token.lexicon, ' ' ∉ e.1 := by decide
    rw [← hkeep] at hfits
    obtain ⟨tail, htext, hrewritten⟩ := exists_append_of_fits_normalizeChars (hspaces e he) hfits
    have hspelling : e.1 = e.2.spelling := congrArg Prod.fst (Token.mem_lexicon.mp he)
    rw [hrewritten, hspelling, Token.cuts_spelling_append] at h
    obtain ⟨us, rfl, hus⟩ := h
    exact ⟨e.1, e.2, tail, us, htext, rfl, List.mem_append_right _ he, hus⟩

theorem spells_of_cuts_normalizeChars {cs : List Char} {ts : List Token}
    (h : Token.lexicon.Cuts (normalizeChars cs) ts) : Spells cs ts := by
  -- by the length of the text, because a token may take several characters of it
  induction hlength : cs.length using Nat.strongRecOn generalizing cs ts with
  | ind n ih =>
      subst hlength
      cases cs with
      | nil =>
          rw [normalizeChars_nil, Text.Lexicon.cuts_nil_iff Token.lexicon_regular] at h
          rw [h]
          exact .nil
      | cons c rest =>
          cases hblank : Text.isBlank c with
          | true =>
              rw [normalizeChars_cons_of_isBlank hblank,
                Text.Lexicon.cuts_cons_of_isBlank Token.lexicon_regular hblank] at h
              exact .blank hblank (ih _ (Nat.lt_succ_self _) h rfl)
          | false =>
              obtain ⟨w, t, tail, us, htext, rfl, hmem, hus⟩ :=
                exists_spelling_of_cuts_normalizeChars hblank h
              have hne : ∀ e ∈ spellings, e.1 ≠ [] := by decide
              have hpos := List.length_pos_iff.mpr (hne (w, t) hmem)
              have hshorter : tail.length < (c :: rest).length := by
                rw [htext, List.length_append]
                exact Nat.lt_add_of_pos_left hpos
              rw [htext]
              exact .token hmem (ih _ hshorter hus rfl)

/-- The letters of a text are those of its variables and the last letter of each `or`. -/
theorem Spells.letter_iff {cs : List Char} {ts : List Token} (h : Spells cs ts) (v : Variable) :
    v ∈ cs.filterMap Variable.ofLetter? ↔
      v ∈ ts.filterMap Token.atom? ∨ (v = .r ∧ "or".toList <:+: cs) := by
  have hcases : ∀ e ∈ spellings, e = ("or".toList, .binary .or) ∨
      Text.misses "or".toList e.1 = true ∧
        e.1.filterMap Variable.ofLetter? = e.2.atom?.toList := by decide
  induction h with
  | nil => simp
  | @blank c cs ts hc _ ih =>
      have hstart : ¬ "or".toList <+: c :: cs := by
        intro hfits
        obtain rfl : 'o' = c := (List.cons_prefix_cons.mp hfits).1
        exact absurd hc (by decide)
      rw [List.filterMap_cons_none (ofLetter?_eq_none_of_isBlank hc), List.infix_cons_iff,
        or_iff_right hstart]
      exact ih
  | @token w cs t ts hw _ ih =>
      rcases hcases _ hw with heq | ⟨hmiss, hletters⟩
      · obtain ⟨rfl, rfl⟩ := Prod.mk.inj heq
        have hinfix : "or".toList <:+: "or".toList ++ cs := (List.prefix_append _ _).isInfix
        have hletters : "or".toList.filterMap Variable.ofLetter? = [.r] := by decide
        have htokens : (Token.binary .or :: ts).filterMap Token.atom? = ts.filterMap Token.atom? :=
          List.filterMap_cons_none rfl
        simp only [List.filterMap_append, hletters, htokens, List.mem_append, ih, hinfix, and_true,
          List.mem_singleton]
        constructor
        · rintro (hv | hv | ⟨hv, -⟩)
          · exact Or.inr hv
          · exact Or.inl hv
          · exact Or.inr hv
        · exact fun hv => hv.elim (fun hv => Or.inr (Or.inl hv)) Or.inl
      · simp only at hmiss hletters
        simp only [List.filterMap_append, hletters, List.mem_append, ih,
          Text.infix_append_iff_of_misses hmiss]
        cases t <;> simp [Token.atom?, or_assoc]

end PropLogic.Surface
