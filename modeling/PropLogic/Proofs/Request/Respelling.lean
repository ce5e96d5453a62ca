import PropLogic.Proofs.Request.Acceptance

/-!
# Spellings of operators

Every operator has a sign and an ASCII spelling. `Surface.Respelled` replaces some of the signs of a
text by their ASCII spellings. An ASCII spelling may touch other characters and become part of
another spelling, but this happens only to `=>` behind `<`. A text in which no `→` stands behind `<`
has therefore the same canonical form and the same answer in all its spellings, be it a formula or
not.
-/

namespace PropLogic

namespace Surface

/-- The signs of the operators with their ASCII spellings. -/
def asciiSpellings : List (Char × List Char) :=
  [('¬', ['!']), ('∧', ['&']), ('∨', ['|']), ('→', ['=', '>']), ('↔', ['<', '=', '>'])]

/-- The second text is the first one with the ASCII spellings of some of its signs. -/
inductive Respelled : List Char → List Char → Prop where
  | nil : Respelled [] []
  | keep (c : Char) {cs ds : List Char} : Respelled cs ds → Respelled (c :: cs) (c :: ds)
  | ascii {sign : Char} {spelling cs ds : List Char} :
      (sign, spelling) ∈ asciiSpellings → Respelled cs ds →
        Respelled (sign :: cs) (spelling ++ ds)

/-! ### Texts around a replaced sign -/

private theorem exists_replacements_of_mem_asciiSpellings {sign : Char} {spelling : List Char}
    (h : (sign, spelling) ∈ asciiSpellings) :
    ∃ v ∈ replacements, ∃ w ∈ replacements,
      v.spelling = [sign] ∧ w.spelling = spelling ∧ v.padded = w.padded := by
  have hall : ∀ e ∈ asciiSpellings, ∃ v ∈ replacements, ∃ w ∈ replacements,
      v.spelling = [e.1] ∧ w.spelling = e.2 ∧ v.padded = w.padded := by decide
  exact hall (sign, spelling) h

private theorem Respelled.of_append {p cs ds : List Char} (h : Respelled (p ++ cs) ds)
    (hp : ∀ e ∈ asciiSpellings, e.1 ∉ p) : ∃ ds', ds = p ++ ds' ∧ Respelled cs ds' := by
  induction p generalizing ds with
  | nil => exact ⟨ds, rfl, h⟩
  | cons c p ih =>
      have htail : ∀ e ∈ asciiSpellings, e.1 ∉ p :=
        fun e he hmem => hp e he (List.mem_cons_of_mem _ hmem)
      cases h with
      | keep _ h =>
          obtain ⟨ds', rfl, hrest⟩ := ih h htail
          exact ⟨ds', rfl, hrest⟩
      | ascii hmem _ => exact absurd List.mem_cons_self (hp _ hmem)

private theorem Respelled.greater_of_fits {cs ds : List Char} (h : Respelled cs ds)
    (hfits : ['>'] <+: ds) : ['>'] <+: cs := by
  cases h with
  | nil => exact hfits
  | keep c _ => exact List.cons_prefix_cons.mpr ⟨(List.cons_prefix_cons.mp hfits).1, List.nil_prefix⟩
  | @ascii sign spelling cs ds hmem _ =>
      have hall : ∀ e ∈ asciiSpellings, e.2 ≠ [] ∧ e.2.head? ≠ some '>' := by decide
      obtain ⟨hne, hhead⟩ := hall _ hmem
      obtain ⟨c, w, rfl⟩ := List.exists_cons_of_ne_nil hne
      rw [List.cons_append] at hfits
      exact absurd (congrArg some (List.cons_prefix_cons.mp hfits).1.symm) hhead

private theorem Respelled.conditional_of_fits {cs ds : List Char} (h : Respelled cs ds)
    (hfits : ['=', '>'] <+: ds) : ['=', '>'] <+: cs ∨ ['→'] <+: cs := by
  cases h with
  | nil => exact Or.inl hfits
  | keep c h =>
      obtain ⟨hc, hrest⟩ := List.cons_prefix_cons.mp hfits
      exact Or.inl (List.cons_prefix_cons.mpr ⟨hc, h.greater_of_fits hrest⟩)
  | @ascii sign spelling cs ds hmem _ =>
      have hall : ∀ e ∈ asciiSpellings, e.2 ≠ [] ∧ (e.2.head? = some '=' → e.1 = '→') := by decide
      obtain ⟨hne, hhead⟩ := hall _ hmem
      obtain ⟨c, w, rfl⟩ := List.exists_cons_of_ne_nil hne
      rw [List.cons_append] at hfits
      have hsign : sign = '→' := hhead (congrArg some (List.cons_prefix_cons.mp hfits).1.symm)
      exact Or.inr (List.cons_prefix_cons.mpr ⟨hsign.symm, List.nil_prefix⟩)

/-- Around a character that is kept, respelling brings no operator about. -/
private theorem Respelled.fits_of_fits {c : Char} {cs ds : List Char} (h : Respelled cs ds)
    (hfree : ¬ ['<', '→'] <+: c :: cs) {w : Replacement} (hw : w ∈ replacements)
    (hfits : w.spelling <+: c :: ds) : w.spelling <+: c :: cs := by
  have hall : ∀ w ∈ replacements,
      w.spelling.length = 1 ∨ w.spelling = ['=', '>'] ∨ w.spelling = ['<', '=', '>'] := by decide
  rcases hall w hw with hlength | hspelling | hspelling
  · obtain ⟨d, hd⟩ := List.length_eq_one_iff.mp hlength
    rw [hd] at hfits ⊢
    exact List.cons_prefix_cons.mpr ⟨(List.cons_prefix_cons.mp hfits).1, List.nil_prefix⟩
  · rw [hspelling] at hfits ⊢
    obtain ⟨hc, hrest⟩ := List.cons_prefix_cons.mp hfits
    exact List.cons_prefix_cons.mpr ⟨hc, h.greater_of_fits hrest⟩
  · rw [hspelling] at hfits ⊢
    obtain ⟨hc, hrest⟩ := List.cons_prefix_cons.mp hfits
    rcases h.conditional_of_fits hrest with hcs | harrow
    · exact List.cons_prefix_cons.mpr ⟨hc, hcs⟩
    · exact absurd (List.cons_prefix_cons.mpr ⟨hc, harrow⟩) hfree

/-! ### Canonical forms and answers -/

private theorem normalizeChars_respelled {cs ds : List Char} (h : Respelled cs ds)
    (hfree : ¬ ['<', '→'] <:+: cs) : normalizeChars ds = normalizeChars cs := by
  -- by the length of the text, because an operator may take several characters of it
  induction hlength : cs.length using Nat.strongRecOn generalizing cs ds with
  | ind n ih =>
      subst hlength
      have hrest {p tail tail' : List Char} (hp : p ≠ []) (hcs : cs = p ++ tail)
          (htail : Respelled tail tail') : normalizeChars tail' = normalizeChars tail := by
        refine ih tail.length ?_ htail ?_ rfl
        · have hpos := List.length_pos_iff.mpr hp
          rw [hcs, List.length_append]
          omega
        · intro hinside
          rw [hcs] at hfree
          exact hfree (hinside.trans (List.suffix_append p tail).isInfix)
      cases h with
      | nil => rfl
      | @ascii sign spelling cs ds hmem h =>
          obtain ⟨v, hv, w, hw, hsign, rfl, hpadded⟩ :=
            exists_replacements_of_mem_asciiSpellings hmem
          have htail := hrest (p := [sign]) (by simp) rfl h
          have hcs := normalizeChars_spelling_append hv cs
          rw [hsign, List.singleton_append] at hcs
          rw [normalizeChars_spelling_append hw, hcs, htail, hpadded]
      | @keep c cs ds h =>
          by_cases hfit : ∃ w ∈ replacements, w.spelling <+: c :: cs
          · obtain ⟨w, hw, tail, htext⟩ := hfit
            have hsigns : ∀ w ∈ replacements, w.spelling ≠ [] ∧
                ∀ e ∈ asciiSpellings, e.1 ∉ w.spelling.tail := by decide
            obtain ⟨hne, htailsigns⟩ := hsigns w hw
            obtain ⟨d, p, hspelling⟩ := List.exists_cons_of_ne_nil hne
            rw [hspelling] at htext htailsigns
            obtain ⟨rfl, rfl⟩ : d = c ∧ p ++ tail = cs := List.cons_eq_cons.mp htext
            obtain ⟨tail', rfl, htail⟩ := h.of_append htailsigns
            have hkept := hrest hne (by rw [hspelling, ← htext]) htail
            rw [← List.cons_append, ← List.cons_append, ← hspelling,
              normalizeChars_spelling_append hw, normalizeChars_spelling_append hw, hkept]
          · have hkeep : ∀ w ∈ replacements, ¬ w.spelling <+: c :: cs :=
              fun w hw hfits => hfit ⟨w, hw, hfits⟩
            have hbefore : ¬ ['<', '→'] <+: c :: cs := fun hfits => hfree hfits.isInfix
            have hkeep' : ∀ w ∈ replacements, ¬ w.spelling <+: c :: ds :=
              fun w hw hfits => hkeep w hw (h.fits_of_fits hbefore hw hfits)
            have htail := hrest (p := [c]) (by simp) rfl h
            rw [normalizeChars_cons hkeep, normalizeChars_cons hkeep', htail]

private theorem Respelled.filterMap_eq {β : Type} {g : Char → Option β}
    (hsilent : ∀ e ∈ asciiSpellings, (e.1 :: e.2).filterMap g = []) {cs ds : List Char}
    (h : Respelled cs ds) : ds.filterMap g = cs.filterMap g := by
  induction h with
  | nil => rfl
  | keep c _ ih => rw [List.filterMap_cons, List.filterMap_cons, ih]
  | @ascii sign spelling cs ds hmem _ ih =>
      have hnone : ([sign] ++ spelling).filterMap g = [] := hsilent _ hmem
      rw [List.filterMap_append, List.append_eq_nil_iff] at hnone
      rw [List.filterMap_append, hnone.2, ih, ← List.singleton_append, List.filterMap_append, hnone.1]

private theorem Respelled.all_isAllowed {cs ds : List Char} (h : Respelled cs ds) :
    ds.all isAllowed = cs.all isAllowed := by
  induction h with
  | nil => rfl
  | keep c _ ih => rw [List.all_cons, List.all_cons, ih]
  | @ascii sign spelling cs ds hmem _ ih =>
      have hall : ∀ e ∈ asciiSpellings, isAllowed e.1 = true ∧ e.2.all isAllowed = true := by decide
      obtain ⟨hsign, hspelling⟩ := hall _ hmem
      rw [List.all_append, List.all_cons, ih, hsign, hspelling]

end Surface

/-- A request in which no `→` stands behind `<` has the same canonical form in all its spellings,
and the same answer or the same error. -/
theorem answer_respelled {request respelled : String}
    (hfree : ¬ ['<', '→'] <:+: request.toList)
    (h : Surface.Respelled request.toList respelled.toList) :
    Surface.normalize respelled = Surface.normalize request ∧ answer respelled = answer request := by
  have hnormal : Surface.normalize respelled = Surface.normalize request := by
    rw [Surface.normalize, Surface.normalize, Surface.normalizeChars_respelled h hfree]
  have hletters : mentionedVariables respelled = mentionedVariables request := by
    rw [mentionedVariables, mentionedVariables, h.filterMap_eq (by decide)]
  have hbalanced : Surface.parenthesesBalanced respelled = Surface.parenthesesBalanced request := by
    have hcount (b : Bool) :
        respelled.toList.count (if b then '(' else ')') =
          request.toList.count (if b then '(' else ')') := by
      rw [← Surface.count_filterMap_opens?, ← Surface.count_filterMap_opens?,
        h.filterMap_eq (by decide)]
    have hopening := hcount true
    have hclosing := hcount false
    simp only [if_true, Bool.false_eq_true, if_false] at hopening hclosing
    rw [Surface.parenthesesBalanced, Surface.parenthesesBalanced, hopening, hclosing]
  have hvalid : Surface.validate respelled = Surface.validate request := by
    rw [Surface.validate_eq, Surface.validate_eq, h.all_isAllowed]
  refine ⟨hnormal, ?_⟩
  rw [answer, answer, hbalanced, hvalid, TruthTable.ofText, TruthTable.ofText, hnormal, hletters]

/-- The stray signs around the biconditional are kept by its ASCII spelling. -/
theorem answer_respelled_stray :
    ¬ ['<', '→'] <:+: "=↔>p".toList ∧ Surface.Respelled "=↔>p".toList "=<=>>p".toList ∧
      Surface.normalize "=<=>>p" = "= == >p" ∧ answer "=<=>>p" = answer "=↔>p" := by
  have hfree : ¬ ['<', '→'] <:+: "=↔>p".toList := by decide
  have hrespelled : Surface.Respelled "=↔>p".toList "=<=>>p".toList := by
    have hsign : ('↔', ['<', '=', '>']) ∈ Surface.asciiSpellings := by decide
    exact .keep '=' (.ascii hsign (.keep '>' (.keep 'p' .nil)))
  obtain ⟨hnormal, hanswer⟩ := answer_respelled hfree hrespelled
  exact ⟨hfree, hrespelled, hnormal.trans (by decide), hanswer⟩

-- Behind `<` the ASCII spelling of the conditional completes that of the biconditional.
example : Surface.normalize "<=>p" ≠ Surface.normalize "<→p" := by decide

end PropLogic
