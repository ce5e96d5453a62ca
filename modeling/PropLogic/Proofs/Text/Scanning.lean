import PropLogic.Text.Lexicon

/-!
# Lexing

`Lexicon.Lexes` says without a scan which lexemes a text has and where no further token begins. A
scan finds exactly these. Lexemes begin and end between characters, and where no spelling begins
another one they do not depend on what follows the text.
-/

namespace PropLogic.Text

/-! ### Bytes and characters -/

private theorem size_utf8Encode (cs : List Char) : cs.utf8Encode.size = byteLength cs := by
  induction cs with
  | nil => rfl
  | cons c cs ih =>
      rw [List.utf8Encode_cons, ByteArray.size_append, List.utf8Encode_singleton, ih]
      simp

theorem utf8ByteSize_ofList (cs : List Char) : (String.ofList cs).utf8ByteSize = byteLength cs :=
  size_utf8Encode cs

theorem byteLength_toList (s : String) : byteLength s.toList = s.utf8ByteSize := by
  rw [← utf8ByteSize_ofList, String.ofList_toList]

/-- Byte `n` of a text that begins at byte `offset` lies between two characters or at an end. -/
def IsBoundary (offset : Nat) (cs : List Char) (n : Nat) : Prop :=
  ∃ before after, cs = before ++ after ∧ n = offset + byteLength before

theorem isBoundary_offset (offset : Nat) (cs : List Char) : IsBoundary offset cs offset :=
  ⟨[], cs, rfl, rfl⟩

private theorem IsBoundary.append_left {offset n : Nat} {w rest : List Char}
    (h : IsBoundary (offset + byteLength w) rest n) : IsBoundary offset (w ++ rest) n := by
  obtain ⟨before, after, rfl, rfl⟩ := h
  exact ⟨w ++ before, after, by simp, by simp [Nat.add_assoc]⟩

theorem exists_append_of_isBoundary {text : String} {n : Nat} (h : IsBoundary 0 text.toList n) :
    ∃ before after : String, text = before ++ after ∧ before.utf8ByteSize = n := by
  obtain ⟨before, after, htext, rfl⟩ := h
  refine ⟨String.ofList before, String.ofList after, ?_, ?_⟩
  · rw [← String.ofList_append, ← htext, String.ofList_toList]
  · rw [utf8ByteSize_ofList, Nat.zero_add]

namespace Lexicon

variable {α : Type}

/-- Every spelling begins with a character that is not white space, and no spelling stands for two
tokens. -/
structure Regular (lexicon : Lexicon α) : Prop where
  head_spelling : ∀ e ∈ lexicon, e.1.head?.map isBlank = some false
  injective : ∀ e ∈ lexicon, ∀ e' ∈ lexicon, e.1 = e'.1 → e = e'

/-- The text `cs` begins with the spelling of `e` and with no longer spelling. -/
structure IsLongest (lexicon : Lexicon α) (e : List Char × α) (cs : List Char) : Prop where
  mem : e ∈ lexicon
  fits : e.1 <+: cs
  length_le : ∀ e' ∈ lexicon, e'.1 <+: cs → e'.1.length ≤ e.1.length

/-- The text `cs`, which begins at byte `offset`, has the lexemes of `s`, and `s` is stuck where no
spelling fits. -/
inductive Lexes (lexicon : Lexicon α) : Nat → List Char → Scan α → Prop where
  | ending {offset : Nat} : lexicon.Lexes offset [] ⟨[], none⟩
  | stuck {offset : Nat} {c : Char} {rest : List Char} :
      isBlank c = false → (∀ e ∈ lexicon, ¬ e.1 <+: c :: rest) →
        lexicon.Lexes offset (c :: rest) ⟨[], some offset⟩
  | blank {offset : Nat} {c : Char} {rest : List Char} {s : Scan α} :
      isBlank c = true → lexicon.Lexes (offset + c.utf8Size) rest s →
        lexicon.Lexes offset (c :: rest) s
  | token {offset : Nat} {spelling rest : List Char} {t : α} {s : Scan α} :
      lexicon.IsLongest (spelling, t) (spelling ++ rest) →
        lexicon.Lexes (offset + byteLength spelling) rest s →
          lexicon.Lexes offset (spelling ++ rest)
            ⟨⟨t, offset, offset + byteLength spelling⟩ :: s.lexemes, s.stuckAt?⟩

variable {lexicon : Lexicon α}

theorem Regular.exists_cons (hr : lexicon.Regular) {e : List Char × α} (he : e ∈ lexicon) :
    ∃ c w, e.1 = c :: w ∧ isBlank c = false := by
  have hhead := hr.head_spelling e he
  cases hw : e.1 with
  | nil => simp [hw] at hhead
  | cons c w =>
      rw [hw] at hhead
      exact ⟨c, w, rfl, by simpa using hhead⟩

theorem IsLongest.unique (hr : lexicon.Regular) {e e' : List Char × α} {cs : List Char}
    (h : lexicon.IsLongest e cs) (h' : lexicon.IsLongest e' cs) : e = e' := by
  have hle := h'.length_le e h.mem h.fits
  have hge := h.length_le e' h'.mem h'.fits
  have hfit := List.prefix_of_prefix_length_le h.fits h'.fits hle
  exact hr.injective e h.mem e' h'.mem (hfit.eq_of_length (Nat.le_antisymm hle hge))

theorem isLongest_append {e : List Char × α} (he : e ∈ lexicon)
    (hmax : ∀ e' ∈ lexicon, e.1 <+: e'.1 → e'.1.length ≤ e.1.length) (rest : List Char) :
    lexicon.IsLongest e (e.1 ++ rest) := by
  refine ⟨he, List.prefix_append _ _, ?_⟩
  intro e' he' hfits
  rcases Nat.le_total e'.1.length e.1.length with hle | hle
  · exact hle
  · exact hmax e' he' (List.prefix_of_prefix_length_le (List.prefix_append _ _) hfits hle)

/-! ### The longest spelling -/

private theorem longer_eq_none_iff (m m' : Option (List Char × α)) :
    longer m m' = none ↔ m = none ∧ m' = none := by
  cases m with
  | none => simp [longer]
  | some e =>
      cases m' with
      | none => simp [longer]
      | some e' =>
          simp only [longer]
          split <;> simp

private theorem longer_eq_some {m m' : Option (List Char × α)} {e : List Char × α}
    (h : longer m m' = some e) :
    (m = some e ∨ m' = some e) ∧
      ∀ e', m = some e' ∨ m' = some e' → e'.1.length ≤ e.1.length := by
  cases m with
  | none =>
      have hm' : m' = some e := by simpa [longer] using h
      subst hm'
      simp
  | some first =>
      cases m' with
      | none =>
          have he : first = e := by simpa [longer] using h
          subst he
          simp
      | some second =>
          simp only [longer] at h
          split at h
          next hlt =>
            have he : second = e := by simpa using h
            subst he
            simp only [or_true, Option.some.injEq, true_and]
            rintro e' (rfl | rfl) <;> omega
          next hlt =>
            have he : first = e := by simpa using h
            subst he
            simp only [true_or, Option.some.injEq, true_and]
            rintro e' (rfl | rfl) <;> omega

theorem longest?_eq_none_iff (lexicon : Lexicon α) (cs : List Char) :
    lexicon.longest? cs = none ↔ ∀ e ∈ lexicon, ¬ e.1 <+: cs := by
  induction lexicon with
  | nil => simp [longest?]
  | cons e rest ih =>
      rw [longest?, longer_eq_none_iff, ih]
      by_cases hfits : e.1 <+: cs
      · have hbool : e.1.isPrefixOf cs = true := List.isPrefixOf_iff_prefix.mpr hfits
        simp [hbool, hfits]
      · have hbool : ¬ e.1.isPrefixOf cs = true := fun h => hfits (List.isPrefixOf_iff_prefix.mp h)
        simp [hbool, hfits]

private theorem isLongest_of_longest?_eq_some {lexicon : Lexicon α} {e : List Char × α} {cs : List Char}
    (h : lexicon.longest? cs = some e) : lexicon.IsLongest e cs := by
  induction lexicon generalizing e with
  | nil => simp [longest?] at h
  | cons first rest ih =>
      rw [longest?] at h
      obtain ⟨hfrom, hmax⟩ := longer_eq_some h
      have hfound : e ∈ first :: rest ∧ e.1 <+: cs := by
        rcases hfrom with hfirst | hrest
        · by_cases hbool : first.1.isPrefixOf cs = true
          · rw [if_pos hbool] at hfirst
            cases hfirst
            exact ⟨List.mem_cons_self, List.isPrefixOf_iff_prefix.mp hbool⟩
          · rw [if_neg hbool] at hfirst
            cases hfirst
        · exact ⟨List.mem_cons_of_mem _ (ih hrest).mem, (ih hrest).fits⟩
      refine ⟨hfound.1, hfound.2, ?_⟩
      intro e' he' hfits'
      rcases List.mem_cons.mp he' with rfl | hmem
      · apply hmax
        rw [if_pos (List.isPrefixOf_iff_prefix.mpr hfits')]
        exact Or.inl rfl
      · cases hrest : Lexicon.longest? rest cs with
        | none => exact absurd hfits' ((longest?_eq_none_iff rest cs).mp hrest e' hmem)
        | some other =>
            have hle := (ih hrest).length_le e' hmem hfits'
            have hle' := hmax other (Or.inr hrest)
            omega

theorem longest?_eq_some_iff (hr : lexicon.Regular) {e : List Char × α} {cs : List Char} :
    lexicon.longest? cs = some e ↔ lexicon.IsLongest e cs := by
  constructor
  · exact isLongest_of_longest?_eq_some
  · intro h
    cases hfound : lexicon.longest? cs with
    | none => exact absurd h.fits ((longest?_eq_none_iff lexicon cs).mp hfound e h.mem)
    | some e' => rw [h.unique hr (isLongest_of_longest?_eq_some hfound)]

/-! ### Lexing -/

theorem scan_append (hr : lexicon.Regular) {w : List Char} {t : α} {rest : List Char}
    (h : lexicon.IsLongest (w, t) (w ++ rest)) (offset : Nat) :
    lexicon.scan offset (w ++ rest) =
      let stop := offset + byteLength w
      let next := lexicon.scan stop rest
      ⟨⟨t, offset, stop⟩ :: next.lexemes, next.stuckAt?⟩ := by
  obtain ⟨c, w', hw, hc⟩ := hr.exists_cons h.mem
  have hw' : w = c :: w' := hw
  have hlongest := (longest?_eq_some_iff hr).mpr h
  subst hw'
  rw [List.cons_append] at hlongest ⊢
  have hdrop : (w' ++ rest).drop ((c :: w').length - 1) = rest := by simp
  rw [scan_of_longest?_eq_some lexicon offset hc hlongest, hdrop]

theorem lexes_scan (hr : lexicon.Regular) (offset : Nat) (cs : List Char) :
    lexicon.Lexes offset cs (lexicon.scan offset cs) := by
  -- by the length of the text, because a token may take several characters of it
  induction hlength : cs.length using Nat.strongRecOn generalizing cs offset with
  | ind n ih =>
      subst hlength
      cases cs with
      | nil => exact .ending
      | cons c rest =>
          by_cases hc : isBlank c = true
          · rw [scan_cons_of_isBlank lexicon offset hc]
            exact .blank hc (ih rest.length (Nat.lt_succ_self _) _ rest rfl)
          · have hc' : isBlank c = false := by simpa using hc
            cases hfound : lexicon.longest? (c :: rest) with
            | none =>
                rw [scan_of_longest?_eq_none lexicon offset hc' hfound]
                exact .stuck hc' ((longest?_eq_none_iff lexicon _).mp hfound)
            | some e =>
                have hlongest := isLongest_of_longest?_eq_some hfound
                obtain ⟨tail, htail⟩ := hlongest.fits
                obtain ⟨d, w, hw, -⟩ := hr.exists_cons hlongest.mem
                have hshorter : tail.length < (c :: rest).length := by
                  rw [← htail, hw]
                  simp only [List.length_append, List.length_cons]
                  omega
                rw [← htail] at hlongest ⊢
                rw [scan_append hr hlongest]
                exact .token hlongest (ih tail.length hshorter _ tail rfl)

theorem Lexes.eq_scan (hr : lexicon.Regular) {offset : Nat} {cs : List Char} {s : Scan α}
    (h : lexicon.Lexes offset cs s) : s = lexicon.scan offset cs := by
  induction h with
  | ending => rfl
  | stuck hc hnone =>
      rw [scan_of_longest?_eq_none lexicon _ hc ((longest?_eq_none_iff lexicon _).mpr hnone)]
  | blank hc _ ih => rw [scan_cons_of_isBlank lexicon _ hc, ← ih]
  | token hw _ ih =>
      rw [scan_append hr hw]
      simp only [← ih]

theorem Lexes.all_isBlank {offset : Nat} {cs : List Char}
    (h : lexicon.Lexes offset cs ⟨[], none⟩) : ∀ c ∈ cs, isBlank c = true := by
  generalize hs : (⟨[], none⟩ : Scan α) = s at h
  induction h with
  | ending => simp
  | stuck => cases hs
  | blank hc _ ih => simpa [hc] using ih hs
  | token => cases hs

/-! ### Places of lexemes -/

theorem Lexes.isBoundary {offset : Nat} {cs : List Char} {s : Scan α}
    (h : lexicon.Lexes offset cs s) :
    (∀ l ∈ s.lexemes, IsBoundary offset cs l.start ∧ IsBoundary offset cs l.stop) ∧
      ∀ n, s.stuckAt? = some n → IsBoundary offset cs n := by
  induction h with
  | ending => simp
  | @stuck offset c rest =>
      refine ⟨by simp, ?_⟩
      intro n hn
      cases hn
      exact isBoundary_offset _ _
  | @blank offset c rest s _ _ ih =>
      have hc : byteLength [c] = c.utf8Size := rfl
      rw [← hc] at ih
      refine ⟨?_, fun n hn => (ih.2 n hn).append_left⟩
      intro l hl
      exact ⟨(ih.1 l hl).1.append_left, (ih.1 l hl).2.append_left⟩
  | @token offset w rest t s _ _ ih =>
      refine ⟨?_, fun n hn => (ih.2 n hn).append_left⟩
      intro l hl
      rcases List.mem_cons.mp hl with rfl | hmem
      · exact ⟨isBoundary_offset _ _, (isBoundary_offset _ rest).append_left⟩
      · exact ⟨(ih.1 l hmem).1.append_left, (ih.1 l hmem).2.append_left⟩

/-! ### Lexicons without overlaps -/

def PrefixFree (lexicon : Lexicon α) : Prop :=
  ∀ e ∈ lexicon, ∀ e' ∈ lexicon, e.1 <+: e'.1 → e = e'

theorem PrefixFree.isLongest_append (hfree : lexicon.PrefixFree) {e : List Char × α}
    (he : e ∈ lexicon) (rest : List Char) : lexicon.IsLongest e (e.1 ++ rest) := by
  apply Lexicon.isLongest_append he
  intro e' he' hfits
  exact Nat.le_of_eq (congrArg (fun e => e.1.length) (hfree e he e' he' hfits)).symm

theorem Lexes.exists_append (hr : lexicon.Regular) (hfree : lexicon.PrefixFree) {offset : Nat}
    {cs : List Char} {s : Scan α} (h : lexicon.Lexes offset cs s) (more : List Char) :
    ∃ s', lexicon.Lexes offset (cs ++ more) s' ∧ s.lexemes <+: s'.lexemes := by
  induction h with
  | ending => exact ⟨_, lexes_scan hr _ _, List.nil_prefix⟩
  | stuck => exact ⟨_, lexes_scan hr _ _, List.nil_prefix⟩
  | blank hc _ ih =>
      obtain ⟨s', hs', hbegin⟩ := ih
      exact ⟨s', .blank hc hs', hbegin⟩
  | @token offset w rest t s hw _ ih =>
      obtain ⟨s', hs', hbegin⟩ := ih
      have hlongest := hfree.isLongest_append hw.mem (rest ++ more)
      have hwhole := Lexes.token hlongest hs'
      rw [← List.append_assoc] at hwhole
      exact ⟨_, hwhole, List.cons_prefix_cons.mpr ⟨rfl, hbegin⟩⟩

end Lexicon

end PropLogic.Text
