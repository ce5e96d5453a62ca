import PropLogic.Proofs.Canonical.Parsing
import PropLogic.Proofs.Surface.Rewriting
import PropLogic.Surface.Check

/-!
# The notation of requests

`Surface.lexicon` lists the spellings of a request. A text can be cut into tokens by it exactly if
its characters are allowed and the rewritten text can be cut into the same tokens by the canonical
lexicon. The two may part before a place without token, as in `====>`, but then neither cuts the
whole text.
-/

namespace PropLogic.Surface

/-- The spellings of the tokens in requests. -/
def lexicon : Text.Lexicon Token :=
  [(['p'], .atom .p), (['q'], .atom .q), (['r'], .atom .r), (['('], .openParen), ([')'], .closeParen),
   (['¬'], .not), (['!'], .not),
   (['∧'], .binary .and), (['&'], .binary .and),
   (['∨'], .binary .or), (['|'], .binary .or),
   (['→'], .binary .implies), (['=', '>'], .binary .implies), (['<', '='], .binary .implies),
   (['↔'], .binary .iff), (['<', '=', '>'], .binary .iff), (['=', '='], .binary .iff)]

theorem lexicon_regular : lexicon.Regular := ⟨by decide, by decide⟩

/-! ### Longest spellings -/

private theorem isLongest_replacement {w : Replacement} (hw : w ∈ replacements) (rest : List Char) :
    lexicon.IsLongest (w.spelling, w.token) (w.spelling ++ rest) := by
  have hmem : ∀ w ∈ replacements, (w.spelling, w.token) ∈ lexicon := by decide
  have hmax : ∀ w ∈ replacements, ∀ e ∈ lexicon, w.spelling <+: e.1 →
      e.1.length ≤ w.spelling.length := by decide
  exact Text.Lexicon.isLongest_append (hmem w hw) (hmax w hw) rest

private theorem isLongest_canonical {t : Token} (hmem : (t.spelling, t) ∈ lexicon)
    (ht : t ≠ .binary .implies) (rest : List Char) :
    lexicon.IsLongest (t.spelling, t) (t.spelling ++ rest) := by
  have hmax : ∀ t ∈ Token.all, t ≠ .binary .implies → ∀ e ∈ lexicon, t.spelling <+: e.1 →
      e.1.length ≤ t.spelling.length := by decide
  exact Text.Lexicon.isLongest_append hmem (hmax t (Token.mem_all t) ht) rest

private theorem isLongest_conditional {rest : List Char} (hrest : ¬ ['>'] <+: rest) :
    lexicon.IsLongest (['<', '='], .binary .implies) (['<', '='] ++ rest) := by
  have hmax : ∀ e ∈ lexicon, e.1 = ['<', '=', '>'] ∨ e.1.length ≤ 2 := by decide
  refine ⟨by decide, List.prefix_append _ _, ?_⟩
  intro e he hfits
  rcases hmax e he with hlong | hshort
  · rw [hlong] at hfits
    have htail : ['<', '='] ++ ['>'] <+: ['<', '='] ++ rest := hfits
    exact absurd ((List.prefix_append_right_inj _).mp htail) hrest
  · exact hshort

/-! ### Rewriting at the beginning of a text -/

private theorem head?_spelling_of_fits {w : Replacement} (hw : w ∈ replacements) {c : Char}
    {rest : List Char}
    (h : w.spelling <+: c :: rest) : w.spelling.head? = some c :=
  Text.head?_of_fits (replacements_ne_nil w hw) h

private theorem normalizeChars_cons_of_head {c : Char}
    (h : ∀ w ∈ replacements, w.spelling.head? ≠ some c) (rest : List Char) :
    normalizeChars (c :: rest) = c :: normalizeChars rest :=
  normalizeChars_cons fun w hw hfits => h w hw (head?_spelling_of_fits hw hfits)

theorem normalizeChars_cons_of_isBlank {c : Char} (hc : Text.isBlank c = true) (rest : List Char) :
    normalizeChars (c :: rest) = c :: normalizeChars rest := by
  apply normalizeChars_cons_of_head
  intro w hw hhead
  have hall : ∀ w ∈ replacements, w.spelling.head?.map Text.isBlank = some false := by decide
  have hblank := hall w hw
  rw [hhead, Option.map_some, hc] at hblank
  cases hblank

private theorem normalizeChars_equals {rest : List Char} (hrest : ¬ ['>'] <+: rest) :
    normalizeChars ('=' :: rest) = '=' :: normalizeChars rest := by
  apply normalizeChars_cons
  intro w hw hfits
  have honly : ∀ w ∈ replacements, w.spelling.head? = some '=' → w.spelling = ['=', '>'] := by decide
  rw [honly w hw (head?_spelling_of_fits hw hfits)] at hfits
  exact hrest (List.cons_prefix_cons.mp hfits).2

private theorem normalizeChars_less {rest : List Char} (hrest : ¬ ['=', '>'] <+: rest) :
    normalizeChars ('<' :: rest) = '<' :: normalizeChars rest := by
  apply normalizeChars_cons
  intro w hw hfits
  have honly : ∀ w ∈ replacements, w.spelling.head? = some '<' →
      w.spelling = ['<', '=', '>'] := by decide
  rw [honly w hw (head?_spelling_of_fits hw hfits)] at hfits
  exact hrest (List.cons_prefix_cons.mp hfits).2

theorem cuts_padded_append {w : Replacement} {rest : List Char} {ts : List Token} :
    Token.lexicon.Cuts (w.padded ++ rest) ts ↔
      ∃ us, ts = w.token :: us ∧ Token.lexicon.Cuts rest us := by
  have hspace : Text.isBlank ' ' = true := by decide
  have hpadded : w.padded ++ rest = ' ' :: (w.token.spelling ++ ' ' :: rest) := by
    simp [Replacement.padded]
  rw [hpadded, Text.Lexicon.cuts_cons_of_isBlank Token.lexicon_regular hspace,
    Token.cuts_spelling_append]
  simp only [Text.Lexicon.cuts_cons_of_isBlank Token.lexicon_regular hspace]

/-! ### From requests to the canonical notation -/

private theorem isAllowed_of_mem_spelling {e : List Char × Token} (he : e ∈ lexicon) {c : Char}
    (hc : c ∈ e.1) : isAllowed c = true := by
  have hall : ∀ e ∈ lexicon, e.1.all isAllowed = true := by decide
  exact List.all_eq_true.mp (hall e he) c hc

theorem mem_lexicon_cases {w : List Char} {t : Token} (h : (w, t) ∈ lexicon) :
    (∃ v ∈ replacements, v.spelling = w ∧ v.token = t) ∨ t.spelling = w := by
  have hall : ∀ e ∈ lexicon, (∃ v ∈ replacements, v.spelling = e.1 ∧ v.token = e.2) ∨
      e.2.spelling = e.1 := by decide
  exact hall (w, t) h

private theorem not_greater_of_cuts {rest : List Char} {ts : List Token} (h : lexicon.Cuts rest ts) :
    ¬ ['>'] <+: rest := by
  intro hfits
  obtain ⟨tail, rfl⟩ := hfits
  obtain ⟨e, he, hbegin⟩ := h.exists_fits (by decide)
  have hne : ∀ e ∈ lexicon, e.1 ≠ [] := by decide
  have hall : ∀ e ∈ lexicon, e.1.head? ≠ some '>' := by decide
  exact hall e he (Text.head?_of_fits (hne e he) hbegin)

/-- A spelling before a text that can be cut is a token of its own: only `>` could make a longer one
of it, and no token begins with `>`. -/
theorem cuts_spelling_append {w rest : List Char} {t : Token} {ts : List Token}
    (hmem : (w, t) ∈ lexicon) (h : lexicon.Cuts rest ts) : lexicon.Cuts (w ++ rest) (t :: ts) := by
  have hall : ∀ e ∈ lexicon, e = (['<', '='], .binary .implies) ∨
      ∀ e' ∈ lexicon, e.1 <+: e'.1 → e'.1.length ≤ e.1.length := by decide
  rcases hall (w, t) hmem with heq | hmax
  · obtain ⟨rfl, rfl⟩ := Prod.mk.inj heq
    exact .token (isLongest_conditional (not_greater_of_cuts h)) h
  · exact .token (Text.Lexicon.isLongest_append hmem hmax rest) h

theorem cuts_append {cs ds : List Char} {ts us : List Token} (h : lexicon.Cuts cs ts)
    (h' : lexicon.Cuts ds us) : lexicon.Cuts (cs ++ ds) (ts ++ us) := by
  induction h with
  | nil => exact h'
  | blank hc _ ih => exact .blank hc ih
  | @token w rest t ts hw _ ih =>
      rw [List.append_assoc]
      exact cuts_spelling_append hw.mem ih

theorem cuts_parenthesized {cs : List Char} {ts : List Token} (h : lexicon.Cuts cs ts) :
    lexicon.Cuts ('(' :: cs ++ [')']) (.openParen :: ts ++ [.closeParen]) := by
  have hopen : (['('], Token.openParen) ∈ lexicon := by decide
  have hclose : ([')'], Token.closeParen) ∈ lexicon := by decide
  have hinner := cuts_append h (cuts_spelling_append hclose .nil)
  simpa using cuts_spelling_append hopen hinner

private theorem normalizeChars_canonical_append {t : Token} {rest : List Char}
    (h : lexicon.IsLongest (t.spelling, t) (t.spelling ++ rest)) (hrest : ¬ ['>'] <+: rest) :
    normalizeChars (t.spelling ++ rest) = t.spelling ++ normalizeChars rest := by
  have habsent : (Token.not.spelling, .not) ∉ lexicon ∧
      ((Token.binary .and).spelling, .binary .and) ∉ lexicon ∧
      ((Token.binary .or).spelling, .binary .or) ∉ lexicon := by decide
  cases t with
  | openParen => exact normalizeChars_cons_of_head (by decide) rest
  | closeParen => exact normalizeChars_cons_of_head (by decide) rest
  | atom v => cases v <;> exact normalizeChars_cons_of_head (by decide) rest
  | not => exact absurd h.mem habsent.1
  | binary op =>
      cases op with
      | and => exact absurd h.mem habsent.2.1
      | or => exact absurd h.mem habsent.2.2
      | implies =>
          have hequals : ¬ ['=', '>'] <+: '=' :: rest :=
            fun hfits => hrest (List.cons_prefix_cons.mp hfits).2
          change normalizeChars ('<' :: '=' :: rest) = '<' :: '=' :: normalizeChars rest
          rw [normalizeChars_less hequals, normalizeChars_equals hrest]
      | iff =>
          have hequals : ¬ ['>'] <+: '=' :: rest := by
            intro hfits
            exact absurd (List.cons_prefix_cons.mp hfits).1 (by decide)
          change normalizeChars ('=' :: '=' :: rest) = '=' :: '=' :: normalizeChars rest
          rw [normalizeChars_equals hequals, normalizeChars_equals hrest]

theorem cuts_normalizeChars_of_cuts {cs : List Char} {ts : List Token} (h : lexicon.Cuts cs ts) :
    (∀ c ∈ cs, isAllowed c = true) ∧ Token.lexicon.Cuts (normalizeChars cs) ts := by
  induction h with
  | nil => exact ⟨by simp, .nil⟩
  | @blank c cs ts hc _ ih =>
      rw [normalizeChars_cons_of_isBlank hc]
      refine ⟨?_, .blank hc ih.2⟩
      intro d hd
      rcases List.mem_cons.mp hd with rfl | hmem
      · exact isAllowed_of_isBlank hc
      · exact ih.1 d hmem
  | @token w rest t ts hw hrest ih =>
      constructor
      · intro c hc
        rcases List.mem_append.mp hc with hmem | hmem
        · exact isAllowed_of_mem_spelling hw.mem hmem
        · exact ih.1 c hmem
      · rcases mem_lexicon_cases hw.mem with ⟨v, hv, rfl, rfl⟩ | rfl
        · rw [normalizeChars_spelling_append hv, cuts_padded_append]
          exact ⟨ts, rfl, ih.2⟩
        · rw [normalizeChars_canonical_append hw (not_greater_of_cuts hrest),
            Token.cuts_spelling_append]
          exact ⟨ts, rfl, ih.2⟩

/-! ### From the canonical notation to requests -/

private theorem equals_of_fits_normalizeChars {rest : List Char} (h : ['='] <+: normalizeChars rest) :
    ∃ tail, rest = '=' :: tail ∧ ¬ ['>'] <+: tail ∧
      normalizeChars rest = '=' :: normalizeChars tail := by
  obtain ⟨tail, rfl⟩ := fits_of_fits_normalizeChars (by decide) h
  have hgreater : ¬ ['>'] <+: tail := by
    intro hfits
    obtain ⟨tail', rfl⟩ := hfits
    have hmem : ⟨['=', '>'], .binary .implies⟩ ∈ replacements := by decide
    have hrewritten := normalizeChars_spelling_append hmem tail'
    change normalizeChars (['='] ++ (['>'] ++ tail')) = _ at hrewritten
    rw [hrewritten] at h
    exact absurd (List.cons_prefix_cons.mp h).1 (by decide)
  exact ⟨tail, rfl, hgreater, normalizeChars_equals hgreater⟩

private theorem canonical_cases {t : Token} {c : Char} {rest : List Char} (hc : isAllowed c = true)
    (hfits : t.spelling <+: c :: rest) :
    (t.spelling = [c] ∧ ∀ tail, lexicon.IsLongest ([c], t) ([c] ++ tail)) ∨
      (t.spelling = [c, '='] ∧
        ∀ tail, ¬ ['>'] <+: tail → lexicon.IsLongest ([c, '='], t) ([c, '='] ++ tail)) := by
  have hall : ∀ t ∈ Token.all, t.spelling.head?.all isAllowed = true →
      (t.spelling.length = 1 ∧ (t.spelling, t) ∈ lexicon ∧ t ≠ .binary .implies) ∨
        t = .binary .implies ∨ t = .binary .iff := by decide
  have hhead : t.spelling.head? = some c := Text.head?_of_fits t.spelling_ne_nil hfits
  rcases hall t (Token.mem_all t) (by rw [hhead]; exact hc) with ⟨hlength, hmem, ht⟩ | rfl | rfl
  · left
    obtain ⟨d, hspelling⟩ := List.length_eq_one_iff.mp hlength
    have hd : d = c := by simpa [hspelling] using hhead
    have hlongest := isLongest_canonical hmem ht
    rw [hspelling, hd] at hlongest ⊢
    exact ⟨rfl, hlongest⟩
  · right
    obtain rfl : '<' = c := by simpa [Token.spelling] using hhead
    exact ⟨rfl, fun tail htail => isLongest_conditional htail⟩
  · right
    obtain rfl : '=' = c := by simpa [Token.spelling] using hhead
    have hmem : ((Token.binary .iff).spelling, .binary .iff) ∈ lexicon := by decide
    exact ⟨rfl, fun tail _ => isLongest_canonical hmem (by decide) tail⟩

/-- The first token of a rewritten text is the longest one of the text itself, and what is left of
the rewritten text is the rewritten rest. -/
private theorem exists_token_of_cuts_normalizeChars {c : Char} {rest : List Char} {ts : List Token}
    (hc : isAllowed c = true) (hblank : Text.isBlank c = false)
    (h : Token.lexicon.Cuts (normalizeChars (c :: rest)) ts) :
    ∃ w t tail us, c :: rest = w ++ tail ∧ ts = t :: us ∧ lexicon.IsLongest (w, t) (w ++ tail) ∧
      Token.lexicon.Cuts (normalizeChars tail) us := by
  by_cases hfit : ∃ w ∈ replacements, w.spelling <+: c :: rest
  · obtain ⟨w, hw, tail, htext⟩ := hfit
    rw [← htext, normalizeChars_spelling_append hw, cuts_padded_append] at h
    obtain ⟨us, rfl, hus⟩ := h
    exact ⟨w.spelling, w.token, tail, us, htext.symm, rfl, isLongest_replacement hw tail, hus⟩
  -- `c` is kept, so a canonical token begins with it
  have hkeep : ∀ w ∈ replacements, ¬ w.spelling <+: c :: rest :=
    fun w hw hfits => hfit ⟨w, hw, hfits⟩
  rw [normalizeChars_cons hkeep] at h
  obtain ⟨e, he, hfits⟩ := h.exists_fits hblank
  rw [Token.mem_lexicon.mp he] at hfits
  rcases canonical_cases hc hfits with ⟨hspelling, hlongest⟩ | ⟨hspelling, hlongest⟩
  · have hcut : Token.lexicon.Cuts (e.2.spelling ++ normalizeChars rest) ts := by
      rw [hspelling]
      exact h
    obtain ⟨us, rfl, hus⟩ := Token.cuts_spelling_append.mp hcut
    exact ⟨[c], e.2, rest, us, rfl, rfl, hlongest rest, hus⟩
  · rw [hspelling] at hfits
    have hequals := (List.cons_prefix_cons.mp hfits).2
    obtain ⟨tail, rfl, hgreater, hrewritten⟩ := equals_of_fits_normalizeChars hequals
    have hcut : Token.lexicon.Cuts (e.2.spelling ++ normalizeChars tail) ts := by
      rw [hspelling]
      rw [hrewritten] at h
      exact h
    obtain ⟨us, rfl, hus⟩ := Token.cuts_spelling_append.mp hcut
    exact ⟨[c, '='], e.2, tail, us, rfl, rfl, hlongest tail hgreater, hus⟩

private theorem cuts_of_cuts_normalizeChars {cs : List Char} {ts : List Token}
    (hallowed : ∀ c ∈ cs, isAllowed c = true)
    (h : Token.lexicon.Cuts (normalizeChars cs) ts) : lexicon.Cuts cs ts := by
  -- by the length of the text, because a token may take several characters of it
  induction hlength : cs.length using Nat.strongRecOn generalizing cs ts with
  | ind n ih =>
      subst hlength
      cases cs with
      | nil =>
          rw [normalizeChars_nil, Text.Lexicon.cuts_nil_iff Token.lexicon_regular] at h
          rw [h]
          exact .nil
      | cons c rest =>
          by_cases hblank : Text.isBlank c = true
          · have hrest : ∀ d ∈ rest, isAllowed d = true :=
              fun d hd => hallowed d (List.mem_cons_of_mem _ hd)
            rw [normalizeChars_cons_of_isBlank hblank,
              Text.Lexicon.cuts_cons_of_isBlank Token.lexicon_regular hblank] at h
            exact .blank hblank (ih rest.length (Nat.lt_succ_self _) hrest h rfl)
          · have hhead : Text.isBlank c = false := by simpa using hblank
            obtain ⟨w, t, tail, us, htext, rfl, hlongest, hus⟩ :=
              exists_token_of_cuts_normalizeChars (hallowed c List.mem_cons_self) hhead h
            rw [htext] at hallowed ih ⊢
            obtain ⟨d, w', hw, -⟩ := lexicon_regular.exists_cons hlongest.mem
            have hshorter : tail.length < (w ++ tail).length := by
              rw [show w = d :: w' from hw, List.length_append, List.length_cons]
              omega
            have htail : ∀ d ∈ tail, isAllowed d = true :=
              fun d hd => hallowed d (List.mem_append_right _ hd)
            exact .token hlongest (ih tail.length hshorter htail hus rfl)

/-- The two notations cut a request of allowed characters into the same tokens. -/
theorem cuts_iff_cuts_normalizeChars {cs : List Char} {ts : List Token} :
    lexicon.Cuts cs ts ↔
      (∀ c ∈ cs, isAllowed c = true) ∧ Token.lexicon.Cuts (normalizeChars cs) ts := by
  constructor
  · exact cuts_normalizeChars_of_cuts
  · intro h
    exact cuts_of_cuts_normalizeChars h.1 h.2

/-! ### Variables and parentheses -/

/-- Whether a character is an opening or a closing parenthesis, if it is one of them. -/
def opens? : Char → Option Bool
  | '(' => some true
  | ')' => some false
  | _ => none

theorem ofLetter?_eq_none_of_isBlank {c : Char} (hc : Text.isBlank c = true) :
    Variable.ofLetter? c = none := by
  have hall : ∀ v ∈ Variable.all, Text.isBlank v.letter = false := by decide
  cases hv : Variable.ofLetter? c with
  | none => rfl
  | some v =>
      rw [Variable.ofLetter?_eq_some_iff.mp hv, hall v (Variable.mem_all v)] at hc
      cases hc

theorem filterMap_ofLetter?_spelling :
    ∀ e ∈ lexicon, e.1.filterMap Variable.ofLetter? = e.2.atom?.toList := by
  decide

theorem filterMap_ofLetter?_of_cuts {cs : List Char} {ts : List Token} (h : lexicon.Cuts cs ts) :
    cs.filterMap Variable.ofLetter? = ts.filterMap Token.atom? :=
  h.filterMap_eq (fun _ => ofLetter?_eq_none_of_isBlank) filterMap_ofLetter?_spelling

private theorem opens?_eq_none_of_isBlank {c : Char} (hc : Text.isBlank c = true) :
    opens? c = none := by
  unfold opens?
  split
  · exact absurd hc (by decide)
  · exact absurd hc (by decide)
  · rfl

theorem filterMap_opens?_of_cuts {cs : List Char} {ts : List Token} (h : lexicon.Cuts cs ts) :
    cs.filterMap opens? = ts.filterMap Token.opens? := by
  have hspelling : ∀ e ∈ lexicon, e.1.filterMap opens? = e.2.opens?.toList := by decide
  exact h.filterMap_eq (fun _ => opens?_eq_none_of_isBlank) hspelling

theorem filterMap_opens?_of_canonical_cuts {cs : List Char} {ts : List Token}
    (h : Token.lexicon.Cuts cs ts) : cs.filterMap opens? = ts.filterMap Token.opens? := by
  have hspelling : ∀ e ∈ Token.lexicon, e.1.filterMap opens? = e.2.opens?.toList := by decide
  exact h.filterMap_eq (fun _ => opens?_eq_none_of_isBlank) hspelling

theorem filterMap_opens?_of_cuts_normalizeChars {cs : List Char} {ts : List Token}
    (h : Token.lexicon.Cuts (normalizeChars cs) ts) :
    cs.filterMap opens? = ts.filterMap Token.opens? := by
  rw [← (rewritten_normalizeChars cs).filterMap_eq (by decide)]
  exact filterMap_opens?_of_canonical_cuts h

theorem count_filterMap_opens? (cs : List Char) (b : Bool) :
    (cs.filterMap opens?).count b = cs.count (if b then '(' else ')') := by
  rw [List.count_filterMap, List.count]
  apply List.countP_congr
  intro c _
  unfold opens?
  split <;> cases b <;> simp_all

end PropLogic.Surface
