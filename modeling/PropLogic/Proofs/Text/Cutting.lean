import PropLogic.Proofs.Text.Scanning

/-!
# Cutting a text into tokens

`Lexicon.Cuts` says without a scan which tokens a text has: white space may stand anywhere between
them, and every token has the longest spelling that fits at its place. A scan ends without an error
exactly on the texts that can be cut, and its tokens are then the only ones.
-/

namespace PropLogic.Text.Lexicon

variable {α : Type}

/-- The text `cs` is cut into the tokens `ts`. -/
inductive Cuts (lexicon : Lexicon α) : List Char → List α → Prop where
  | nil : lexicon.Cuts [] []
  | blank {c : Char} {cs : List Char} {ts : List α} :
      isBlank c = true → lexicon.Cuts cs ts → lexicon.Cuts (c :: cs) ts
  | token {spelling rest : List Char} {t : α} {ts : List α} :
      lexicon.IsLongest (spelling, t) (spelling ++ rest) → lexicon.Cuts rest ts →
        lexicon.Cuts (spelling ++ rest) (t :: ts)

variable {lexicon : Lexicon α}

/-! ### Cutting and scanning -/

theorem Cuts.exists_lexes {cs : List Char} {ts : List α} (h : lexicon.Cuts cs ts) (offset : Nat) :
    ∃ ls, lexicon.Lexes offset cs ⟨ls, none⟩ ∧ ls.map Lexeme.token = ts := by
  induction h generalizing offset with
  | nil => exact ⟨[], .ending, rfl⟩
  | blank hc _ ih =>
      obtain ⟨ls, hls, hts⟩ := ih (offset + _)
      exact ⟨ls, .blank hc hls, hts⟩
  | @token w rest t ts hw _ ih =>
      obtain ⟨ls, hls, hts⟩ := ih (offset + byteLength w)
      exact ⟨_, .token hw hls, by rw [List.map_cons, hts]⟩

theorem Lexes.cuts {offset : Nat} {cs : List Char} {s : Scan α} (h : lexicon.Lexes offset cs s)
    (hstuck : s.stuckAt? = none) : lexicon.Cuts cs (s.lexemes.map Lexeme.token) := by
  induction h with
  | ending => exact .nil
  | stuck => cases hstuck
  | blank hc _ ih => exact .blank hc (ih hstuck)
  | token hw _ ih => exact .token hw (ih hstuck)

private theorem scan_of_cuts (hr : lexicon.Regular) {cs : List Char} {ts : List α}
    (h : lexicon.Cuts cs ts) (offset : Nat) :
    (lexicon.scan offset cs).stuckAt? = none ∧
      (lexicon.scan offset cs).lexemes.map Lexeme.token = ts := by
  obtain ⟨ls, hls, hts⟩ := h.exists_lexes offset
  rw [← hls.eq_scan hr]
  exact ⟨rfl, hts⟩

/-- A scan that begins at any offset finds exactly the tokens that a text can be cut into. -/
theorem cuts_iff_scan (hr : lexicon.Regular) (offset : Nat) {cs : List Char} {ts : List α} :
    lexicon.Cuts cs ts ↔ (lexicon.scan offset cs).stuckAt? = none ∧
      (lexicon.scan offset cs).lexemes.map Lexeme.token = ts := by
  constructor
  · exact fun h => scan_of_cuts hr h offset
  · rintro ⟨hstuck, rfl⟩
    exact (lexes_scan hr offset cs).cuts hstuck

theorem Cuts.unique (hr : lexicon.Regular) {cs : List Char} {ts us : List α}
    (h : lexicon.Cuts cs ts) (h' : lexicon.Cuts cs us) : ts = us := by
  rw [← (scan_of_cuts hr h 0).2, (scan_of_cuts hr h' 0).2]

/-! ### Cutting from the left -/

theorem cuts_nil_iff (hr : lexicon.Regular) {ts : List α} : lexicon.Cuts [] ts ↔ ts = [] := by
  rw [cuts_iff_scan hr 0]
  simp [eq_comm]

theorem cuts_cons_of_isBlank (hr : lexicon.Regular) {c : Char} (hc : isBlank c = true)
    {cs : List Char} {ts : List α} : lexicon.Cuts (c :: cs) ts ↔ lexicon.Cuts cs ts := by
  rw [cuts_iff_scan hr 0, scan_cons_of_isBlank lexicon 0 hc, ← cuts_iff_scan hr]

theorem cuts_append_iff (hr : lexicon.Regular) {w rest : List Char} {t : α} {ts : List α}
    (h : lexicon.IsLongest (w, t) (w ++ rest)) :
    lexicon.Cuts (w ++ rest) ts ↔ ∃ us, ts = t :: us ∧ lexicon.Cuts rest us := by
  constructor
  · intro hcuts
    have hscan := (cuts_iff_scan hr 0).mp hcuts
    rw [scan_append hr h] at hscan
    exact ⟨_, hscan.2.symm, (cuts_iff_scan hr _).mpr ⟨hscan.1, rfl⟩⟩
  · rintro ⟨us, rfl, hcuts⟩
    exact .token h hcuts

theorem Cuts.append (hfree : lexicon.PrefixFree) {cs ds : List Char} {ts us : List α}
    (h : lexicon.Cuts cs ts) (h' : lexicon.Cuts ds us) : lexicon.Cuts (cs ++ ds) (ts ++ us) := by
  induction h with
  | nil => exact h'
  | blank hc _ ih => exact .blank hc ih
  | @token w rest t ts hw _ ih =>
      rw [List.append_assoc]
      exact .token (hfree.isLongest_append hw.mem (rest ++ ds)) ih

theorem Cuts.exists_fits {c : Char} {cs : List Char} {ts : List α}
    (h : lexicon.Cuts (c :: cs) ts) (hc : isBlank c = false) :
    ∃ e ∈ lexicon, e.1 <+: c :: cs := by
  generalize htext : c :: cs = text at h
  cases h with
  | nil => cases htext
  | blank hblank _ =>
      cases htext
      rw [hc] at hblank
      cases hblank
  | token hw _ => exact ⟨_, hw.mem, hw.fits⟩

/-- What the characters of a text say one by one, its tokens say too, if each token says what its
spelling says and white space says nothing. -/
theorem Cuts.filterMap_eq {β : Type} {g : Char → Option β} {h : α → Option β}
    (hblank : ∀ c, isBlank c = true → g c = none)
    (hspelling : ∀ e ∈ lexicon, e.1.filterMap g = (h e.2).toList)
    {cs : List Char} {ts : List α} (hcuts : lexicon.Cuts cs ts) :
    cs.filterMap g = ts.filterMap h := by
  induction hcuts with
  | nil => rfl
  | blank hc _ ih => rw [List.filterMap_cons, hblank _ hc, ih]
  | @token w rest t ts hw _ ih =>
      have hhead : w.filterMap g = (h t).toList := hspelling (w, t) hw.mem
      rw [List.filterMap_append, hhead, ih, List.filterMap_cons]
      cases h t <;> rfl

end PropLogic.Text.Lexicon
