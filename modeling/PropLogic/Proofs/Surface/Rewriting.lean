import PropLogic.Proofs.Text.Replacing
import PropLogic.Surface.Normal

/-!
# Replacements do not interfere

The replacements are carried out one after the other on the whole text. No spelling can overlap what
an earlier replacement has put in or what a later one looks for, so the text is rewritten from left
to right: a spelling turns into its padded token, and where no spelling begins a character is kept.
-/

namespace PropLogic.Surface

namespace Replacement

def runAll (ws : List Replacement) (cs : List Char) : List Char :=
  ws.foldl (fun acc w => w.run acc) cs

theorem runAll_cons (w : Replacement) (ws : List Replacement) (cs : List Char) :
    runAll (w :: ws) cs = runAll ws (w.run cs) := rfl

private theorem runAll_nil (ws : List Replacement) : runAll ws [] = [] := by
  induction ws with
  | nil => rfl
  | cons w ws ih => exact ih

/-- The replacements `w` and, after it, `v` can be carried out one after the other: `w` leaves the
spelling of `v` alone, and `v` leaves what `w` puts in alone. -/
structure Independent (w v : Replacement) : Prop where
  before : Text.misses w.spelling v.spelling = true
  after : Text.misses v.spelling w.padded = true

theorem runAll_append_of_misses {ws : List Replacement} {piece : List Char}
    (h : ∀ w ∈ ws, Text.misses w.spelling piece = true) (rest : List Char) :
    runAll ws (piece ++ rest) = piece ++ runAll ws rest := by
  induction ws generalizing rest with
  | nil => rfl
  | cons w ws ih =>
      have hw := h w List.mem_cons_self
      have hws : ∀ v ∈ ws, Text.misses v.spelling piece = true :=
        fun v hv => h v (List.mem_cons_of_mem _ hv)
      rw [runAll_cons, runAll_cons, run, Text.replaceAll_append_of_misses hw, ih hws]
      rfl

private theorem runAll_spelling_append {ws : List Replacement} (hws : ws.Pairwise Independent)
    (hne : ∀ w ∈ ws, w.spelling ≠ []) {w : Replacement} (hw : w ∈ ws) (rest : List Char) :
    runAll ws (w.spelling ++ rest) = w.padded ++ runAll ws rest := by
  induction hws generalizing rest with
  | nil => cases hw
  | @cons v ws hv _ ih =>
      rw [runAll_cons, runAll_cons]
      rcases List.mem_cons.mp hw with rfl | hmem
      · have hafter : ∀ u ∈ ws, Text.misses u.spelling w.padded = true := fun u hu => (hv u hu).after
        rw [run, Text.replaceAll_self_append (hne w hw), runAll_append_of_misses hafter]
        rfl
      · have hrest : ∀ u ∈ ws, u.spelling ≠ [] := fun u hu => hne u (List.mem_cons_of_mem _ hu)
        rw [run, Text.replaceAll_append_of_misses (hv w hmem).before, ih hrest hmem]
        rfl

theorem fits_of_fits_runAll {ws : List Replacement} {p cs : List Char} (hp : ' ' ∉ p)
    (h : p <+: runAll ws cs) : p <+: cs := by
  induction ws generalizing cs with
  | nil => exact h
  | cons w ws ih => exact Text.fits_of_fits_replaceAll hp (ih h)

private theorem runAll_cons_of_not_fits {ws : List Replacement} (hws : ∀ w ∈ ws, ' ' ∉ w.spelling)
    {c : Char} {rest : List Char} (h : ∀ w ∈ ws, ¬ w.spelling <+: c :: rest) :
    runAll ws (c :: rest) = c :: runAll ws rest := by
  induction ws generalizing rest with
  | nil => rfl
  | cons w ws ih =>
      have hkeep : w.run (c :: rest) = c :: w.run rest :=
        Text.replaceAll_cons_of_not_fits (h w List.mem_cons_self)
      have hlater : ∀ v ∈ ws, ¬ v.spelling <+: c :: w.run rest := by
        intro v hv hfits
        rw [← hkeep] at hfits
        have hspace : ' ' ∉ v.spelling := hws v (List.mem_cons_of_mem _ hv)
        exact h v (List.mem_cons_of_mem _ hv) (Text.fits_of_fits_replaceAll hspace hfits)
      have hspaces : ∀ v ∈ ws, ' ' ∉ v.spelling := fun v hv => hws v (List.mem_cons_of_mem _ hv)
      rw [runAll_cons, runAll_cons, hkeep, ih hspaces hlater]

end Replacement

theorem replacements_independent : replacements.Pairwise Replacement.Independent := by
  have hall : replacements.Pairwise fun w v => Text.misses w.spelling v.spelling = true ∧
      Text.misses v.spelling w.padded = true := by decide
  exact hall.imp fun h => ⟨h.1, h.2⟩

theorem replacements_ne_nil : ∀ w ∈ replacements, w.spelling ≠ [] := by
  decide

theorem space_not_mem_replacements : ∀ w ∈ replacements, ' ' ∉ w.spelling := by
  decide

@[simp] theorem normalizeChars_nil : normalizeChars [] = [] := Replacement.runAll_nil _

theorem normalizeChars_spelling_append {w : Replacement} (hw : w ∈ replacements)
    (rest : List Char) :
    normalizeChars (w.spelling ++ rest) = w.padded ++ normalizeChars rest :=
  Replacement.runAll_spelling_append replacements_independent replacements_ne_nil hw rest

theorem normalizeChars_cons {c : Char} {rest : List Char}
    (h : ∀ w ∈ replacements, ¬ w.spelling <+: c :: rest) :
    normalizeChars (c :: rest) = c :: normalizeChars rest :=
  Replacement.runAll_cons_of_not_fits space_not_mem_replacements h

theorem fits_of_fits_normalizeChars {p cs : List Char} (hp : ' ' ∉ p)
    (h : p <+: normalizeChars cs) : p <+: cs :=
  Replacement.fits_of_fits_runAll hp h

theorem exists_append_of_fits_normalizeChars {p cs : List Char} (hp : ' ' ∉ p)
    (h : p <+: normalizeChars cs) :
    ∃ tail, cs = p ++ tail ∧ normalizeChars cs = p ++ normalizeChars tail := by
  induction p generalizing cs with
  | nil => exact ⟨cs, rfl, rfl⟩
  | cons c p ih =>
      obtain ⟨rest, rfl⟩ := fits_of_fits_normalizeChars hp h
      rw [List.cons_append] at h ⊢
      have hkeep : ∀ w ∈ replacements, ¬ w.spelling <+: c :: (p ++ rest) := by
        intro w hw hfits
        obtain ⟨tail, htail⟩ := hfits
        rw [← htail, normalizeChars_spelling_append hw] at h
        have hspace : c = ' ' := (List.cons_prefix_cons.mp h).1
        simp [hspace] at hp
      rw [normalizeChars_cons hkeep] at h ⊢
      have hp' : ' ' ∉ p := fun hmem => hp (List.mem_cons_of_mem _ hmem)
      obtain ⟨tail, htext, hrewritten⟩ := ih hp' (List.cons_prefix_cons.mp h).2
      exact ⟨tail, by rw [htext, List.cons_append], by rw [hrewritten, List.cons_append]⟩

/-! ### Rewriting from left to right -/

/-- The second text is the first one with its operator spellings rewritten from left to right. -/
inductive Rewritten : List Char → List Char → Prop where
  | nil : Rewritten [] []
  | keep {c : Char} {cs ds : List Char} :
      (∀ w ∈ replacements, ¬ w.spelling <+: c :: cs) → Rewritten cs ds →
        Rewritten (c :: cs) (c :: ds)
  | spelling {w : Replacement} {cs ds : List Char} :
      w ∈ replacements → Rewritten cs ds → Rewritten (w.spelling ++ cs) (w.padded ++ ds)

theorem rewritten_normalizeChars (cs : List Char) : Rewritten cs (normalizeChars cs) := by
  -- by the length of the text, because a spelling may take several characters of it
  induction hlength : cs.length using Nat.strongRecOn generalizing cs with
  | ind n ih =>
      subst hlength
      cases cs with
      | nil => exact .nil
      | cons c rest =>
          by_cases hfit : ∃ w ∈ replacements, w.spelling <+: c :: rest
          · obtain ⟨w, hw, tail, htext⟩ := hfit
            have hpos := List.length_pos_iff.mpr (replacements_ne_nil w hw)
            rw [← htext] at ih ⊢
            rw [normalizeChars_spelling_append hw]
            refine .spelling hw (ih tail.length ?_ tail rfl)
            rw [List.length_append]
            omega
          · have hkeep : ∀ w ∈ replacements, ¬ w.spelling <+: c :: rest :=
              fun w hw hfits => hfit ⟨w, hw, hfits⟩
            rw [normalizeChars_cons hkeep]
            exact .keep hkeep (ih rest.length (Nat.lt_succ_self _) rest rfl)

theorem Rewritten.normalizeChars_eq {cs ds : List Char} (h : Rewritten cs ds) :
    normalizeChars cs = ds := by
  induction h with
  | nil => rfl
  | keep hkeep _ ih => rw [normalizeChars_cons hkeep, ih]
  | spelling hw _ ih => rw [normalizeChars_spelling_append hw, ih]

/-- What every operator spelling says as its token does, a text says before and after rewriting. -/
theorem Rewritten.filterMap_eq {β : Type} {g : Char → Option β}
    (hg : ∀ w ∈ replacements, w.padded.filterMap g = w.spelling.filterMap g) {cs ds : List Char}
    (h : Rewritten cs ds) : ds.filterMap g = cs.filterMap g := by
  induction h with
  | nil => rfl
  | keep _ _ ih => rw [List.filterMap_cons, List.filterMap_cons, ih]
  | spelling hw _ ih => rw [List.filterMap_append, List.filterMap_append, hg _ hw, ih]

theorem Rewritten.all_isBlank {cs ds : List Char} (h : Rewritten cs ds) :
    ds.all Text.isBlank = cs.all Text.isBlank := by
  have hpieces : ∀ w ∈ replacements, w.padded.all Text.isBlank = w.spelling.all Text.isBlank := by
    decide
  induction h with
  | nil => rfl
  | keep _ _ ih => rw [List.all_cons, List.all_cons, ih]
  | spelling hw _ ih => rw [List.all_append, List.all_append, hpieces _ hw, ih]

end PropLogic.Surface
