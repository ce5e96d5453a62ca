import PropLogic.Text.Replace

/-!
# Where replacing acts

Replacing acts on the occurrences of the old part and leaves everything else alone. A piece of a
text that no occurrence can overlap stays as it is, whatever stands after it.
-/

namespace PropLogic.Text

/-- Whether no occurrence of `old` can begin inside a piece of a text, whatever follows the piece. -/
def misses (old : List Char) : List Char → Bool
  | [] => true
  | c :: piece =>
      !old.isPrefixOf (c :: piece) && !(c :: piece).isPrefixOf old && misses old piece

theorem head?_of_fits {w : List Char} (hw : w ≠ []) {c : Char} {rest : List Char}
    (h : w <+: c :: rest) : w.head? = some c := by
  cases w with
  | nil => exact absurd rfl hw
  | cons d tail => rw [List.head?_cons, (List.cons_prefix_cons.mp h).1]

theorem flatMap_eq_self {g : Char → List Char} {cs : List Char} (h : ∀ c ∈ cs, g c = [c]) :
    cs.flatMap g = cs := by
  induction cs with
  | nil => rfl
  | cons c cs ih =>
      rw [List.flatMap_cons, h c List.mem_cons_self, ih fun d hd => h d (List.mem_cons_of_mem c hd),
        List.singleton_append]

variable {old new : List Char}

theorem replaceAll_self_append (hold : old ≠ []) (rest : List Char) :
    replaceAll old new (old ++ rest) = new ++ replaceAll old new rest := by
  cases old with
  | nil => exact absurd rfl hold
  | cons c w =>
      have hfits : (c :: w).isPrefixOf (c :: (w ++ rest)) = true := by
        rw [← List.cons_append, List.isPrefixOf_iff_prefix]
        exact List.prefix_append _ _
      have hdrop : (w ++ rest).drop ((c :: w).length - 1) = rest := by simp
      rw [List.cons_append, replaceAll_cons, if_pos hfits, hdrop]

theorem replaceAll_cons_of_not_fits {c : Char} {rest : List Char} (h : ¬ old <+: c :: rest) :
    replaceAll old new (c :: rest) = c :: replaceAll old new rest := by
  have hbool : ¬ old.isPrefixOf (c :: rest) = true := by
    rw [List.isPrefixOf_iff_prefix]
    exact h
  rw [replaceAll_cons, if_neg hbool]

theorem not_fits_append_of_misses {c : Char} {piece : List Char} (h : misses old (c :: piece) = true)
    (rest : List Char) : ¬ old <+: c :: (piece ++ rest) := by
  simp only [misses, Bool.and_eq_true, Bool.not_eq_true', Bool.eq_false_iff, ne_eq,
    List.isPrefixOf_iff_prefix] at h
  intro hfits
  have hpre : c :: piece <+: c :: (piece ++ rest) := List.prefix_append (c :: piece) rest
  rcases List.prefix_or_prefix_of_prefix hfits hpre with hshort | hlong
  · exact h.1.1 hshort
  · exact h.1.2 hlong

theorem misses_tail {c : Char} {piece : List Char} (h : misses old (c :: piece) = true) :
    misses old piece = true := by
  simp only [misses, Bool.and_eq_true] at h
  exact h.2

theorem replaceAll_append_of_misses {piece : List Char} (h : misses old piece = true)
    (rest : List Char) :
    replaceAll old new (piece ++ rest) = piece ++ replaceAll old new rest := by
  induction piece with
  | nil => rfl
  | cons c piece ih =>
      rw [List.cons_append, replaceAll_cons_of_not_fits (not_fits_append_of_misses h rest),
        ih (misses_tail h), List.cons_append]

theorem infix_append_iff_of_misses {piece : List Char} (h : misses old piece = true)
    (rest : List Char) : old <:+: piece ++ rest ↔ old <:+: rest := by
  induction piece with
  | nil => rfl
  | cons c piece ih =>
      rw [List.cons_append, List.infix_cons_iff, ih (misses_tail h)]
      exact or_iff_right (not_fits_append_of_misses h rest)

theorem fits_of_fits_append_cons {c : Char} (hc : c ∉ old) {w rest : List Char}
    (h : old <+: w ++ c :: rest) : old <+: w := by
  rcases List.prefix_or_prefix_of_prefix h (List.prefix_append _ _) with hp | hp
  · exact hp
  · obtain ⟨u, rfl⟩ := hp
    rw [List.prefix_append_right_inj] at h
    cases u with
    | nil => simp
    | cons d u =>
        have hhead : d = c := (List.cons_prefix_cons.mp h).1
        simp [hhead] at hc

theorem replaceAll_append_cons (hold : old ≠ []) {c : Char} (hc : c ∉ old) (w rest : List Char) :
    replaceAll old new (w ++ c :: rest) = replaceAll old new w ++ c :: replaceAll old new rest := by
  -- by the length of the first part, because an occurrence takes several characters of it
  induction hlength : w.length using Nat.strongRecOn generalizing w with
  | ind n ih =>
      subst hlength
      cases w with
      | nil =>
          have hkeep : ¬ old <+: c :: rest := by
            intro hfits
            exact hold (List.prefix_nil.mp (fits_of_fits_append_cons (w := []) hc hfits))
          exact replaceAll_cons_of_not_fits hkeep
      | cons d w =>
          by_cases hfits : old <+: d :: w
          · obtain ⟨tail, htail⟩ := hfits
            have hpos := List.length_pos_iff.mpr hold
            have hshorter : tail.length < (d :: w).length := by
              rw [← htail, List.length_append]
              omega
            rw [← htail, List.append_assoc, replaceAll_self_append hold, replaceAll_self_append hold,
              ih _ hshorter tail rfl, List.append_assoc]
          · have hlong : ¬ old <+: d :: (w ++ c :: rest) :=
              fun hlong => hfits (fits_of_fits_append_cons (w := d :: w) hc hlong)
            rw [List.cons_append, replaceAll_cons_of_not_fits hlong, replaceAll_cons_of_not_fits hfits,
              ih _ (Nat.lt_succ_self _) w rfl, List.cons_append]

theorem mem_of_mem_replaceAll {c : Char} {cs : List Char} (h : c ∈ replaceAll old new cs) :
    c ∈ new ∨ c ∈ cs := by
  unfold replaceAll at h
  generalize 0 = skip at h
  induction cs generalizing skip with
  | nil => exact Or.inr h
  | cons d rest ih =>
      rw [replaceAfter.eq_def] at h
      cases skip with
      | succ k => exact (ih k h).imp_right (List.mem_cons_of_mem d)
      | zero =>
          simp only at h
          split at h
          next =>
            rcases List.mem_append.mp h with hnew | hrest
            · exact Or.inl hnew
            · exact (ih _ hrest).imp_right (List.mem_cons_of_mem d)
          next =>
            rcases List.mem_cons.mp h with rfl | hrest
            · exact Or.inr List.mem_cons_self
            · exact (ih _ hrest).imp_right (List.mem_cons_of_mem d)

/-- What stands at the beginning after a replacement stood there before, if it does not contain the
first character of the new part. -/
theorem fits_of_fits_replaceAll {d : Char} {p cs : List Char} (hd : d ∉ p)
    (h : p <+: replaceAll old (d :: new) cs) : p <+: cs := by
  induction cs generalizing p with
  | nil => exact h
  | cons c cs ih =>
      cases p with
      | nil => exact List.nil_prefix
      | cons a p =>
          rw [replaceAll_cons] at h
          split at h
          next =>
            have hhead : a = d := (List.cons_prefix_cons.mp h).1
            exact absurd (hhead ▸ List.mem_cons_self) hd
          next =>
            obtain ⟨hhead, htail⟩ := List.cons_prefix_cons.mp h
            have hp : d ∉ p := fun hmem => hd (List.mem_cons_of_mem _ hmem)
            exact List.cons_prefix_cons.mpr ⟨hhead, ih hp htail⟩

end PropLogic.Text
