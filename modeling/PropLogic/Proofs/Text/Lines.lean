import PropLogic.Text.Blank
import PropLogic.Text.Lines

/-!
# Cutting into lines

`Lined` says that a list consists of given complete lines and of a rest that no separator ends.
Every list can be cut so in one way, and `completeLines` finds it. Lines can be cut before or after
their elements are encoded, and it does not matter how a line was ended once it is trimmed.
-/

namespace PropLogic.Text

variable {α β : Type}

/-- The list consists of the given lines, which end in `sep`, and of a rest without `sep`. -/
inductive Lined (sep : α) : List α → List (List α) → List α → Prop
  | rest {rest : List α} : sep ∉ rest → Lined sep rest [] rest
  | line {w xs rest : List α} {ls : List (List α)} : sep ∉ w → Lined sep xs ls rest →
      Lined sep (w ++ sep :: xs) ((w ++ [sep]) :: ls) rest

section

variable {sep : α} {xs rest : List α} {ls : List (List α)}

theorem exists_lined (sep : α) (xs : List α) : ∃ ls rest, Lined sep xs ls rest := by
  induction xs with
  | nil => exact ⟨[], [], .rest List.not_mem_nil⟩
  | cons x xs ih =>
      obtain ⟨ls, rest, h⟩ := ih
      by_cases hx : sep = x
      · subst hx
        exact ⟨_, _, .line List.not_mem_nil h⟩
      · cases h with
        | rest hrest => exact ⟨_, _, .rest (List.not_mem_cons_of_ne_of_not_mem hx hrest)⟩
        | line hw h => exact ⟨_, _, .line (List.not_mem_cons_of_ne_of_not_mem hx hw) h⟩

theorem Lined.not_mem (h : Lined sep xs ls rest) : sep ∉ rest := by
  induction h with
  | rest hrest => exact hrest
  | line _ _ ih => exact ih

private theorem Lined.flatten_append (h : Lined sep xs ls rest) : ls.flatten ++ rest = xs := by
  induction h with
  | rest _ => rfl
  | line _ _ ih => simp [ih]

private theorem Lined.eq_concat_of_mem (h : Lined sep xs ls rest) {l : List α} (hl : l ∈ ls) :
    ∃ w, sep ∉ w ∧ l = w ++ [sep] := by
  induction h with
  | rest _ => cases hl
  | @line w _ _ _ hw _ ih =>
      rcases List.mem_cons.mp hl with rfl | hl
      · exact ⟨w, hw, rfl⟩
      · exact ih hl

private theorem lined_flatten (h : ∀ l ∈ ls, ∃ w, sep ∉ w ∧ l = w ++ [sep]) :
    Lined sep ls.flatten ls [] := by
  induction ls with
  | nil => exact .rest List.not_mem_nil
  | cons l ls ih =>
      obtain ⟨w, hw, rfl⟩ := h l List.mem_cons_self
      have hls := ih fun l' hl' => h l' (List.mem_cons_of_mem _ hl')
      rw [List.flatten_cons, List.append_assoc]
      exact .line hw hls

theorem Lined.append {ys rest' : List α} {ls' : List (List α)} (h : Lined sep xs ls rest)
    (h' : Lined sep (rest ++ ys) ls' rest') : Lined sep (xs ++ ys) (ls ++ ls') rest' := by
  induction h with
  | rest _ => exact h'
  | line hw _ ih =>
      rw [List.append_assoc, List.cons_append, List.cons_append]
      exact .line hw (ih h')

end

/-! ### The cut that is computed -/

section

variable [DecidableEq α] {sep : α} {xs rest : List α} {ls : List (List α)}

theorem length_splitOn (sep : α) (xs : List α) : (xs.splitOn sep).length = xs.count sep + 1 := by
  induction xs with
  | nil => rfl
  | cons x xs ih =>
      rw [List.splitOn_cons_eq_if_modifyHead]
      by_cases hx : x = sep <;> simp [hx, ih]

private theorem completeLines_of_not_mem (h : sep ∉ xs) : completeLines sep xs = ([], xs) := by
  simp [completeLines, List.splitOn_eq_singleton h]

private theorem completeLines_append_cons {w : List α} (hw : sep ∉ w) (xs : List α) :
    completeLines sep (w ++ sep :: xs) =
      ((w ++ [sep]) :: (completeLines sep xs).1, (completeLines sep xs).2) := by
  obtain ⟨piece, pieces, hpieces⟩ := List.exists_cons_of_ne_nil (List.splitOn_ne_nil sep xs)
  simp [completeLines, List.splitOn_append_cons_self_of_not_mem hw, hpieces]

theorem Lined.completeLines_eq (h : Lined sep xs ls rest) : completeLines sep xs = (ls, rest) := by
  induction h with
  | rest hrest => exact completeLines_of_not_mem hrest
  | line hw _ ih => rw [completeLines_append_cons hw, ih]

theorem Lined.lines_eq (h : Lined sep xs ls rest) : lines sep xs = ls ++ lastLine rest := by
  rw [lines, h.completeLines_eq]

theorem Lined.lines_append (h : Lined sep xs ls rest) (ys : List α) :
    lines sep (xs ++ ys) = ls ++ lines sep (rest ++ ys) := by
  obtain ⟨ls', rest', h'⟩ := exists_lined sep (rest ++ ys)
  rw [(h.append h').lines_eq, h'.lines_eq, List.append_assoc]

/-- The lines before another line are complete, so they are cut in the same way without it. -/
theorem lines_flatten_of_lines_eq {before after : List (List α)} {l : List α}
    (h : lines sep xs = before ++ l :: after) : lines sep before.flatten = before := by
  obtain ⟨ls, rest, hlined⟩ := exists_lined sep xs
  obtain ⟨ls', rfl⟩ : before <+: ls := by
    rw [hlined.lines_eq] at h
    rcases List.append_eq_append_iff.mp h with ⟨as, rfl, hlast⟩ | ⟨bs, rfl, -⟩
    · have hlength := congrArg List.length hlast
      have hle : (lastLine rest).length ≤ 1 := by
        unfold lastLine
        split <;> simp
      rw [List.length_append, List.length_cons] at hlength
      have has : as = [] := List.length_eq_zero_iff.mp (by omega)
      exact ⟨[], by rw [List.append_nil, has, List.append_nil]⟩
    · exact List.prefix_append _ _
  have hcomplete : Lined sep before.flatten before [] :=
    lined_flatten fun l hl => hlined.eq_concat_of_mem (List.mem_append_left _ hl)
  rw [hcomplete.lines_eq]
  exact List.append_nil before

theorem eq_or_eq_concat_of_mem_lines {l : List α} (hl : l ∈ lines sep xs) :
    ∃ w, sep ∉ w ∧ (l = w ∨ l = w ++ [sep]) := by
  obtain ⟨ls, rest, h⟩ := exists_lined sep xs
  rw [h.lines_eq, List.mem_append] at hl
  rcases hl with hl | hl
  · obtain ⟨w, hw, rfl⟩ := h.eq_concat_of_mem hl
    exact ⟨w, hw, Or.inr rfl⟩
  · refine ⟨rest, h.not_mem, Or.inl ?_⟩
    unfold lastLine at hl
    split at hl
    next => cases hl
    next => exact List.mem_singleton.mp hl

theorem flatten_lines (sep : α) (xs : List α) : (lines sep xs).flatten = xs := by
  obtain ⟨ls, rest, h⟩ := exists_lined sep xs
  have hlast : (lastLine rest).flatten = rest := by
    cases rest <;> simp [lastLine]
  rw [h.lines_eq, List.flatten_append, hlast, h.flatten_append]

end

/-! ### Encoded elements -/

/-- The code `g` of the elements ends exactly the lines that `sep` ends. -/
structure KeepsLines (sep : α) (sep' : β) (g : α → List β) : Prop where
  ends : ∃ v, sep' ∉ v ∧ g sep = v ++ [sep']
  other : ∀ c, c ≠ sep → sep' ∉ g c
  ne_nil : ∀ c, g c ≠ []

namespace KeepsLines

variable {sep : α} {sep' : β} {g : α → List β} {xs rest : List α} {ls : List (List α)}

private theorem not_mem_flatMap (hg : KeepsLines sep sep' g) {w : List α} (hw : sep ∉ w) :
    sep' ∉ w.flatMap g := by
  intro hmem
  obtain ⟨c, hc, hsep⟩ := List.mem_flatMap.mp hmem
  refine hg.other c ?_ hsep
  rintro rfl
  exact hw hc

private theorem lined_flatMap (hg : KeepsLines sep sep' g) (h : Lined sep xs ls rest) :
    Lined sep' (xs.flatMap g) (ls.map (List.flatMap g)) (rest.flatMap g) := by
  induction h with
  | rest hrest => exact .rest (hg.not_mem_flatMap hrest)
  | @line w xs rest ls hw _ ih =>
      obtain ⟨v, hv, hends⟩ := hg.ends
      have hline : sep' ∉ w.flatMap g ++ v := by
        rw [List.mem_append, not_or]
        exact ⟨hg.not_mem_flatMap hw, hv⟩
      simpa [hends] using Lined.line hline ih

theorem lines_flatMap [DecidableEq α] [DecidableEq β] (hg : KeepsLines sep sep' g) (xs : List α) :
    lines sep' (xs.flatMap g) = (lines sep xs).map (List.flatMap g) := by
  obtain ⟨ls, rest, h⟩ := exists_lined sep xs
  rw [(hg.lined_flatMap h).lines_eq, h.lines_eq, List.map_append]
  cases rest with
  | nil => rfl
  | cons c rest => simp [lastLine, hg.ne_nil]

end KeepsLines

/-! ### Trimmed lines -/

theorem trim_concat (cs : List Char) {c : Char} (hc : isBlank c = true) :
    trim (cs ++ [c]) = trim cs := by
  have hend (ds : List Char) : trimEnd (ds ++ [c]) = trimEnd ds := by
    simp [trimEnd, hc]
  rw [trim, trim, trimStart, trimStart, List.dropWhile_append]
  split
  next hempty =>
    rw [List.isEmpty_iff.mp hempty]
    simp [hc]
  next => exact hend _

theorem trim_append (cs : List Char) {blanks : List Char} (h : blanks.all isBlank = true) :
    trim (cs ++ blanks) = trim cs := by
  induction blanks generalizing cs with
  | nil => rw [List.append_nil]
  | cons c blanks ih =>
      obtain ⟨hc, hblanks⟩ : isBlank c = true ∧ blanks.all isBlank = true := by
        simpa only [List.all_cons, Bool.and_eq_true] using h
      rw [List.append_cons, ih _ hblanks, trim_concat cs hc]

theorem exists_isBlank_eq_false_of_trim_ne_nil {cs : List Char} (h : trim cs ≠ []) :
    ∃ c ∈ trim cs, isBlank c = false := by
  have hne : (trimStart cs).reverse.dropWhile isBlank ≠ [] := by
    intro hnil
    apply h
    rw [trim, trimEnd, hnil, List.reverse_nil]
  refine ⟨_, ?_, List.head_dropWhile_not isBlank hne⟩
  rw [trim, trimEnd, List.mem_reverse]
  exact List.head_mem hne

theorem trim_chomp (line : List Char) : trim (chomp line) = trim line := by
  unfold chomp
  split
  next cs heq =>
    have hline : line = cs.reverse ++ ['\r', '\n'] := by
      rw [← List.reverse_reverse line, heq]
      simp
    rw [hline, trim_append _ (by decide)]
  next cs _ heq =>
    have hline : line = cs.reverse ++ ['\n'] := by
      rw [← List.reverse_reverse line, heq]
      simp
    rw [hline, trim_append _ (by decide)]
  next => rfl

end PropLogic.Text
