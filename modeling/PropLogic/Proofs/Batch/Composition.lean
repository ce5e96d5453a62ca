import PropLogic.Proofs.Batch.Stream
import PropLogic.Proofs.Request.Failure

/-!
# Batches line by line

A batch has the entries of the pieces between its line feeds, one after the other: how a line ends
and whether the last one ends at all does not matter. An entry depends on its own line only. Putting
a batch below another one moves its entries down by the number of lines above.
-/

namespace PropLogic

/-- The entry of the same request `k` lines further down. -/
def Entry.moveDown (k : Nat) (e : Entry) : Entry := { e with line := e.line + k }

namespace Batch

/-- The entries of a single line, which is skipped if it is blank or a comment. -/
def lineEntries (number : Nat) (line : List Char) : List Entry :=
  if Text.trim line = [] ∨ ['#'] <+: Text.trim line then []
  else [⟨number, String.ofList (Text.trim line), answer (String.ofList (Text.trim line))⟩]

/-! ### Entries of lines -/

theorem toList_ofLine? (number : Nat) (line : List Char) :
    (ofLine? number line).toList = lineEntries number line := by
  unfold ofLine? request? lineEntries
  split
  next h => simp [h]
  next h => simp [h]
  next h =>
    have hcomment : ¬ ['#'] <+: Text.trim line := by
      intro hfits
      obtain ⟨cs, hcs⟩ := hfits
      exact h cs hcs.symm
    simp_all

theorem entries_cons (number : Nat) (line : List Char) (ls : List (List Char)) :
    entries number (line :: ls) = lineEntries number line ++ entries (number + 1) ls := by
  rw [entries, toList_ofLine?]

private theorem line_of_mem_lineEntries {number : Nat} {line : List Char} {e : Entry}
    (h : e ∈ lineEntries number line) : e.line = number := by
  unfold lineEntries at h
  split at h
  next => cases h
  next => simp_all

private theorem lineEntries_add (number k : Nat) (line : List Char) :
    lineEntries (number + k) line = (lineEntries number line).map (Entry.moveDown k) := by
  unfold lineEntries
  split
  next => rfl
  next => rfl

theorem entries_append (number : Nat) (ls ls' : List (List Char)) :
    entries number (ls ++ ls') = entries number ls ++ entries (number + ls.length) ls' := by
  induction ls generalizing number with
  | nil => rfl
  | cons line ls ih =>
      have hlength : number + (line :: ls).length = number + 1 + ls.length := by
        simp only [List.length_cons]
        omega
      rw [List.cons_append, entries_cons, entries_cons, ih, hlength, List.append_assoc]

private theorem entries_add (number k : Nat) (ls : List (List Char)) :
    entries (number + k) ls = (entries number ls).map (Entry.moveDown k) := by
  induction ls generalizing number with
  | nil => rfl
  | cons line ls ih =>
      have hnumber : number + k + 1 = number + 1 + k := by omega
      rw [entries_cons, entries_cons, lineEntries_add, hnumber, ih, List.map_append]

private theorem le_line_of_mem_entries {number : Nat} {ls : List (List Char)} {e : Entry}
    (h : e ∈ entries number ls) : number ≤ e.line := by
  induction ls generalizing number with
  | nil => cases h
  | cons line ls ih =>
      rw [entries_cons, List.mem_append] at h
      rcases h with h | h
      · exact Nat.le_of_eq (line_of_mem_lineEntries h).symm
      · exact Nat.le_of_succ_le (ih h)

private theorem pairwise_entries (number : Nat) (ls : List (List Char)) :
    (entries number ls).Pairwise fun e later => e.line < later.line := by
  induction ls generalizing number with
  | nil => exact .nil
  | cons line ls ih =>
      rw [entries_cons, List.pairwise_append]
      refine ⟨?_, ih (number + 1), ?_⟩
      · unfold lineEntries
        split <;> simp
      · intro e he later hlater
        rw [line_of_mem_lineEntries he]
        exact le_line_of_mem_entries hlater

private theorem filter_entries (number n : Nat) (ls : List (List Char)) :
    (entries number ls).filter (fun e => e.line == number + n) =
      match ls[n]? with
      | some line => lineEntries (number + n) line
      | none => [] := by
  induction ls generalizing number n with
  | nil => rfl
  | cons line ls ih =>
      rw [entries_cons, List.filter_append]
      cases n with
      | zero =>
          have hline : (lineEntries number line).filter (fun e => e.line == number) =
              lineEntries number line := by
            rw [List.filter_eq_self]
            intro e he
            simp [line_of_mem_lineEntries he]
          have hrest : (entries (number + 1) ls).filter (fun e => e.line == number) = [] := by
            rw [List.filter_eq_nil_iff]
            intro e he
            have hle := le_line_of_mem_entries he
            simp only [beq_iff_eq]
            omega
          simpa [hrest] using hline
      | succ n =>
          have hline : (lineEntries number line).filter (fun e => e.line == number + (n + 1)) = [] := by
            rw [List.filter_eq_nil_iff]
            intro e he
            simp [line_of_mem_lineEntries he]
          have hnumber : number + (n + 1) = number + 1 + n := by omega
          rw [hline, hnumber, ih]
          rfl

/-! ### Entries of texts -/

private theorem entries_append_lastLine (number : Nat) (ls : List (List Char)) (rest : List Char) :
    entries number (ls ++ Text.lastLine rest) = entries number (ls ++ [rest]) := by
  cases rest with
  | nil =>
      have hskipped : entries (number + ls.length) [[]] = [] := rfl
      rw [entries_append number ls [[]], hskipped]
      simp [Text.lastLine]
  | cons c rest => rfl

/-- Whether and how a line ends does not matter for the entries. -/
theorem ofText_eq_entries_splitOn (text : String) :
    ofText text = entries 1 (text.toList.splitOn '\n') := by
  have hne := List.splitOn_ne_nil '\n' text.toList
  have hpieces := List.dropLast_concat_getLast hne
  have hlast : (text.toList.splitOn '\n').getLast?.getD [] =
      (text.toList.splitOn '\n').getLast hne := by
    rw [List.getLast?_eq_some_getLast hne, Option.getD_some]
  have hfeed (line : List Char) : Text.trim (line ++ ['\n']) = Text.trim line :=
    Text.trim_concat line (by decide)
  have htrim : (lines text).map Text.trim =
      ((text.toList.splitOn '\n').dropLast ++
        Text.lastLine ((text.toList.splitOn '\n').getLast hne)).map Text.trim := by
    simp [lines, Text.lines, Text.completeLines, hlast, Function.comp_def, Text.trim_chomp, hfeed]
  rw [ofText, entries_eq_of_map_trim_eq htrim, entries_append_lastLine, hpieces]

theorem ofText_append (a b : String) :
    ofText (a ++ "\n" ++ b) =
      ofText a ++ (ofText b).map (Entry.moveDown (a.toList.count '\n' + 1)) := by
  have htext : (a ++ "\n" ++ b).toList = a.toList ++ '\n' :: b.toList := by simp
  simp only [ofText_eq_entries_splitOn]
  rw [htext, List.splitOn_append_cons_self, entries_append, entries_add, Text.length_splitOn]

private theorem ofText_of_not_mem {x : String} (h : '\n' ∉ x.toList) :
    ofText x = lineEntries 1 x.toList := by
  rw [ofText_eq_entries_splitOn, List.splitOn_eq_singleton h, entries_cons, entries, List.append_nil]

private theorem outcome_ne_empty_of_mem_lineEntries {number : Nat} {line : List Char} {e : Entry}
    (h : e ∈ lineEntries number line) (input : String) :
    e.outcome ≠ .error (.evaluationFailure (.empty input)) := by
  unfold lineEntries at h
  split at h
  next => cases h
  next hkept =>
    rw [not_or] at hkept
    obtain ⟨c, hmem, hc⟩ := Text.exists_isBlank_eq_false_of_trim_ne_nil hkept.1
    rw [List.mem_singleton.mp h]
    intro hempty
    have hblank := (answer_eq_empty_iff.mp hempty).2 c (by simpa using hmem)
    rw [hc] at hblank
    cases hblank

private theorem outcome_ne_empty_of_mem_entries {number : Nat} {ls : List (List Char)} {e : Entry}
    (h : e ∈ entries number ls) (input : String) :
    e.outcome ≠ .error (.evaluationFailure (.empty input)) := by
  induction ls generalizing number with
  | nil => cases h
  | cons line ls ih =>
      rw [entries_cons, List.mem_append] at h
      rcases h with h | h
      · exact outcome_ne_empty_of_mem_lineEntries h input
      · exact ih h

/-- A batch below another one keeps its entries, and only their lines move down. Without a line feed
there is the entry of one line. So the lines of the entries increase, the entries on a line are
those of this line whatever the other lines are, and none of the requests is empty. -/
theorem ofText_compositional :
    (∀ a b : String, ofText (a ++ "\n" ++ b) =
      ofText a ++ (ofText b).map (Entry.moveDown (a.toList.count '\n' + 1))) ∧
    (∀ x : String, '\n' ∉ x.toList → ofText x = lineEntries 1 x.toList) ∧
    ∀ text : String,
      (ofText text).Pairwise (fun e later => e.line < later.line) ∧
      (∀ n, (ofText text).filter (fun e => e.line == 1 + n) =
        match (text.toList.splitOn '\n')[n]? with
        | some line => lineEntries (1 + n) line
        | none => []) ∧
      ∀ e ∈ ofText text, 1 ≤ e.line ∧
        ∀ input, e.outcome ≠ .error (.evaluationFailure (.empty input)) := by
  refine ⟨ofText_append, fun x => ofText_of_not_mem, fun text => ?_⟩
  rw [ofText_eq_entries_splitOn]
  refine ⟨pairwise_entries 1 _, fun n => filter_entries 1 n _, fun e he => ?_⟩
  exact ⟨le_line_of_mem_entries he, outcome_ne_empty_of_mem_entries he⟩

/-- The comment ends in a carriage return and counts as a line, and the request has white space
around it. -/
theorem ofText_compositional_comment :
    ofText ("# p\r" ++ "\n" ++ "\u3000p<q\r") = [⟨2, "p<q", answer "p<q"⟩] ∧
      ∀ input, answer "p<q" ≠ .error (.evaluationFailure (.empty input)) := by
  have hentries : ofText ("# p\r" ++ "\n" ++ "\u3000p<q\r") = [⟨2, "p<q", answer "p<q"⟩] := by
    rw [ofText_compositional.1, ofText_compositional.2.1 _ (by decide),
      ofText_compositional.2.1 _ (by decide)]
    rfl
  have hmem : ⟨2, "p<q", answer "p<q"⟩ ∈ ofText ("# p\r" ++ "\n" ++ "\u3000p<q\r") := by
    rw [hentries]
    exact List.mem_singleton_self _
  exact ⟨hentries, ((ofText_compositional.2.2 _).2.2 _ hmem).2⟩

end Batch

end PropLogic
