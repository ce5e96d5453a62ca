import PropLogic.Proofs.Batch.Composition
import PropLogic.Proofs.Journal.Requests

/-!
# The journal of a batch

A batch writes what its entries write, one after the other: the records of the request, and a
warning if there is no table. A stream writes the same and the number of its entries. If its bytes
are not those of a text, it writes what the lines before the first bad one write, and no number.
-/

namespace PropLogic.Journal

def writtenEntry (e : Entry) : List (Level × String) :=
  written (Journal.answer e.expression).records ++
    match e.outcome with
    | .ok _ => []
    | .error error => [(.warn, s!"line {e.line}: {error.message}")]

/-! ### Lines of texts -/

private theorem entries_eq_flatMap_lineEntries (number : Nat) (ls : List (List Char)) :
    Batch.entries number ls = (ls.zipIdx number).flatMap fun (cs, n) => Batch.lineEntries n cs := by
  induction ls generalizing number with
  | nil => rfl
  | cons cs ls ih => rw [Batch.entries_cons, ih, List.zipIdx_cons, List.flatMap_cons]

private theorem written_line (number : Nat) (cs : List Char) :
    written (line number cs).records = (Batch.lineEntries number cs).flatMap writtenEntry := by
  rw [← Batch.toList_ofLine?, Batch.ofLine?, line]
  cases Batch.request? cs with
  | none => rfl
  | some request =>
      have hvalue := value_answer request
      simp only [Option.map_some, Option.toList_some, List.flatMap_singleton, writtenEntry,
        Logged.records_bind, written_append]
      cases houtcome : PropLogic.answer request with
      | ok t =>
          rw [hvalue, houtcome]
          rfl
      | error e =>
          rw [hvalue, houtcome]
          rfl

private theorem written_lines (number : Nat) (ls : List (List Char)) :
    written (lines number ls).records = (Batch.entries number ls).flatMap writtenEntry := by
  induction ls generalizing number with
  | nil => rfl
  | cons cs ls ih => simp [lines, Batch.entries_cons, written_line, ih]

private theorem written_batchOfText (text : String) :
    written (batchOfText text).records = (Batch.ofText text).flatMap writtenEntry :=
  written_lines 1 (Batch.lines text)

/-! ### Lines of streams -/

private theorem records_decodedLines_map_some (number : Nat) (ls : List (List Char)) :
    (decodedLines number (ls.map some)).records = (lines number ls).records := by
  induction ls generalizing number with
  | nil => rfl
  | cons cs ls ih => simp [decodedLines, lines, ih]

private theorem records_decodedLines_map_some_append_none (number : Nat) (ls : List (List Char))
    (rest : List (Option (List Char))) :
    (decodedLines number (ls.map some ++ none :: rest)).records = (lines number ls).records := by
  induction ls generalizing number with
  | nil => rfl
  | cons cs ls ih => simp [decodedLines, lines, ih]

/-! ### Streams -/

private theorem records_batchOfStream_of_ok {chunks : List ByteArray} {es : List Entry}
    (h : Batch.ofStream chunks = .ok es) :
    (batchOfStream chunks).records =
      (decodedLines 1 ((Batch.streamLines [] chunks).map Batch.decodeLine?)).records ++
        [.processed es.length] := by
  have hvalue := value_decodedLines 1 ((Batch.streamLines [] chunks).map Batch.decodeLine?)
  rw [← Batch.ofStream, h] at hvalue
  simp [batchOfStream, hvalue]

private theorem records_batchOfStream_of_error {chunks : List ByteArray} {e : ReadError}
    (h : Batch.ofStream chunks = .error e) :
    (batchOfStream chunks).records =
      (decodedLines 1 ((Batch.streamLines [] chunks).map Batch.decodeLine?)).records := by
  have hvalue := value_decodedLines 1 ((Batch.streamLines [] chunks).map Batch.decodeLine?)
  rw [← Batch.ofStream, h] at hvalue
  simp [batchOfStream, hvalue]

private theorem records_batchOfStream_of_joined_eq {chunks : List ByteArray} {text : String}
    (h : Batch.joined chunks = text.toUTF8) :
    (batchOfStream chunks).records =
      (batchOfText text).records ++ [.processed (Batch.ofText text).length] := by
  rw [records_batchOfStream_of_ok (Batch.ofStream_of_joined_eq h),
    Batch.streamLines_eq_lines List.not_mem_nil, List.nil_append, h, Batch.map_decodeLine?_lines,
    records_decodedLines_map_some, batchOfText]

private theorem exists_first_not_isValidUTF8 {ls : List (List UInt8)}
    (h : ∃ line ∈ ls, ¬ line.toByteArray.IsValidUTF8) :
    ∃ before bad after, ls = before ++ bad :: after ∧
      (∀ line ∈ before, line.toByteArray.IsValidUTF8) ∧ ¬ bad.toByteArray.IsValidUTF8 := by
  induction ls with
  | nil => simp at h
  | cons line ls ih =>
      by_cases hline : line.toByteArray.IsValidUTF8
      · have hrest : ∃ line ∈ ls, ¬ line.toByteArray.IsValidUTF8 := by simpa [hline] using h
        obtain ⟨before, bad, after, rfl, hbefore, hbad⟩ := ih hrest
        exact ⟨line :: before, bad, after, rfl, List.forall_mem_cons.mpr ⟨hline, hbefore⟩, hbad⟩
      · exact ⟨[], line, ls, rfl, by simp, hline⟩

/-- If the bytes of a stream encode no text, then the lines before the first bad one do, and the
stream writes what these lines write. -/
private theorem records_batchOfStream_of_not_isValidUTF8 {chunks : List ByteArray}
    (h : ¬ (Batch.joined chunks).IsValidUTF8) :
    ∃ before bad after, ∃ text : String,
      Text.lines Batch.lineFeed (Batch.joined chunks).data.toList = before ++ bad :: after ∧
      (∀ line ∈ before, line.toByteArray.IsValidUTF8) ∧ ¬ bad.toByteArray.IsValidUTF8 ∧
      before.flatten.toByteArray = text.toUTF8 ∧
      (batchOfStream chunks).records = (batchOfText text).records := by
  obtain ⟨before, bad, after, hlines, hbefore, hbad⟩ :=
    exists_first_not_isValidUTF8 (Batch.exists_not_isValidUTF8_of_lines h)
  obtain ⟨text, hbytes⟩ := Batch.isValidUTF8_iff.mp (Batch.isValidUTF8_flatten hbefore)
  -- the lines before another line are complete, so they are also the lines of the text
  have hdecoded : before.map Batch.decodeLine? = (Batch.lines text).map some := by
    rw [← Batch.map_decodeLine?_lines, ← hbytes, List.toList_data_toByteArray,
      Text.lines_flatten_of_lines_eq hlines]
  refine ⟨before, bad, after, text, hlines, hbefore, hbad, hbytes, ?_⟩
  rw [records_batchOfStream_of_error (Batch.ofStream_of_not_isValidUTF8 h),
    Batch.streamLines_eq_lines List.not_mem_nil, List.nil_append, hlines, List.map_append,
    List.map_cons, Batch.decodeLine?_eq_none_iff.mpr hbad, hdecoded,
    records_decodedLines_map_some_append_none, batchOfText]

/-! ### Records and results -/

/-- The records of a request tell what became of it. A batch writes the records of its entries line
by line, each followed by a warning if it failed, and a stream of a text writes the same and the
number of entries. A stream of other bytes writes only what the lines before the first bad one
write. -/
theorem records_match_results :
    (∀ request, Writes request (Journal.answer request).value
      (written (Journal.answer request).records)) ∧
    (∀ text : String,
      (batchOfText text).value =
        ((text.toList.splitOn '\n').zipIdx 1).flatMap (fun (cs, n) => Batch.lineEntries n cs) ∧
      written (batchOfText text).records = (batchOfText text).value.flatMap writtenEntry) ∧
    ∀ chunks : List ByteArray,
      (∀ text : String, Batch.joined chunks = text.toUTF8 →
        (batchOfStream chunks).value = .ok (batchOfText text).value ∧
        written (batchOfStream chunks).records = written (batchOfText text).records ++
          [(.debug, s!"processed {(batchOfText text).value.length} expression(s)")]) ∧
      ((¬ ∃ text : String, Batch.joined chunks = text.toUTF8) →
        (batchOfStream chunks).value = .error .invalidUtf8 ∧
        ∃ before bad after, ∃ text : String,
          Text.lines Batch.lineFeed (Batch.joined chunks).data.toList = before ++ bad :: after ∧
          (∀ line ∈ before, line.toByteArray.IsValidUTF8) ∧ ¬ bad.toByteArray.IsValidUTF8 ∧
          before.flatten.toByteArray = text.toUTF8 ∧
          written (batchOfStream chunks).records = written (batchOfText text).records) := by
  refine ⟨?_, ?_, ?_⟩
  · intro request
    rw [value_answer]
    exact writes_answer request
  · intro text
    rw [value_batchOfText]
    refine ⟨?_, written_batchOfText text⟩
    rw [Batch.ofText_eq_entries_splitOn, entries_eq_flatMap_lineEntries]
  · intro chunks
    refine ⟨?_, ?_⟩
    · intro text h
      rw [value_batchOfStream, value_batchOfText, Batch.ofStream_of_joined_eq h,
        records_batchOfStream_of_joined_eq h, written_append]
      exact ⟨rfl, rfl⟩
    · intro hnone
      rw [← Batch.isValidUTF8_iff] at hnone
      obtain ⟨before, bad, after, text, hlines, hbefore, hbad, htext, hrecords⟩ :=
        records_batchOfStream_of_not_isValidUTF8 hnone
      rw [value_batchOfStream, hrecords]
      exact ⟨Batch.ofStream_of_not_isValidUTF8 hnone, before, bad, after, text, hlines, hbefore,
        hbad, htext, rfl⟩

/-- A character in two chunks, and a byte that begins no character behind a line that is answered. -/
theorem records_match_results_split :
    (∃ chunks : List ByteArray, chunks = [⟨#[0xc2]⟩, ⟨#[0xac, 0x70]⟩] ∧
      Batch.joined chunks = "¬p".toUTF8 ∧
      written (batchOfStream chunks).records = written (batchOfText "¬p").records ++
        [(.debug, "processed 1 expression(s)")]) ∧
    (¬ ∃ text : String, Batch.joined [⟨#[0x70, 0x0a, 0xff]⟩] = text.toUTF8) ∧
    (batchOfStream [⟨#[0x70, 0x0a, 0xff]⟩]).value = .error .invalidUtf8 ∧
    written (batchOfStream [⟨#[0x70, 0x0a, 0xff]⟩]).records =
      written (batchOfText "p\n").records := by
  have hbytes : Batch.joined [⟨#[0xc2]⟩, ⟨#[0xac, 0x70]⟩] = "¬p".toUTF8 := by decide
  have hlength : (batchOfText "¬p").value.length = 1 := by rfl
  have hwhole := ((records_match_results.2.2 _).1 "¬p" hbytes).2
  rw [hlength] at hwhole
  have hnone : ¬ ∃ text : String, Batch.joined [⟨#[0x70, 0x0a, 0xff]⟩] = text.toUTF8 := by
    rw [← Batch.isValidUTF8_iff]
    decide
  obtain ⟨hvalue, before, bad, after, text, hlines, -, hbad, htext, hwritten⟩ :=
    (records_match_results.2.2 _).2 hnone
  have hcut : Text.lines Batch.lineFeed (Batch.joined [⟨#[0x70, 0x0a, 0xff]⟩]).data.toList =
      [[0x70, 0x0a], [0xff]] := by decide
  rw [hcut] at hlines
  have hbefore : before = [[0x70, 0x0a]] := by
    rcases before with _ | ⟨line, _ | ⟨line', before⟩⟩
    · obtain ⟨rfl, -⟩ := List.cons.inj hlines
      exact absurd (by decide) hbad
    · obtain ⟨rfl, -⟩ := List.cons.inj hlines
      rfl
    · have hcount := congrArg List.length hlines
      simp at hcount
  have hanswered : text = "p\n" := by
    apply String.toByteArray_inj.mp
    rw [← String.toUTF8_eq_toByteArray, ← htext, hbefore]
    decide
  rw [hanswered] at hwritten
  exact ⟨⟨_, rfl, hbytes, hwhole⟩, hnone, hvalue, hwritten⟩

end PropLogic.Journal
