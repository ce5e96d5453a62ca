import PropLogic.CommandLine.Report
import PropLogic.Proofs.Batch.Stream

/-!
# Runs that answer a batch

What a batch prints on standard output and its exit status depend on the bytes of the source only:
not on whether the source is the standard input or a file, and not on the log records that are asked
for. Bytes that encode a text give the printed entries of the text, and all other bytes print
nothing and fail.
-/

namespace PropLogic.CommandLine

/-! ### Printed entries -/

/-- A request on a line of its own and, if it was answered, the table below it. -/
def printedEntry (e : Entry) : String :=
  e.expression ++ "\n" ++
    match e.outcome with
    | .ok t => t.text ++ "\n"
    | .error _ => ""

/-- The printed form of an entry at its place in a batch. An empty line goes before every entry but
the first, whatever came of the entries before it. -/
def placedEntry : Entry × Nat → String
  | (e, i) => (if 0 < i then "\n" else "") ++ printedEntry e

def printedEntries (es : List Entry) : String := String.join (es.zipIdx.map placedEntry)

private theorem entryText_eq_printedEntry (e : Entry) : Report.entryText e = printedEntry e := by
  unfold Report.entryText printedEntry
  cases e.outcome with
  | ok t => simp only [String.append_assoc]
  | error _ => simp

private theorem intercalate_cons_eq_join (separator first : String) (rest : List String) :
    separator.intercalate (first :: rest) =
      first ++ String.join (rest.map (separator ++ ·)) := by
  induction rest generalizing first with
  | nil => simp
  | cons second rest ih =>
      rw [String.intercalate_cons_cons, ih, List.map_cons, String.join_cons]
      simp only [String.append_assoc]

private theorem map_placedEntry_zipIdx_succ (es : List Entry) (n : Nat) :
    (es.zipIdx (n + 1)).map placedEntry = es.map fun e => "\n" ++ printedEntry e := by
  induction es generalizing n with
  | nil => rfl
  | cons e es ih =>
      rw [List.zipIdx_cons, List.map_cons, List.map_cons, ih, placedEntry,
        if_pos (Nat.succ_pos n)]

private theorem entriesText_eq_printedEntries (es : List Entry) :
    Report.entriesText es = printedEntries es := by
  have htexts : es.map Report.entryText = es.map printedEntry :=
    List.map_congr_left fun e _ => entryText_eq_printedEntry e
  rw [Report.entriesText, printedEntries, htexts]
  cases es with
  | nil => rfl
  | cons e es =>
      have hfirst : placedEntry (e, 0) = printedEntry e := String.empty_append
      rw [List.map_cons, intercalate_cons_eq_join, List.map_map, List.zipIdx_cons, List.map_cons,
        map_placedEntry_zipIdx_succ, String.join_cons, hfirst]
      rfl

/-! ### Reports of batches -/

def Report.visible (r : Report) : String × Nat := (r.output, r.status)

/-- What a run shows that answers a batch with the given entries. -/
def visibleEntries (es : List Entry) : String × Nat :=
  (printedEntries es, if ∀ e ∈ es, e.outcome.isOk = true then 0 else 1)

def visibleBytes (bytes : ByteArray) : String × Nat :=
  match String.fromUTF8? bytes with
  | some text => visibleEntries (Batch.ofText text)
  | none => ("", 1)

private theorem visible_ofBatch_of_ok {bytes : ByteArray} {es : List Entry}
    (h : Batch.ofStream [bytes] = .ok es) (o : Options) (source : Source) :
    (Report.ofBatch o source (.ok bytes)).visible = visibleEntries es := by
  have hvalue : (Journal.batchOfStream [bytes]).value = .ok es := by
    rw [Journal.value_batchOfStream, h]
  simp only [Report.ofBatch, Journal.Logged.value_bind, hvalue, Report.visible, visibleEntries,
    entriesText_eq_printedEntries, List.all_eq_true, Entry.succeeded]

private theorem visible_ofBatch_of_error {bytes : ByteArray} {e : ReadError}
    (h : Batch.ofStream [bytes] = .error e) (o : Options) (source : Source) :
    (Report.ofBatch o source (.ok bytes)).visible = ("", 1) := by
  have hvalue : (Journal.batchOfStream [bytes]).value = .error e := by
    rw [Journal.value_batchOfStream, h]
  simp only [Report.ofBatch, Journal.Logged.value_bind, hvalue, Report.visible]

private theorem fromUTF8?_eq_some_iff {bytes : ByteArray} {text : String} :
    String.fromUTF8? bytes = some text ↔ text.toUTF8 = bytes := by
  constructor
  · intro h
    rw [String.fromUTF8?] at h
    split at h
    next hvalid =>
      cases h
      rfl
    next => cases h
  · rintro rfl
    exact Batch.fromUTF8?_toByteArray text

theorem visible_ofBatch (o : Options) (source : Source) (bytes : ByteArray) :
    (Report.ofBatch o source (.ok bytes)).visible = visibleBytes bytes := by
  have hjoined : Batch.joined [bytes] = bytes := ByteArray.append_empty
  unfold visibleBytes
  split
  next text htext =>
    rw [fromUTF8?_eq_some_iff] at htext
    exact visible_ofBatch_of_ok (Batch.ofStream_of_joined_eq (hjoined.trans htext.symm)) o source
  next hnone =>
    have hinvalid : ¬ (Batch.joined [bytes]).IsValidUTF8 := by
      rw [hjoined]
      intro hvalid
      rw [String.fromUTF8?, dif_pos hvalid] at hnone
      cases hnone
    exact visible_ofBatch_of_error (Batch.ofStream_of_not_isValidUTF8 hinvalid) o source

/-! ### Arguments that ask for a batch -/

/-- The arguments for the log records that are usually asked for: warnings, more, or only errors. -/
def verbosities : List (List String) := [[], ["-v"], ["-q"]]

/-- The arguments that name the file `path`. A name in an argument of its own does not look like an
option. -/
inductive NamesFile (path : String) : List String → Prop where
  | separate : Reading.isOption path.toList = false → NamesFile path ["--file", path]
  | attached : NamesFile path ["--file=" ++ path]

def Options.withFile (o : Options) (path : String) : Options := { o with file? := some path }

namespace Reading

private theorem file_eq_ok {o : Options} {path : String} (hpath : path ≠ "") (hfile : o.file? = none)
    (fileDue : Bool) :
    file ⟨o, fileDue, false⟩ path.toList = .ok ⟨o.withFile path, false, false⟩ := by
  have hne : path.toList.isEmpty = false := by simpa using hpath
  rw [file, hne, hfile, String.ofList_toList]
  rfl

private theorem step_of_fileDue {path : String} (hoption : isOption path.toList = false) (o : Options) :
    step ⟨o, true, false⟩ path = file ⟨o, true, false⟩ path.toList := by
  simp [step, hoption]

private theorem step_attached (o : Options) (path : String) :
    step ⟨o, false, false⟩ ("--file=" ++ path) = file ⟨o, false, false⟩ path.toList := by
  have hchars : ("--file=" ++ path).toList = '-' :: '-' :: 'f' :: 'i' :: 'l' :: 'e' :: '=' ::
      path.toList := String.toList_append
  rw [step, hchars]
  rfl

end Reading

private theorem NamesFile.foldlM_step {path : String} {named : List String} (h : NamesFile path named)
    (hpath : path ≠ "") {o : Options} (hfile : o.file? = none) :
    named.foldlM Reading.step ⟨o, false, false⟩ = .ok ⟨o.withFile path, false, false⟩ := by
  cases h with
  | separate hoption =>
      have hdue : Reading.step ⟨o, false, false⟩ "--file" = .ok ⟨o, true, false⟩ := rfl
      rw [List.foldlM_cons, hdue]
      change [path].foldlM Reading.step ⟨o, true, false⟩ = _
      rw [List.foldlM_cons, Reading.step_of_fileDue hoption, Reading.file_eq_ok hpath hfile]
      rfl
  | attached =>
      rw [List.foldlM_cons, Reading.step_attached, Reading.file_eq_ok hpath hfile]
      rfl

private theorem NamesFile.ofArguments {path : String} {before named after : List String}
    (h : NamesFile path named) (hpath : path ≠ "") {o o' : Options} {r : Reading}
    (hbefore : before.foldlM Reading.step .start = .ok ⟨o, false, false⟩) (hfile : o.file? = none)
    (hafter : after.foldlM Reading.step ⟨o.withFile path, false, false⟩ = .ok r)
    (hfinish : r.finish = .ok o') : Options.ofArguments (before ++ named ++ after) = .ok o' := by
  have hnamed := h.foldlM_step hpath hfile
  rw [Options.ofArguments, List.foldlM_append, List.foldlM_append, hbefore]
  change ((named.foldlM Reading.step ⟨o, false, false⟩ >>= after.foldlM Reading.step) >>=
    Reading.finish) = .ok o'
  rw [hnamed]
  change (after.foldlM Reading.step ⟨o.withFile path, false, false⟩ >>= Reading.finish) = .ok o'
  rw [hafter]
  exact hfinish

private theorem verbosity_cases {before after : List String} (h : before ++ after ∈ verbosities) :
    (before = [] ∧ after = []) ∨ (before = [] ∧ after = ["-v"]) ∨ (before = ["-v"] ∧ after = []) ∨
      (before = [] ∧ after = ["-q"]) ∨ (before = ["-q"] ∧ after = []) := by
  simpa [verbosities, List.append_eq_singleton_iff, or_assoc] using h

private theorem exists_ofArguments_file {path : String} {before named after : List String}
    (h : before ++ after ∈ verbosities) (hnamed : NamesFile path named) (hpath : path ≠ "") :
    ∃ o, Options.ofArguments (before ++ named ++ after) = .ok o ∧ o.job = .batch (.file path) := by
  rcases verbosity_cases h with ⟨rfl, rfl⟩ | ⟨rfl, rfl⟩ | ⟨rfl, rfl⟩ | ⟨rfl, rfl⟩ | ⟨rfl, rfl⟩
  all_goals exact ⟨_, hnamed.ofArguments hpath rfl rfl rfl rfl, rfl⟩

private theorem exists_ofArguments_standardInput {before after : List String}
    (h : before ++ after ∈ verbosities) :
    ∃ o, Options.ofArguments (before ++ after) = .ok o ∧ o.job = .batch .standardInput := by
  rcases verbosity_cases h with ⟨rfl, rfl⟩ | ⟨rfl, rfl⟩ | ⟨rfl, rfl⟩ | ⟨rfl, rfl⟩ | ⟨rfl, rfl⟩
  all_goals exact ⟨_, rfl, rfl⟩

/-! ### Runs -/

private theorem run_eq_ofBatch {args : List String} {o : Options} {source : Source}
    (hargs : Options.ofArguments args = .ok o) (hjob : o.job = .batch source) (input : ByteArray)
    (files : String → Except ReadError ByteArray) :
    run args input files = .ofBatch o source (source.content input files) := by
  simp only [run, hargs, hjob, Job.source?, Report.ofOptions]

private theorem visibleBytes_toUTF8 (text : String) :
    visibleBytes text.toUTF8 = visibleEntries (Batch.ofText text) := by
  rw [visibleBytes, fromUTF8?_eq_some_iff.mpr rfl]

private theorem visibleBytes_of_ne_toUTF8 {bytes : ByteArray}
    (h : ∀ text : String, text.toUTF8 ≠ bytes) :
    visibleBytes bytes = ("", 1) := by
  unfold visibleBytes
  split
  next text htext => exact absurd (fromUTF8?_eq_some_iff.mp htext) (h text)
  next => rfl

/-- A run that answers a batch shows the same whether the bytes come from the standard input or from
a file, and whether warnings, more records or only errors are asked for. If the bytes encode a text,
the output has the entries of the text with an empty line between one and the next, and the status
is zero if every entry was answered and one otherwise. If they encode no text, there is no output
and the status is one. -/
theorem run_batch_of_bytes {bytes : ByteArray} {path : String} {before named after : List String}
    (hverbosity : before ++ after ∈ verbosities) (hnamed : NamesFile path named) (hpath : path ≠ "")
    {files : String → Except ReadError ByteArray} (hfile : files path = .ok bytes)
    (input : ByteArray) (otherFiles : String → Except ReadError ByteArray) :
    (run (before ++ after) bytes otherFiles).visible = visibleBytes bytes ∧
      (run (before ++ named ++ after) input files).visible = visibleBytes bytes ∧
      (∀ text : String, text.toUTF8 = bytes →
        visibleBytes bytes = (printedEntries (Batch.ofText text),
          if ∀ e ∈ Batch.ofText text, e.outcome.isOk = true then 0 else 1)) ∧
      ((∀ text : String, text.toUTF8 ≠ bytes) → visibleBytes bytes = ("", 1)) := by
  obtain ⟨o, hargs, hjob⟩ := exists_ofArguments_standardInput hverbosity
  obtain ⟨o', hargs', hjob'⟩ := exists_ofArguments_file hverbosity hnamed hpath
  refine ⟨?_, ?_, ?_, visibleBytes_of_ne_toUTF8⟩
  · rw [run_eq_ofBatch hargs hjob]
    exact visible_ofBatch o .standardInput bytes
  · rw [run_eq_ofBatch hargs' hjob', Source.content, hfile]
    exact visible_ofBatch o' (.file path) bytes
  · rintro text rfl
    exact visibleBytes_toUTF8 text

/-- The second request is refused: it is printed without a table, and the run fails. -/
theorem run_batch_of_bytes_refused :
    ["-v"] ++ [] ∈ verbosities ∧ NamesFile "laws" ["--file", "laws"] ∧ "laws" ≠ "" ∧
      (run ["-v"] "p\nx\n".toUTF8 fun _ => .error .notFound).visible =
        ("p\np | Resultado\n-------------\n1 | 1\n0 | 0\nA proposição é uma CONTINGÊNCIA.\n\nx\n", 1) ∧
      (run ["-v", "--file", "laws"] .empty fun _ => .ok "p\nx\n".toUTF8).visible =
        ("p\np | Resultado\n-------------\n1 | 1\n0 | 0\nA proposição é uma CONTINGÊNCIA.\n\nx\n", 1) ∧
      (run ["-q"] ⟨#[0x70, 0x0a, 0xff]⟩ fun _ => .error .notFound).visible = ("", 1) := by
  have hverbose : ["-v"] ++ [] ∈ verbosities := by decide
  have hnamed : NamesFile "laws" ["--file", "laws"] := .separate (by decide)
  have hentries : visibleEntries (Batch.ofText "p\nx\n") =
      ("p\np | Resultado\n-------------\n1 | 1\n0 | 0\nA proposição é uma CONTINGÊNCIA.\n\nx\n", 1) := by
    rfl
  obtain ⟨hinput, hfile, htext, -⟩ :=
    @run_batch_of_bytes "p\nx\n".toUTF8 "laws" ["-v"] _ [] hverbose hnamed (by decide)
      (fun _ => .ok "p\nx\n".toUTF8) rfl .empty fun _ => .error .notFound
  obtain ⟨hquiet, -, -, hinvalid⟩ :=
    @run_batch_of_bytes ⟨#[0x70, 0x0a, 0xff]⟩ "laws" ["-q"] _ [] (by decide) hnamed (by decide)
      (fun _ => .ok ⟨#[0x70, 0x0a, 0xff]⟩) rfl .empty fun _ => .error .notFound
  have hvisible := (htext "p\nx\n" rfl).trans hentries
  refine ⟨hverbose, hnamed, by decide, hinput.trans hvisible, hfile.trans hvisible, ?_⟩
  apply hquiet.trans
  apply hinvalid
  intro text htext
  have hvalid : ¬ ByteArray.IsValidUTF8 ⟨#[0x70, 0x0a, 0xff]⟩ := by decide
  exact hvalid (htext ▸ text.isValidUTF8)

end PropLogic.CommandLine
