import Mathlib.Data.List.Basic
import PropLogic.Journal.Answer
import PropLogic.Proofs.Request.Failure

/-!
# The journal of a request

What is written while a request is answered says how far the answer came. A rejected request leaves
its rejection only, and one whose canonical form is no formula leaves the canonical form only. An
answered one leaves the canonical form, the formula, what is tabulated, and one record for each row
of the table in the order of the rows.
-/

namespace PropLogic

theorem Assignment.bindings_ofColumns {columns : List Variable}
    (hcolumns : columns.Sublist Variable.all)
    {values : List Bool} (hlength : values.length = columns.length) :
    (ofColumns columns values).bindings = columns.zip values := by
  have hnodup : Variable.all.Nodup := by decide
  -- along the list of all variables, where a variable without a column has no binding
  unfold bindings ofColumns
  generalize Variable.all = vs at hcolumns hnodup ⊢
  induction hcolumns generalizing values with
  | slnil => rfl
  | @cons columns vs v hcolumns ih =>
      obtain ⟨hv, hvs⟩ := List.nodup_cons.mp hnodup
      have hunbound : (columns.zip values).lookup v = none := by
        rw [List.lookup_eq_none_iff]
        intro binding hbinding
        obtain ⟨w, b⟩ := binding
        have hw := hcolumns.subset (List.of_mem_zip hbinding).1
        have hne : v ≠ w := fun heq => hv (heq ▸ hw)
        simpa using hne
      rw [List.filterMap_cons, hunbound, ih hlength hvs]
      rfl
  | @cons_cons columns vs v hcolumns ih =>
      obtain ⟨hv, hvs⟩ := List.nodup_cons.mp hnodup
      cases values with
      | nil => cases hlength
      | cons b values =>
          have hrest : vs.filterMap (fun w => (((v, b) :: columns.zip values).lookup w).map (w, ·)) =
              vs.filterMap fun w => ((columns.zip values).lookup w).map (w, ·) := by
            apply List.filterMap_congr
            intro w hw
            have hne : (w == v) = false := by
              have hwv : w ≠ v := fun heq => hv (heq ▸ hw)
              simpa using hwv
            rw [List.lookup_cons, hne]
          rw [List.zip_cons_cons, List.filterMap_cons, hrest, ih (Nat.succ.inj hlength) hvs]
          simp

namespace Journal

def written (rs : List Record) : List (Level × String) := rs.map fun r => (r.level, r.message)

@[simp] theorem written_nil : written [] = [] := rfl

@[simp] theorem written_cons (r : Record) (rs : List Record) :
    written (r :: rs) = (r.level, r.message) :: written rs := rfl

@[simp] theorem written_append (rs rs' : List Record) :
    written (rs ++ rs') = written rs ++ written rs' := List.map_append

/-- A row as it is written: each column with its value, and the result. -/
def rowText (columns : List Variable) (row : Row) : String :=
  let cells := (columns.zip row.values).map fun (v, b) => s!"{v.capital}: {b}"
  "\x7b" ++ String.intercalate ", " cells ++ "\x7d" ++ s!" => {row.result}"

private theorem message_evaluated (columns : List Variable) (row : Row) :
    (Record.evaluated (columns.zip row.values) row.result).message = rowText columns row := by
  change s!"{Record.bindingsText (columns.zip row.values)} => {row.result}" = _
  rw [rowText, Record.bindingsText]
  exact String.append_assoc ..

/-! ### Tables -/

private theorem exists_of_bind_eq_ok {ε α β : Type} {x : Except ε α} {g : α → Except ε β} {b : β}
    (h : x >>= g = .ok b) : ∃ a, x = .ok a ∧ g a = .ok b := by
  cases x with
  | error e => cases h
  | ok a => exact ⟨a, rfl, h⟩

private theorem values_of_row_eq_ok {f : Formula} {columns : List Variable} {values : List Bool}
    {row : Row}
    (h : TruthTable.row f columns values = .ok row) : row.values = values := by
  obtain ⟨result, -, hrow⟩ := exists_of_bind_eq_ok h
  cases hrow
  rfl

private theorem records_rows {f : Formula} {columns : List Variable} {values : List (List Bool)}
    {rs : List Row} (h : values.mapM (TruthTable.row f columns) = .ok rs) :
    (rows f columns values).records = rs.map fun row =>
      .evaluated (Assignment.ofColumns columns row.values).bindings row.result := by
  induction values generalizing rs with
  | nil =>
      cases h
      rfl
  | cons vs values ih =>
      rw [List.mapM_cons] at h
      obtain ⟨row, hrow, h⟩ := exists_of_bind_eq_ok h
      obtain ⟨rest, hrest, h⟩ := exists_of_bind_eq_ok h
      cases h
      rw [rows, hrow]
      simp [ih hrest, values_of_row_eq_ok hrow]

private theorem records_tabulate {f : Formula} {columns : List Variable} {t : TruthTable}
    (h : TruthTable.tabulate f columns = .ok t) :
    (Journal.tabulate f columns).records =
      .tabulating f t.columns.length :: t.rows.map fun row =>
        .evaluated (Assignment.ofColumns t.columns row.values).bindings row.result := by
  obtain ⟨rs, hrows, h⟩ := exists_of_bind_eq_ok h
  cases h
  simp [Journal.tabulate, records_rows hrows]

private theorem written_evaluated {t : TruthTable} (hcolumns : t.columns.Sublist Variable.all)
    (hlength : ∀ row ∈ t.rows, row.values.length = t.columns.length) :
    (written (t.rows.map fun row =>
      .evaluated (Assignment.ofColumns t.columns row.values).bindings row.result)) =
        t.rows.map fun row => (.trace, rowText t.columns row) := by
  rw [written, List.map_map]
  apply List.map_congr_left
  intro row hrow
  rw [Function.comp_apply, Assignment.bindings_ofColumns hcolumns (hlength row hrow),
    message_evaluated]
  rfl

/-! ### Requests -/

private theorem records_answer_of_checked {request : String}
    (hbalanced : Surface.parenthesesBalanced request = true)
    (hvalid : Surface.validate request = true) :
    (Journal.answer request).records = (tableOfText request).records := by
  simp only [Journal.answer, hbalanced, hvalid, Bool.not_true, Bool.false_eq_true, if_false,
    Logged.records_bind]
  cases (tableOfText request).value >>= ClassifiedTable.ofTable with
  | ok t => exact List.append_nil _
  | error e => exact List.append_nil _

private theorem records_tableOfText_of_parse_eq_error {text : String} {e : EvaluationError}
    (h : Formula.parse (Surface.normalize text) = .error e) :
    (tableOfText text).records = [.normalized text (Surface.normalize text)] := by
  simp [tableOfText, normalize, parse, h]

private theorem records_tableOfText_of_parse_eq_ok {text : String} {f : Formula}
    (h : Formula.parse (Surface.normalize text) = .ok f) :
    (tableOfText text).records = .normalized text (Surface.normalize text) ::
      .parsed (Surface.normalize text) f ::
        (Journal.tabulate f (mentionedVariables text)).records := by
  simp [tableOfText, normalize, parse, h]

/-- What is written while a request comes to an outcome, for every way to get there. -/
inductive Writes (request : String) :
    Except RequestError ClassifiedTable → List (Level × String) → Prop where
  | unbalanced : Surface.parenthesesBalanced request = false →
      Writes request (.error .unbalancedParentheses)
        [(.debug, s!"rejected {Text.quoted request}: unbalanced parentheses")]
  | invalid : Surface.parenthesesBalanced request = true → Surface.validate request = false →
      Writes request (.error .invalidCharacterSet)
        [(.debug, s!"rejected {Text.quoted request}: invalid characters")]
  | unparsed {e : EvaluationError} : Surface.parenthesesBalanced request = true →
      Surface.validate request = true → Formula.parse (Surface.normalize request) = .error e →
      Writes request (.error (.evaluationFailure e))
        [(.debug,
          s!"normalized {Text.quoted request} to {Text.quoted (Surface.normalize request)}")]
  | answered {f : Formula} {t : ClassifiedTable} : Surface.parenthesesBalanced request = true →
      Surface.validate request = true → Formula.parse (Surface.normalize request) = .ok f →
      Writes request (.ok t)
        ((.debug,
            s!"normalized {Text.quoted request} to {Text.quoted (Surface.normalize request)}") ::
          (.trace, s!"parsed {Text.quoted (Surface.normalize request)} into {f.outline}") ::
          (.debug, s!"tabulating {f} over {t.table.columns.length} variable(s)") ::
          t.table.rows.map fun row => (.trace, rowText t.table.columns row))

theorem writes_answer (request : String) :
    Writes request (PropLogic.answer request) (written (Journal.answer request).records) := by
  by_cases hbalanced : Surface.parenthesesBalanced request = true
  · by_cases hvalid : Surface.validate request = true
    · rw [records_answer_of_checked hbalanced hvalid]
      cases hparse : Formula.parse (Surface.normalize request) with
      | error e =>
          rw [answer_of_parse_eq_error hbalanced hvalid hparse,
            records_tableOfText_of_parse_eq_error hparse]
          exact .unparsed hbalanced hvalid hparse
      | ok f =>
          obtain ⟨ts, hcuts, hf⟩ := (parse_normalize_eq_ok_iff hvalid).mp hparse
          obtain ⟨c, -, hanswer⟩ := answer_of_cuts hcuts hf
          have hvars := mentionedVariables_eq_vars hcuts hf
          have htable := records_tabulate (TruthTable.ofFormula_eq_ok f)
          rw [hanswer, records_tableOfText_of_parse_eq_ok hparse, hvars, htable]
          have hrows := written_evaluated (List.filter_sublist ..) f.tabulates_vars.length_values
          rw [written_cons, written_cons, written_cons, hrows]
          exact .answered hbalanced hvalid hparse
    · have hinvalid : Surface.validate request = false := by simpa using hvalid
      simp only [Journal.answer, PropLogic.answer, hbalanced, hinvalid]
      exact .invalid hbalanced hinvalid
  · have hunbalanced : Surface.parenthesesBalanced request = false := by simpa using hbalanced
    simp only [Journal.answer, PropLogic.answer, hunbalanced]
    exact .unbalanced hunbalanced

example : written (Journal.answer "¬p").records =
    [(.debug, "normalized \"¬p\" to \" not p\""),
      (.trace, "parsed \" not p\" into Not(Variable(P))"),
      (.debug, "tabulating ¬p over 1 variable(s)"),
      (.trace, "\x7bP: true\x7d => false"), (.trace, "\x7bP: false\x7d => true")] := by
  decide +kernel

end Journal

end PropLogic
