import PropLogic.Proofs.Formula.Truth
import PropLogic.Proofs.Table.Order
import PropLogic.Table.Classification

/-!
# What a truth table says

`TruthTable.Tabulates` states what makes a table a truth table of a formula. Tabulating a formula
over columns that cover its variables never fails and gives such a table, and the classification of
the table is that of the formula under all valuations.
-/

namespace PropLogic

/-! ### Rows as valuations -/

/-- The valuation that a row of values stands for. It makes the variables without a column false. -/
def valuation (columns : List Variable) (values : List Bool) : Variable → Bool :=
  fun v => (Assignment.ofColumns columns values v).getD false

private theorem ofColumns_eq_some {columns : List Variable} {values : List Bool}
    (hlength : values.length = columns.length) {v : Variable} (hv : v ∈ columns) :
    Assignment.ofColumns columns values v = some (valuation columns values v) := by
  have hsome : ∃ b, Assignment.ofColumns columns values v = some b := by
    unfold Assignment.ofColumns
    induction columns generalizing values with
    | nil => cases hv
    | cons w columns ih =>
        cases values with
        | nil => cases hlength
        | cons b values =>
            rw [List.zip_cons_cons, List.lookup_cons]
            by_cases hw : v = w
            · exact ⟨b, by simp [hw]⟩
            · have hmem : v ∈ columns := (List.mem_cons.mp hv).resolve_left hw
              obtain ⟨b', hb'⟩ := ih (Nat.succ.inj hlength) hmem
              have hne : (v == w) = false := by simpa using hw
              exact ⟨b', by rw [hne, hb']⟩
  obtain ⟨b, hb⟩ := hsome
  rw [valuation, hb, Option.getD_some]

private theorem valuation_map {columns : List Variable} {val : Variable → Bool} {v : Variable}
    (hv : v ∈ columns) : valuation columns (columns.map val) v = val v := by
  have hlookup : Assignment.ofColumns columns (columns.map val) v = some (val v) := by
    unfold Assignment.ofColumns
    induction columns with
    | nil => cases hv
    | cons w columns ih =>
        rw [List.map_cons, List.zip_cons_cons, List.lookup_cons]
        by_cases hw : v = w
        · simp [hw]
        · have hne : (v == w) = false := by simpa using hw
          rw [hne]
          exact ih ((List.mem_cons.mp hv).resolve_left hw)
  rw [valuation, hlookup, Option.getD_some]

private theorem map_valuation {columns : List Variable} {values : List Bool} (hnodup : columns.Nodup)
    (hlength : values.length = columns.length) : columns.map (valuation columns values) = values := by
  induction columns generalizing values with
  | nil => rw [List.map_nil, List.length_eq_zero_iff.mp hlength]
  | cons w columns ih =>
      cases values with
      | nil => cases hlength
      | cons b values =>
          obtain ⟨hw, hcolumns⟩ := List.nodup_cons.mp hnodup
          have htail : columns.map (valuation (w :: columns) (b :: values)) =
              columns.map (valuation columns values) := by
            apply List.map_congr_left
            intro v hv
            have hne : (v == w) = false := by
              have hvw : v ≠ w := fun heq => hw (heq ▸ hv)
              simpa using hvw
            simp [valuation, Assignment.ofColumns, List.lookup_cons, hne]
          have hhead : valuation (w :: columns) (b :: values) w = b := by
            simp [valuation, Assignment.ofColumns]
          rw [List.map_cons, htail, ih hcolumns (Nat.succ.inj hlength), hhead]

/-! ### Tabulating -/

namespace TruthTable

/-- The table `t` is a truth table of `f`: its columns ascend and cover the variables of `f`, each
list of values for the columns stands in exactly one row, the rows descend, and the result of a row
is the truth value of `f` under the values of the row. -/
structure Tabulates (t : TruthTable) (f : Formula) : Prop where
  ascending : t.columns.Pairwise fun v w => v.index < w.index
  covers : ∀ v ∈ f.occurrences, v ∈ t.columns
  length_rows : t.rows.length = 2 ^ t.columns.length
  length_values : ∀ row ∈ t.rows, row.values.length = t.columns.length
  count_values : ∀ values : List Bool, values.length = t.columns.length →
    (t.rows.map Row.values).count values = 1
  descending : t.rows.Pairwise fun row later => lexLess later.values row.values
  result : ∀ row ∈ t.rows, ∀ val : Variable → Bool, t.columns.map val = row.values →
    (row.result = true ↔ f.Holds val)

/-- The truth table of a formula over given columns, from truth under valuations. -/
def ofTruth (f : Formula) (columns : List Variable) : TruthTable :=
  ⟨columns, (Enumeration.ofColumns columns).rows.map fun values =>
    ⟨values, decide (f.Holds (valuation columns values))⟩⟩

private theorem length_of_mem_ofColumns {columns : List Variable} {values : List Bool}
    (h : values ∈ (Enumeration.ofColumns columns).rows) : values.length = columns.length :=
  Enumeration.length_of_mem_rows h

private theorem row_eq_ok {f : Formula} {columns : List Variable}
    (hcovers : ∀ v ∈ f.occurrences, v ∈ columns) {values : List Bool}
    (hlength : values.length = columns.length) :
    row f columns values = .ok ⟨values, decide (f.Holds (valuation columns values))⟩ := by
  have hvalue : f.evaluate (Assignment.ofColumns columns values) =
      .ok (decide (f.Holds (valuation columns values))) :=
    Formula.evaluate_eq_ok fun v hv => ofColumns_eq_some hlength (hcovers v hv)
  rw [row, hvalue]
  rfl

theorem tabulate_eq_ok {f : Formula} {columns : List Variable}
    (hcovers : ∀ v ∈ f.occurrences, v ∈ columns) :
    tabulate f columns = .ok (ofTruth f columns) := by
  have hrows : (Enumeration.ofColumns columns).rows.mapM (row f columns) =
      .ok (ofTruth f columns).rows :=
    mapM_eq_pure_map fun values hvalues => row_eq_ok hcovers (length_of_mem_ofColumns hvalues)
  rw [tabulate, hrows]
  rfl

private theorem nodup_of_ascending {columns : List Variable}
    (h : columns.Pairwise fun v w => v.index < w.index) : columns.Nodup := by
  apply h.imp
  intro v w hlt heq
  rw [heq] at hlt
  exact Nat.lt_irrefl _ hlt

theorem tabulates_ofTruth {f : Formula} {columns : List Variable}
    (hascending : columns.Pairwise fun v w => v.index < w.index)
    (hcovers : ∀ v ∈ f.occurrences, v ∈ columns) :
    (ofTruth f columns).Tabulates f := by
  have hvalues : (ofTruth f columns).rows.map Row.values = (Enumeration.ofColumns columns).rows := by
    rw [ofTruth, List.map_map]
    exact List.map_id _
  refine ⟨hascending, hcovers, ?_, ?_, ?_, ?_, ?_⟩
  · rw [← List.length_map Row.values, hvalues, Enumeration.length_rows]
    rfl
  · intro row hrow
    obtain ⟨values, hmem, rfl⟩ := List.mem_map.mp hrow
    exact length_of_mem_ofColumns hmem
  · intro values hlength
    rw [hvalues]
    exact Enumeration.count_rows hlength
  · have hdescending : ((ofTruth f columns).rows.map Row.values).Pairwise
        fun row later => lexLess later row := by
      rw [hvalues]
      exact Enumeration.descending_rows columns.length
    exact List.pairwise_map.mp hdescending
  · intro row hrow val hval
    obtain ⟨values, hmem, rfl⟩ := List.mem_map.mp hrow
    have hcolumns : columns.map val = values := hval
    rw [decide_eq_true_iff, ← hcolumns]
    apply Formula.holds_congr
    intro v hv
    exact valuation_map (hcovers v hv)

/-! ### Classification -/

theorem Tabulates.exists_row_values {t : TruthTable} {f : Formula} (h : t.Tabulates f)
    (val : Variable → Bool) : ∃ row ∈ t.rows, row.values = t.columns.map val := by
  have hcount := h.count_values (t.columns.map val) (List.length_map _)
  have hmem : t.columns.map val ∈ t.rows.map Row.values := by
    rw [← List.count_pos_iff, hcount]
    exact Nat.zero_lt_one
  exact List.mem_map.mp hmem

private theorem Tabulates.exists_row {t : TruthTable} {f : Formula} (h : t.Tabulates f)
    (val : Variable → Bool) : ∃ row ∈ t.rows, (row.result = true ↔ f.Holds val) := by
  obtain ⟨row, hrow, hvalues⟩ := h.exists_row_values val
  exact ⟨row, hrow, h.result row hrow val hvalues.symm⟩

theorem Tabulates.exists_valuation {t : TruthTable} {f : Formula} (h : t.Tabulates f) {row : Row}
    (hrow : row ∈ t.rows) : ∃ val, (row.result = true ↔ f.Holds val) := by
  have hvalues := map_valuation (nodup_of_ascending h.ascending) (h.length_values row hrow)
  exact ⟨_, h.result row hrow _ hvalues⟩

private theorem Tabulates.all_results {t : TruthTable} {f : Formula} (h : t.Tabulates f) :
    t.results.all id = true ↔ ∀ val, f.Holds val := by
  rw [results, List.all_map, List.all_eq_true]
  constructor
  · intro hall val
    obtain ⟨row, hrow, hresult⟩ := h.exists_row val
    exact hresult.mp (hall row hrow)
  · intro hall row hrow
    obtain ⟨val, hresult⟩ := h.exists_valuation hrow
    exact hresult.mpr (hall val)

private theorem Tabulates.any_results {t : TruthTable} {f : Formula} (h : t.Tabulates f) :
    t.results.any id = true ↔ ∃ val, f.Holds val := by
  rw [results, List.any_map, List.any_eq_true]
  constructor
  · intro hany
    obtain ⟨row, hrow, hvalue⟩ := hany
    obtain ⟨val, hresult⟩ := h.exists_valuation hrow
    exact ⟨val, hresult.mp hvalue⟩
  · intro hany
    obtain ⟨val, hval⟩ := hany
    obtain ⟨row, hrow, hresult⟩ := h.exists_row val
    exact ⟨row, hrow, hresult.mpr hval⟩

end TruthTable

/-- The classification `c` says how `f` behaves under all valuations. -/
structure Classification.Fits (c : Classification) (f : Formula) : Prop where
  tautology : c = .tautology ↔ ∀ val, f.Holds val
  contradiction : c = .contradiction ↔ ∀ val, ¬ f.Holds val
  contingency : c = .contingency ↔ (∃ val, f.Holds val) ∧ ∃ val, ¬ f.Holds val

/-- The classification of a truth table is that of its formula. -/
theorem TruthTable.Tabulates.classify {t : TruthTable} {f : Formula} (h : t.Tabulates f) :
    ∃ c, t.classify = .ok c ∧ c.Fits f := by
  have hempty : t.results.isEmpty = false := by
    obtain ⟨row, hrow, -⟩ := h.exists_row fun _ => true
    have hmem : row.result ∈ t.results := List.mem_map_of_mem hrow
    rw [List.isEmpty_eq_false_iff]
    exact List.ne_nil_of_mem hmem
  rw [TruthTable.classify, PropLogic.classify, hempty, if_neg (by decide)]
  by_cases hall : t.results.all id = true
  · have htrue : ∀ val, f.Holds val := h.all_results.mp hall
    rw [if_pos hall]
    refine ⟨.tautology, rfl, ?_, ?_, ?_⟩
    · simp [htrue]
    · simp [htrue]
    · simp [htrue]
  rw [if_neg hall]
  have hfalse : ∃ val, ¬ f.Holds val := by
    apply Classical.not_forall.mp
    intro htrue
    exact hall (h.all_results.mpr htrue)
  by_cases hany : t.results.any id = true
  · have htrue : ∃ val, f.Holds val := h.any_results.mp hany
    rw [if_pos hany]
    refine ⟨.contingency, rfl, ?_, ?_, ?_⟩
    · simpa using hfalse
    · simpa using htrue
    · simp [htrue, hfalse]
  · have hnone : ∀ val, ¬ f.Holds val := by
      intro val hval
      exact hany (h.any_results.mpr ⟨val, hval⟩)
    rw [if_neg hany]
    refine ⟨.contradiction, rfl, ?_, ?_, ?_⟩
    · simp [hnone]
    · simp [hnone]
    · simp [hnone]

end PropLogic
