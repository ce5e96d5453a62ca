import PropLogic.Batch.Stream
import PropLogic.Journal.Logged

/-!
# Answering with a journal

The steps from a text to its answer, each with the records that it leaves. Every step computes the
same value as the step without a journal.
-/

namespace PropLogic.Journal

open Logged

def normalize (request : String) : Logged String := do
  let canonical := Surface.normalize request
  emit (.normalized request canonical)
  return canonical

/-- Reads a canonical text. Only a text that is a formula leaves a record. -/
def parse (text : String) : Logged (Except EvaluationError Formula) :=
  match Formula.parse text with
  | .ok f => do
      emit (.parsed text f)
      return .ok f
  | .error e => return .error e

def rows (f : Formula) (columns : List Variable) :
    List (List Bool) → Logged (Except EvaluationError (List Row))
  | [] => return .ok []
  | values :: rest =>
      match TruthTable.row f columns values with
      | .error e => return .error e
      | .ok row => do
          emit (.evaluated (Assignment.ofColumns columns values).bindings row.result)
          let tail ← rows f columns rest
          return tail.map (row :: ·)

def tabulate (f : Formula) (columns : List Variable) :
    Logged (Except EvaluationError TruthTable) := do
  emit (.tabulating f columns.length)
  let rs ← rows f columns (Enumeration.ofColumns columns).rows
  return rs.map (⟨columns, ·⟩)

def tableOfText (text : String) : Logged (Except EvaluationError TruthTable) := do
  let canonical ← normalize text
  match ← parse canonical with
  | .error e => return .error e
  | .ok f => tabulate f (mentionedVariables text)

def answer (request : String) : Logged (Except RequestError ClassifiedTable) := do
  if !Surface.parenthesesBalanced request then
    emit (.rejected request .parentheses)
    return .error .unbalancedParentheses
  else if !Surface.validate request then
    emit (.rejected request .characters)
    return .error .invalidCharacterSet
  else
    let table ← tableOfText request
    match table >>= ClassifiedTable.ofTable with
    | .ok t => return .ok t
    | .error e => return .error (.evaluationFailure e)

def line (number : Nat) (cs : List Char) : Logged (List Entry) :=
  match Batch.request? cs with
  | none => return []
  | some request => do
      let outcome ← answer request
      match outcome with
      | .ok _ => pure ()
      | .error e => emit (.failed number e)
      return [⟨number, request, outcome⟩]

def lines (number : Nat) : List (List Char) → Logged (List Entry)
  | [] => return []
  | cs :: rest => do
      let first ← line number cs
      let others ← lines (number + 1) rest
      return first ++ others

def batchOfText (text : String) : Logged (List Entry) := lines 1 (Batch.lines text)

def decodedLines (number : Nat) : List (Option (List Char)) →
    Logged (Except ReadError (List Entry))
  | [] => return .ok []
  | none :: _ => return .error .invalidUtf8
  | some cs :: rest => do
      let first ← line number cs
      let others ← decodedLines (number + 1) rest
      return others.map (first ++ ·)

def batchOfStream (chunks : List ByteArray) : Logged (Except ReadError (List Entry)) := do
  match ← decodedLines 1 ((Batch.streamLines [] chunks).map Batch.decodeLine?) with
  | .error e => return .error e
  | .ok entries => do
      emit (.processed entries.length)
      return .ok entries

/-! ### Without the records -/

theorem value_parse (text : String) : (parse text).value = Formula.parse text := by
  unfold parse; split <;> simp [*]

theorem value_rows (f : Formula) (columns : List Variable) (rs : List (List Bool)) :
    (rows f columns rs).value = rs.mapM (TruthTable.row f columns) := by
  induction rs with
  | nil => rfl
  | cons values rest ih =>
      rw [List.mapM_cons, ← ih, rows]
      cases TruthTable.row f columns values with
      | error e => rfl
      | ok row => cases h : (rows f columns rest).value <;> simp [h] <;> rfl

theorem value_tabulate (f : Formula) (columns : List Variable) :
    (Journal.tabulate f columns).value = TruthTable.tabulate f columns := by
  simp only [Journal.tabulate, Logged.value_bind, Logged.value_pure, value_rows,
    TruthTable.tabulate]
  cases (Enumeration.ofColumns columns).rows.mapM (TruthTable.row f columns) <;> rfl

theorem value_tableOfText (text : String) : (tableOfText text).value = TruthTable.ofText text := by
  simp only [tableOfText, TruthTable.ofText, normalize, Logged.value_bind, value_parse,
    Logged.value_pure]
  cases Formula.parse (Surface.normalize text) with
  | error e => rfl
  | ok f => exact value_tabulate f _

theorem value_answer (request : String) :
    (Journal.answer request).value = PropLogic.answer request := by
  unfold Journal.answer PropLogic.answer
  split
  · rfl
  split
  · rfl
  simp only [Logged.value_bind, value_tableOfText]
  cases TruthTable.ofText request >>= ClassifiedTable.ofTable <;> rfl

theorem value_line (number : Nat) (cs : List Char) :
    (line number cs).value = (Batch.ofLine? number cs).toList := by
  unfold line Batch.ofLine?
  cases Batch.request? cs with
  | none => rfl
  | some request =>
      have h : (answer request).value = PropLogic.answer request := value_answer request
      simp only [Logged.value_bind, Option.map_some, Option.toList_some, ← h]
      cases (answer request).value <;> rfl

theorem value_lines (number : Nat) (ls : List (List Char)) :
    (lines number ls).value = Batch.entries number ls := by
  induction ls generalizing number with
  | nil => rfl
  | cons cs rest ih => simp [lines, Batch.entries, value_line, ih]

theorem value_batchOfText (text : String) : (batchOfText text).value = Batch.ofText text :=
  value_lines _ _

theorem value_decodedLines (number : Nat) (ls : List (Option (List Char))) :
    (decodedLines number ls).value = Batch.decodedEntries number ls := by
  induction ls generalizing number with
  | nil => rfl
  | cons l rest ih =>
      cases l with
      | none => rfl
      | some cs => simp [decodedLines, Batch.decodedEntries, value_line, ih]

theorem value_batchOfStream (chunks : List ByteArray) :
    (batchOfStream chunks).value = Batch.ofStream chunks := by
  simp only [batchOfStream, Logged.value_bind, value_decodedLines, Batch.ofStream]
  cases Batch.decodedEntries 1 ((Batch.streamLines [] chunks).map Batch.decodeLine?) <;> rfl

end PropLogic.Journal
