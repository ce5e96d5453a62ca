import PropLogic.Proofs.Table.Order

/-!
# Calls on an enumeration

An enumeration is asked for its next row, for a row further on, for the number of rows that are left
and for all of them. Under any sequence of such calls it replies as a cursor does that moves along
the list of all rows in descending order.
-/

namespace PropLogic

/-- All rows of a width in descending order, by the value of the first column. -/
def descending : Nat → List (List Bool)
  | 0 => [[]]
  | width + 1 =>
      (descending width).map (true :: ·) ++ (descending width).map (false :: ·)

namespace Enumeration

theorem rows_ofWidth_eq_descending (width : Nat) : (ofWidth width).rows = descending width := by
  induction width with
  | zero => exact rows_ofWidth_zero
  | succ width ih => rw [rows_ofWidth_succ, ih, descending]

/-! ### Calls and replies -/

inductive Call where
  /-- The next row is taken. -/
  | next
  /-- The next `k` rows are left out and the row behind them is taken. -/
  | nth (k : Nat)
  /-- The number of rows that are left. -/
  | length
  /-- A lower and an upper bound of the number of rows that are left. -/
  | bounds
  /-- All rows that a copy gives. -/
  | copied
  deriving DecidableEq, Repr

inductive Reply where
  | row (row? : Option (List Bool))
  | length (n : Nat)
  | bounds (lower : Nat) (upper? : Option Nat)
  | rows (rows : List (List Bool))
  deriving DecidableEq, Repr

def replies {σ : Type} (answer : σ → Call → Reply × σ) (s : σ) : List Call → List Reply
  | [] => []
  | call :: calls => (answer s call).1 :: replies answer (answer s call).2 calls

def answer (e : Enumeration) : Call → Reply × Enumeration
  | .next => (.row e.next.1, e.next.2)
  | .nth k => (.row (e.nth k).1, (e.nth k).2)
  | .length => (.length e.remaining, e)
  | .bounds => (.bounds e.remaining (some e.remaining), e)
  | .copied => (.rows e.rows, e)

/-- What a cursor on a list replies where the rows `left` are still to come. -/
def answerLeft (left : List (List Bool)) : Call → Reply × List (List Bool)
  | .next => (.row left.head?, left.tail)
  | .nth k => (.row (left.drop k).head?, left.drop (k + 1))
  | .length => (.length left.length, left)
  | .bounds => (.bounds left.length (some left.length), left)
  | .copied => (.rows left, left)

/-! ### The rows that are left -/

theorem rows_skip (e : Enumeration) (k : Nat) : (e.skip k).rows = e.rows.drop k := by
  rw [rows, rows, ← List.map_drop, List.drop_reverse, List.length_range, List.take_range,
    Nat.min_eq_left (Nat.sub_le _ _)]
  rfl

theorem head?_rows (e : Enumeration) :
    e.rows.head? = if e.remaining = 0 then none else some (bitRow e.width (e.remaining - 1)) := by
  rw [rows, List.head?_map, List.head?_reverse, List.getLast?_range]
  split <;> rfl

theorem skip_skip (e : Enumeration) (j k : Nat) : (e.skip j).skip k = e.skip (j + k) := by
  simp only [skip, Nat.sub_sub]

theorem skip_of_remaining_eq_zero {e : Enumeration} (h : e.remaining = 0) (k : Nat) :
    e.skip k = e := by
  obtain ⟨width, remaining, hle⟩ := e
  cases h
  simp only [skip, Nat.zero_sub]

theorem next_eq (e : Enumeration) : e.next = (e.rows.head?, e.skip 1) := by
  rw [next, head?_rows]
  split
  next hzero => rw [skip_of_remaining_eq_zero hzero]
  next => rfl

theorem nth_eq (e : Enumeration) (k : Nat) :
    e.nth k = ((e.rows.drop k).head?, e.skip (k + 1)) := by
  rw [nth, next_eq, rows_skip, skip_skip]

theorem answerLeft_rows (e : Enumeration) (call : Call) :
    answerLeft e.rows call = ((e.answer call).1, (e.answer call).2.rows) := by
  cases call with
  | next => rw [answerLeft, answer, next_eq, rows_skip, List.drop_one]
  | nth k => rw [answerLeft, answer, nth_eq, rows_skip]
  | length => rw [answerLeft, answer, length_rows]
  | bounds => rw [answerLeft, answer, length_rows]
  | copied => rfl

theorem replies_eq (e : Enumeration) (calls : List Call) :
    replies answer e calls = replies answerLeft e.rows calls := by
  induction calls generalizing e with
  | nil => rfl
  | cons call calls ih => rw [replies, replies, answerLeft_rows, ih]

end Enumeration

/-! ### The list of all rows -/

theorem length_descending (width : Nat) : (descending width).length = 2 ^ width := by
  rw [← Enumeration.rows_ofWidth_eq_descending, Enumeration.length_rows]
  rfl

theorem mem_descending_iff {width : Nat} {values : List Bool} :
    values ∈ descending width ↔ values.length = width := by
  rw [← Enumeration.rows_ofWidth_eq_descending]
  constructor
  · exact Enumeration.length_of_mem_rows
  · rintro rfl
    exact Enumeration.mem_rows_ofWidth values

/-- The values in a row are the bits of the number of rows behind it. -/
theorem getElem?_descending {width place : Nat} (h : place < 2 ^ width) :
    (descending width)[place]? = some (bitRow width (2 ^ width - 1 - place)) := by
  rw [← Enumeration.rows_ofWidth_eq_descending, Enumeration.rows_ofWidth, List.getElem?_map,
    List.getElem?_reverse (by simpa using h), List.length_range, List.getElem?_range (by omega)]
  rfl

theorem getElem?_bitRow {width code column : Nat} (h : column < width) :
    (bitRow width code)[column]? = some (code.testBit (width - 1 - column)) := by
  rw [bitRow, List.getElem?_map, List.getElem?_range h]
  rfl

end PropLogic
