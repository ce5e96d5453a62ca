import PropLogic.Variable

/-!
# Enumerating assignments

The assignments to `n` columns are the binary expansions of `2 ^ n - 1` down to `0`. The first one
makes every column true, the last one makes every column false, and the first column changes
slowest.
-/

namespace PropLogic

/-- The bits of `code` in `width` columns, the most significant bit first. -/
def bitRow (width code : Nat) : List Bool :=
  (List.range width).map fun column => code.testBit (width - 1 - column)

@[simp] theorem length_bitRow (width code : Nat) : (bitRow width code).length = width := by
  simp [bitRow]

/-- A place in the enumeration of all rows of `width` truth values. -/
structure Enumeration where
  width : Nat
  /-- The number of rows that are still to come. -/
  remaining : Nat
  remaining_le : remaining ≤ Nat.pow 2 width

namespace Enumeration

/-- The enumeration of all rows of `width` truth values. -/
def ofWidth (width : Nat) : Enumeration := ⟨width, Nat.pow 2 width, Nat.le_refl _⟩

def ofColumns (columns : List Variable) : Enumeration := ofWidth columns.length

def skip (e : Enumeration) (k : Nat) : Enumeration :=
  ⟨e.width, e.remaining - k, Nat.le_trans (Nat.sub_le _ _) e.remaining_le⟩

def next (e : Enumeration) : Option (List Bool) × Enumeration :=
  if e.remaining = 0 then (none, e) else (some (bitRow e.width (e.remaining - 1)), e.skip 1)

/-- The row after the next `k` rows, if there is one, and the enumeration after it. -/
def nth (e : Enumeration) (k : Nat) : Option (List Bool) × Enumeration := (e.skip k).next

def rows (e : Enumeration) : List (List Bool) :=
  (List.range e.remaining).reverse.map (bitRow e.width)

@[simp] theorem length_rows (e : Enumeration) : e.rows.length = e.remaining := by
  simp [rows]

end Enumeration

end PropLogic
