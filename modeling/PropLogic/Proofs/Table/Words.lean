import PropLogic.Proofs.Table.Cursor

/-!
# Enumerating on machine words

The rows can be counted in words of 64 bits. Every subtraction and every shift is then checked, and
a computation that underflows or shifts by the word size has no result. Up to 63 columns no check
fails, and the replies are those of the enumeration.
-/

namespace PropLogic

/-! ### Checked operations -/

namespace Word

def sub? (a b : UInt64) : Option UInt64 := if b ≤ a then some (a - b) else none

def shiftLeft? (a b : UInt64) : Option UInt64 := if b < 64 then some (a <<< b) else none

def shiftRight? (a b : UInt64) : Option UInt64 := if b < 64 then some (a >>> b) else none

private theorem toNat_ofNat {n : Nat} (h : n < 64) : (UInt64.ofNat n).toNat = n :=
  UInt64.toNat_ofNat_of_lt' (Nat.lt_trans h (by decide))

private theorem exists_sub? {a b : UInt64} (h : b.toNat ≤ a.toNat) :
    ∃ c, sub? a b = some c ∧ c.toNat = a.toNat - b.toNat := by
  have hle : b ≤ a := UInt64.le_iff_toNat_le.mpr h
  exact ⟨a - b, if_pos hle, UInt64.toNat_sub_of_le a b hle⟩

private theorem toNat_of_sub? {a b c : UInt64} (h : sub? a b = some c) :
    c.toNat = a.toNat - b.toNat := by
  rw [sub?] at h
  split at h
  next hle =>
    cases h
    exact UInt64.toNat_sub_of_le a b hle
  next => cases h

private theorem exists_shiftLeft?_one {b : UInt64} (h : b.toNat < 64) :
    ∃ c, shiftLeft? 1 b = some c ∧ c.toNat = 2 ^ b.toNat := by
  have hlt : b < 64 := UInt64.lt_iff_toNat_lt.mpr h
  have hpow : 2 ^ b.toNat < 2 ^ 64 := Nat.pow_lt_pow_right (by decide) h
  refine ⟨1 <<< b, if_pos hlt, ?_⟩
  rw [UInt64.toNat_shiftLeft, Nat.mod_eq_of_lt h]
  simpa [Nat.shiftLeft_eq] using hpow

private theorem exists_shiftRight? {a b : UInt64} (h : b.toNat < 64) :
    ∃ c, shiftRight? a b = some c ∧ c.toNat = a.toNat >>> b.toNat := by
  have hlt : b < 64 := UInt64.lt_iff_toNat_lt.mpr h
  refine ⟨a >>> b, if_pos hlt, ?_⟩
  rw [UInt64.toNat_shiftRight, Nat.mod_eq_of_lt h]

private theorem and_one_beq_one (a : UInt64) : (a &&& 1 == 1) = a.toNat.testBit 0 := by
  rw [Bool.eq_iff_iff, beq_iff_eq, ← UInt64.toNat_inj, UInt64.toNat_and, UInt64.toNat_one,
    Nat.and_one_is_mod, Nat.testBit_zero, decide_eq_true_iff]

/-- The bit of `code` in a column, counted from the left. -/
def bit? (width code : UInt64) (column : Nat) : Option Bool := do
  let last ← sub? width 1
  let shift ← sub? last (UInt64.ofNat column)
  let shifted ← shiftRight? code shift
  return shifted &&& 1 == 1

def row? (width code : UInt64) : Option (List Bool) :=
  (List.range width.toNat).mapM (bit? width code)

theorem bit?_eq {width code : UInt64} {column : Nat} (hwidth : width.toNat < 64)
    (hcolumn : column < width.toNat) :
    bit? width code column = some (code.toNat.testBit (width.toNat - 1 - column)) := by
  have hone : (1 : UInt64).toNat = 1 := UInt64.toNat_one
  have hword : (UInt64.ofNat column).toNat = column := toNat_ofNat (by omega)
  obtain ⟨last, hlast, hlastNat⟩ := @exists_sub? width 1 (by omega)
  obtain ⟨shift, hshift, hshiftNat⟩ := @exists_sub? last (UInt64.ofNat column) (by omega)
  obtain ⟨shifted, hshifted, hshiftedNat⟩ := @exists_shiftRight? code shift (by omega)
  simp only [bit?, hlast, hshift, hshifted, Option.bind_eq_bind, Option.bind_some]
  rw [and_one_beq_one, hshiftedNat, Nat.testBit_shiftRight, hshiftNat, hlastNat, hone, hword]
  rfl

private theorem row?_eq {width code : UInt64} (hwidth : width.toNat < 64) :
    row? width code = some (bitRow width.toNat code.toNat) :=
  mapM_eq_pure_map fun _ hcolumn => bit?_eq hwidth (List.mem_range.mp hcolumn)

end Word

/-! ### Enumerations -/

/-- An enumeration that keeps its width and the number of rows still to come in words. -/
structure WordEnumeration where
  width : UInt64
  remaining : UInt64

namespace WordEnumeration

open Enumeration (Call Reply)

def ofColumns? (columns : List Variable) : Option WordEnumeration := do
  let width := UInt64.ofNat columns.length
  let remaining ← Word.shiftLeft? 1 width
  return ⟨width, remaining⟩

def next? (w : WordEnumeration) : Option (Option (List Bool) × WordEnumeration) :=
  if w.remaining = 0 then some (none, w)
  else do
    let code ← Word.sub? w.remaining 1
    let row ← Word.row? w.width code
    return (some row, ⟨w.width, code⟩)

/-- Takes row after row, and stops early where no row is left. -/
def nth? (w : WordEnumeration) : Nat → Option (Option (List Bool) × WordEnumeration)
  | 0 => w.next?
  | k + 1 => do
      let (row?, w') ← w.next?
      match row? with
      | none => return (none, w')
      | some _ => w'.nth? k

private theorem remaining_lt_of_next? {w w' : WordEnumeration} {row : List Bool}
    (h : w.next? = some (some row, w')) : w'.remaining.toNat < w.remaining.toNat := by
  rw [next?] at h
  split at h
  next => cases h
  next hpos =>
    obtain ⟨code, hcode, hrow⟩ := Option.bind_eq_some_iff.mp h
    obtain ⟨_, -, hw'⟩ := Option.bind_eq_some_iff.mp hrow
    cases hw'
    have hcodeNat : code.toNat = w.remaining.toNat - 1 := Word.toNat_of_sub? hcode
    have hne : w.remaining.toNat ≠ 0 := fun hzero => hpos (UInt64.toNat_inj.mp hzero)
    change code.toNat < w.remaining.toNat
    omega

def rest? (w : WordEnumeration) : Option (List (List Bool)) :=
  match _h : w.next? with
  | none => none
  | some (none, _) => some []
  | some (some row, w') => w'.rest?.map (row :: ·)
termination_by w.remaining.toNat
decreasing_by exact remaining_lt_of_next? _h

private theorem rest?_eq (w : WordEnumeration) :
    w.rest? = w.next?.bind fun (row?, w') =>
      match row? with
      | none => some []
      | some row => w'.rest?.map (row :: ·) := by
  rw [rest?]
  split
  next hnext => rw [hnext, Option.bind_none]
  next hnext => rw [hnext, Option.bind_some]
  next hnext => rw [hnext, Option.bind_some]

def answer? (w : WordEnumeration) : Call → Option (Reply × WordEnumeration)
  | .next => do
      let (row?, w') ← w.next?
      return (.row row?, w')
  | .nth k => do
      let (row?, w') ← w.nth? k
      return (.row row?, w')
  | .length => some (.length w.remaining.toNat, w)
  | .bounds => some (.bounds w.remaining.toNat (some w.remaining.toNat), w)
  | .copied => do
      let rows ← w.rest?
      return (.rows rows, w)

def replies? (w : WordEnumeration) : List Call → Option (List Reply)
  | [] => some []
  | call :: calls => do
      let (reply, w') ← w.answer? call
      let rest ← w'.replies? calls
      return reply :: rest

/-- The words hold the numbers of an enumeration with fewer columns than a word has bits. -/
structure Represents (w : WordEnumeration) (e : Enumeration) : Prop where
  width : w.width.toNat = e.width
  remaining : w.remaining.toNat = e.remaining
  fits : e.width < 64

private theorem exists_ofColumns? {columns : List Variable} (h : columns.length < 64) :
    ∃ w, ofColumns? columns = some w ∧ w.Represents (Enumeration.ofColumns columns) := by
  have hwidth : (UInt64.ofNat columns.length).toNat = columns.length := Word.toNat_ofNat h
  obtain ⟨remaining, hremaining, hpow⟩ :=
    @Word.exists_shiftLeft?_one (UInt64.ofNat columns.length) (by omega)
  refine ⟨⟨UInt64.ofNat columns.length, remaining⟩, ?_, hwidth, ?_, h⟩
  · rw [ofColumns?, hremaining]
    rfl
  · rw [hwidth] at hpow
    exact hpow

namespace Represents

variable {w : WordEnumeration} {e : Enumeration}

private theorem next? (h : w.Represents e) :
    ∃ w', w.next? = some (e.rows.head?, w') ∧ w'.Represents (e.skip 1) := by
  rw [Enumeration.head?_rows, WordEnumeration.next?]
  by_cases hzero : e.remaining = 0
  · have hword : w.remaining = 0 := UInt64.toNat_inj.mp (h.remaining.trans hzero)
    rw [if_pos hword, if_pos hzero, Enumeration.skip_of_remaining_eq_zero hzero]
    exact ⟨w, rfl, h⟩
  · have hword : w.remaining ≠ 0 := by
      intro hword
      rw [← h.remaining, hword] at hzero
      exact hzero rfl
    have hle : (1 : UInt64).toNat ≤ w.remaining.toNat := by
      rw [h.remaining, UInt64.toNat_one]
      omega
    obtain ⟨code, hcode, hcodeNat⟩ := Word.exists_sub? hle
    have hrow : Word.row? w.width code = some (bitRow e.width (e.remaining - 1)) := by
      have hfits : w.width.toNat < 64 := by
        rw [h.width]
        exact h.fits
      rw [Word.row?_eq hfits, h.width, hcodeNat, h.remaining, UInt64.toNat_one]
    refine ⟨⟨w.width, code⟩, ?_, h.width, ?_, h.fits⟩
    · rw [if_neg hword, if_neg hzero, hcode]
      simp only [Option.bind_eq_bind, Option.bind_some, hrow]
      rfl
    · rw [hcodeNat, h.remaining]
      rfl

/-- Taking `k` rows and then one more is stopped early only where no row is left. -/
private theorem nth? (h : w.Represents e) (k : Nat) :
    ∃ w', w.nth? k = some ((e.rows.drop k).head?, w') ∧ w'.Represents (e.skip (k + 1)) := by
  induction k generalizing w e with
  | zero => exact h.next?
  | succ k ih =>
      obtain ⟨w', hnext, h'⟩ := h.next?
      rw [WordEnumeration.nth?, hnext]
      cases hrows : e.rows with
      | nil =>
          have hzero : e.remaining = 0 := by rw [← e.length_rows, hrows, List.length_nil]
          rw [Enumeration.skip_of_remaining_eq_zero hzero] at h' ⊢
          exact ⟨w', rfl, h'⟩
      | cons row rest =>
          obtain ⟨w'', hnth, h''⟩ := ih h'
          rw [Enumeration.rows_skip, hrows] at hnth
          rw [Enumeration.skip_skip, Nat.add_comm 1] at h''
          exact ⟨w'', hnth, h''⟩

private theorem rest? (h : w.Represents e) : w.rest? = some e.rows := by
  -- by the rows that are left: each step of the loop takes the first of them
  induction hrows : e.rows generalizing w e with
  | nil =>
      obtain ⟨w', hnext, -⟩ := h.next?
      rw [rest?_eq, hnext, hrows]
      rfl
  | cons row rest ih =>
      obtain ⟨w', hnext, h'⟩ := h.next?
      have htail : (e.skip 1).rows = rest := by
        rw [Enumeration.rows_skip, hrows, List.drop_one, List.tail_cons]
      have hrest := ih h' htail
      rw [rest?_eq, hnext, hrows]
      simp only [List.head?_cons, Option.bind_some, hrest, Option.map_some]

private theorem answer? (h : w.Represents e) (call : Call) :
    ∃ w', w.answer? call = some ((e.answer call).1, w') ∧ w'.Represents (e.answer call).2 := by
  cases call with
  | next =>
      obtain ⟨w', hnext, h'⟩ := h.next?
      rw [WordEnumeration.answer?, hnext, Enumeration.answer, Enumeration.next_eq]
      exact ⟨w', rfl, h'⟩
  | nth k =>
      obtain ⟨w', hnth, h'⟩ := h.nth? k
      rw [WordEnumeration.answer?, hnth, Enumeration.answer, Enumeration.nth_eq]
      exact ⟨w', rfl, h'⟩
  | length =>
      rw [WordEnumeration.answer?, h.remaining]
      exact ⟨w, rfl, h⟩
  | bounds =>
      rw [WordEnumeration.answer?, h.remaining]
      exact ⟨w, rfl, h⟩
  | copied =>
      rw [WordEnumeration.answer?, h.rest?]
      exact ⟨w, rfl, h⟩

private theorem replies? (h : w.Represents e) (calls : List Call) :
    w.replies? calls = some (Enumeration.replies Enumeration.answer e calls) := by
  induction calls generalizing w e with
  | nil => rfl
  | cons call calls ih =>
      obtain ⟨w', hanswer, h'⟩ := h.answer? call
      rw [WordEnumeration.replies?, hanswer, Enumeration.replies]
      simp only [Option.bind_eq_bind, Option.bind_some, ih h']
      rfl

end Represents

end WordEnumeration

namespace Enumeration

/-- Under any sequence of calls, the enumeration of the assignments to less than 64 columns replies
as a cursor does on the list of all rows, and counting in machine words gives the same replies
without an underflow and without a shift by the word size. The list has every row of the width, in
descending order, and the values at a place are the bits of the number of places behind it. -/
theorem replies_ofColumns {columns : List Variable} (h : columns.length < 64) (calls : List Call) :
    replies answer (ofColumns columns) calls =
        replies answerLeft (descending columns.length) calls ∧
      ((WordEnumeration.ofColumns? columns).bind fun w => w.replies? calls) =
        some (replies answerLeft (descending columns.length) calls) ∧
      (descending columns.length).length = 2 ^ columns.length ∧
      (∀ values, values ∈ descending columns.length ↔ values.length = columns.length) ∧
      ((descending columns.length).Pairwise fun row later => lexLess later row) ∧
      ∀ place < 2 ^ columns.length, ∀ column < columns.length,
        (((descending columns.length)[place]?).bind fun row => row[column]?) =
          some ((2 ^ columns.length - 1 - place).testBit (columns.length - 1 - column)) := by
  have hreplies := replies_eq (ofColumns columns) calls
  rw [ofColumns, rows_ofWidth_eq_descending] at hreplies
  obtain ⟨w, hw, hrepresents⟩ := WordEnumeration.exists_ofColumns? h
  refine ⟨hreplies, ?_, length_descending _, fun _ => mem_descending_iff, ?_, ?_⟩
  · rw [hw, Option.bind_some, hrepresents.replies? calls, ← hreplies, ofColumns]
  · rw [← rows_ofWidth_eq_descending]
    exact descending_rows columns.length
  · intro place hplace column hcolumn
    rw [getElem?_descending hplace, Option.bind_some, getElem?_bitRow hcolumn]

/-- With one column twice there are four rows; behind the end nothing comes back. -/
theorem replies_ofColumns_twice :
    [Variable.p, .p].length < 64 ∧
      replies answer (ofColumns [.p, .p]) [.nth 1, .length, .copied, .nth 7, .next, .bounds] =
        [.row (some [true, false]), .length 2, .rows [[false, true], [false, false]], .row none,
          .row none, .bounds 0 (some 0)] ∧
      ((WordEnumeration.ofColumns? [.p, .p]).bind fun w =>
        w.replies? [.nth 1, .length, .copied, .nth 7, .next, .bounds]) =
        some [.row (some [true, false]), .length 2, .rows [[false, true], [false, false]], .row none,
          .row none, .bounds 0 (some 0)] := by
  have hlength : [Variable.p, .p].length < 64 := by decide
  obtain ⟨hreplies, hwords, -⟩ :=
    replies_ofColumns hlength [.nth 1, .length, .copied, .nth 7, .next, .bounds]
  exact ⟨hlength, hreplies.trans (by decide), hwords.trans (by decide)⟩

end Enumeration

end PropLogic
