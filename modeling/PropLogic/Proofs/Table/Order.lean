import Mathlib.Algebra.Group.Nat.Defs
import PropLogic.Table.Enumeration

/-!
# The order of the rows

The rows of a given width are all lists of truth values of this length, in descending lexicographic
order. The rows that begin with `true` come before those that begin with `false`, and each half is
the enumeration of one column less.
-/

namespace PropLogic

theorem mapM_eq_pure_map {m : Type → Type} [Monad m] [LawfulMonad m] {α β : Type} {g : α → m β}
    {h : α → β} {xs : List α} (hg : ∀ x ∈ xs, g x = pure (h x)) :
    xs.mapM g = pure (xs.map h) := by
  induction xs with
  | nil => rfl
  | cons x xs ih =>
      have hxs := ih fun y hy => hg y (List.mem_cons_of_mem _ hy)
      rw [List.mapM_cons, hg x List.mem_cons_self, pure_bind, hxs, pure_bind, List.map_cons]

theorem mapM_eq_none {α β : Type} {g : α → Option β} {xs : List α} {x : α} (hx : x ∈ xs)
    (hg : g x = none) : xs.mapM g = none := by
  induction xs with
  | nil => cases hx
  | cons y xs ih =>
      rw [List.mapM_cons]
      rcases List.mem_cons.mp hx with rfl | hmem
      · rw [hg]
        rfl
      · rw [ih hmem]
        cases g y <;> rfl

/-- The lexicographic order of rows, with `false` before `true`. -/
def lexLess : List Bool → List Bool → Prop := List.Lex fun x y => x = false ∧ y = true

private theorem not_lexLess_self (values : List Bool) : ¬ lexLess values values := by
  induction values with
  | nil =>
      intro h
      cases h
  | cons b values ih =>
      intro h
      cases h with
      | rel hb =>
          have hne : b = false ∧ b = true := hb
          rw [hne.1] at hne
          exact absurd hne.2 (by decide)
      | cons htail => exact ih htail

private theorem bitRow_succ (width code : Nat) :
    bitRow (width + 1) code = code.testBit width :: bitRow width code := by
  unfold bitRow
  rw [List.range_succ_eq_map, List.map_cons, List.map_map]
  congr 1
  apply List.map_congr_left
  intro column _
  have hshift : width + 1 - 1 - (column + 1) = width - 1 - column := by omega
  simp only [Function.comp_apply, Nat.succ_eq_add_one, hshift]

private theorem bitRow_of_lt {width code : Nat} (h : code < 2 ^ width) :
    bitRow (width + 1) code = false :: bitRow width code := by
  rw [bitRow_succ, Nat.testBit_lt_two_pow h]

private theorem bitRow_two_pow_add {width code : Nat} (h : code < 2 ^ width) :
    bitRow (width + 1) (2 ^ width + code) = true :: bitRow width code := by
  rw [bitRow_succ, Nat.testBit_two_pow_add_eq, Nat.testBit_lt_two_pow h]
  congr 1
  unfold bitRow
  apply List.map_congr_left
  intro column hcolumn
  have hlt : width - 1 - column < width := by
    have hrange := List.mem_range.mp hcolumn
    omega
  exact Nat.testBit_two_pow_add_gt hlt code

namespace Enumeration

theorem rows_ofWidth (width : Nat) :
    (ofWidth width).rows = (List.range (2 ^ width)).reverse.map (bitRow width) := rfl

theorem rows_ofWidth_zero : (ofWidth 0).rows = [[]] := rfl

theorem rows_ofWidth_succ (width : Nat) :
    (ofWidth (width + 1)).rows =
      (ofWidth width).rows.map (true :: ·) ++ (ofWidth width).rows.map (false :: ·) := by
  have hhalves : 2 ^ (width + 1) = 2 ^ width + 2 ^ width := by omega
  rw [rows_ofWidth, rows_ofWidth, hhalves, List.range_add, List.reverse_append, List.map_append,
    ← List.map_reverse]
  simp only [List.map_map]
  congr 1
  · apply List.map_congr_left
    intro code hcode
    exact bitRow_two_pow_add (List.mem_range.mp (List.mem_reverse.mp hcode))
  · apply List.map_congr_left
    intro code hcode
    exact bitRow_of_lt (List.mem_range.mp (List.mem_reverse.mp hcode))

theorem length_of_mem_rows {width : Nat} {values : List Bool} (h : values ∈ (ofWidth width).rows) :
    values.length = width := by
  obtain ⟨code, _, rfl⟩ := List.mem_map.mp h
  exact length_bitRow width code

theorem mem_rows_ofWidth (values : List Bool) : values ∈ (ofWidth values.length).rows := by
  induction values with
  | nil => simp [rows_ofWidth_zero]
  | cons b values ih =>
      rw [List.length_cons, rows_ofWidth_succ, List.mem_append]
      cases b with
      | true => exact Or.inl (List.mem_map_of_mem ih)
      | false => exact Or.inr (List.mem_map_of_mem ih)

theorem descending_rows (width : Nat) :
    (ofWidth width).rows.Pairwise fun row later => lexLess later row := by
  induction width with
  | zero => simp [rows_ofWidth_zero]
  | succ width ih =>
      rw [rows_ofWidth_succ, List.pairwise_append]
      have hhalf : ∀ b : Bool, ((ofWidth width).rows.map (b :: ·)).Pairwise
          fun row later => lexLess later row := by
        intro b
        rw [List.pairwise_map]
        exact ih.imp fun h => .cons h
      refine ⟨hhalf true, hhalf false, ?_⟩
      intro row hrow later hlater
      obtain ⟨values, _, rfl⟩ := List.mem_map.mp hrow
      obtain ⟨values', _, rfl⟩ := List.mem_map.mp hlater
      exact .rel ⟨rfl, rfl⟩

theorem nodup_rows (width : Nat) : (ofWidth width).rows.Nodup := by
  apply (descending_rows width).imp
  intro row later h heq
  rw [heq] at h
  exact not_lexLess_self later h

theorem count_rows {width : Nat} {values : List Bool} (h : values.length = width) :
    (ofWidth width).rows.count values = 1 := by
  subst h
  have hpos := List.count_pos_iff.mpr (mem_rows_ofWidth values)
  have hle := List.nodup_iff_count.mp (nodup_rows values.length) values
  omega

end Enumeration

end PropLogic
