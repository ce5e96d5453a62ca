import PropLogic.Text.CodeRange

/-!
# Blank characters

The code points with the property `White_Space`. They separate tokens and surround requests without
meaning.
-/

namespace PropLogic.Text

def blankRanges : List (Nat × Nat) :=
  [(0x09, 0x0d), (0x20, 0x20), (0x85, 0x85), (0xa0, 0xa0), (0x1680, 0x1680), (0x2000, 0x200a),
   (0x2028, 0x2029), (0x202f, 0x202f), (0x205f, 0x205f), (0x3000, 0x3000)]

def isBlank (c : Char) : Bool := inRanges blankRanges c

def trimStart (cs : List Char) : List Char := cs.dropWhile isBlank

def trimEnd (cs : List Char) : List Char := (cs.reverse.dropWhile isBlank).reverse

/-- A text without the white space at both ends. -/
def trim (cs : List Char) : List Char := trimEnd (trimStart cs)

private theorem all_dropWhile_isBlank {p : Char → Bool} (hp : ∀ c, isBlank c = true → p c = true)
    (cs : List Char) : (cs.dropWhile isBlank).all p = cs.all p := by
  induction cs with
  | nil => rfl
  | cons c cs ih =>
      by_cases hc : isBlank c = true
      · rw [List.dropWhile_cons_of_pos hc, ih, List.all_cons, hp c hc, Bool.true_and]
      · rw [List.dropWhile_cons_of_neg hc]

theorem all_trim {p : Char → Bool} (hp : ∀ c, isBlank c = true → p c = true) (cs : List Char) :
    (trim cs).all p = cs.all p := by
  rw [trim, trimEnd, List.all_reverse, all_dropWhile_isBlank hp, List.all_reverse, trimStart,
    all_dropWhile_isBlank hp]

private theorem isEmpty_dropWhile_isBlank (cs : List Char) :
    (cs.dropWhile isBlank).isEmpty = cs.all isBlank := by
  induction cs with
  | nil => rfl
  | cons c cs ih =>
      by_cases hc : isBlank c = true
      · rw [List.dropWhile_cons_of_pos hc, ih, List.all_cons, hc, Bool.true_and]
      · rw [List.dropWhile_cons_of_neg hc, List.all_cons, Bool.eq_false_iff.mpr hc]
        rfl

theorem isEmpty_trim (cs : List Char) : (trim cs).isEmpty = cs.all isBlank := by
  rw [trim, trimEnd, List.isEmpty_reverse, isEmpty_dropWhile_isBlank, List.all_reverse, trimStart,
    all_dropWhile_isBlank fun _ h => h]

end PropLogic.Text
