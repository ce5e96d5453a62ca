/-!
# Replacing parts of a text

Occurrences are found from left to right and do not overlap.
-/

namespace PropLogic.Text

/-- Replaces every occurrence of `old` by `new` after the first `skip` characters, which belong to
an occurrence that is already replaced. -/
def replaceAfter (old new : List Char) (skip : Nat) : List Char → List Char
  | [] => []
  | c :: rest =>
      match skip with
      | k + 1 => replaceAfter old new k rest
      | 0 =>
          if old.isPrefixOf (c :: rest) then new ++ replaceAfter old new (old.length - 1) rest
          else c :: replaceAfter old new 0 rest

/-- Replaces every occurrence of `old`, which is not empty, by `new`. -/
def replaceAll (old new cs : List Char) : List Char := replaceAfter old new 0 cs

section Replace

variable (old new : List Char)

private theorem replaceAfter_eq_replaceAll_drop (skip : Nat) (cs : List Char) :
    replaceAfter old new skip cs = replaceAll old new (cs.drop skip) := by
  induction cs generalizing skip with
  | nil => simp [replaceAll, replaceAfter]
  | cons c rest ih =>
      cases skip with
      | zero => rfl
      | succ k => simpa [replaceAfter] using ih k

@[simp] theorem replaceAll_nil : replaceAll old new [] = [] := rfl

theorem replaceAll_cons (c : Char) (rest : List Char) :
    replaceAll old new (c :: rest) =
      if old.isPrefixOf (c :: rest) then new ++ replaceAll old new (rest.drop (old.length - 1))
      else c :: replaceAll old new rest := by
  simp only [← replaceAfter_eq_replaceAll_drop]
  rfl

end Replace

end PropLogic.Text
