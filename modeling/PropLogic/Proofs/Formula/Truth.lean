import PropLogic.Formula.Semantics

/-!
# Evaluation computes truth

Whether a formula holds under a valuation depends only on the variables that occur in it. Under an
assignment that agrees with the valuation on these variables, evaluation gives this truth value.
-/

namespace PropLogic

namespace Formula

instance decidableHolds (val : Variable → Bool) : (f : Formula) → Decidable (f.Holds val)
  | .atom v => inferInstanceAs (Decidable (val v = true))
  | .not f =>
      have := decidableHolds val f
      inferInstanceAs (Decidable (¬ f.Holds val))
  | .binary op l r =>
      have := decidableHolds val l
      have := decidableHolds val r
      match op with
      | .and => inferInstanceAs (Decidable (l.Holds val ∧ r.Holds val))
      | .or => inferInstanceAs (Decidable (l.Holds val ∨ r.Holds val))
      | .implies => inferInstanceAs (Decidable (l.Holds val → r.Holds val))
      | .iff => inferInstanceAs (Decidable (l.Holds val ↔ r.Holds val))

private theorem decide_holds_atom (val : Variable → Bool) (v : Variable) :
    decide ((atom v).Holds val) = val v := by
  cases hv : val v <;> simp [Holds, hv]

private theorem decide_holds_not (val : Variable → Bool) (f : Formula) :
    decide ((Formula.not f).Holds val) = !decide (f.Holds val) := by
  by_cases hf : f.Holds val <;> simp [Holds, hf]

private theorem decide_holds_binary (val : Variable → Bool) (op : Connective) (l r : Formula) :
    decide ((binary op l r).Holds val) =
      op.apply (decide (l.Holds val)) (decide (r.Holds val)) := by
  by_cases hl : l.Holds val <;> by_cases hr : r.Holds val <;>
    cases op <;> simp [Holds, Connective.apply, hl, hr]

theorem holds_congr {val val' : Variable → Bool} {f : Formula}
    (h : ∀ v ∈ f.occurrences, val v = val' v) : f.Holds val ↔ f.Holds val' := by
  rw [← decide_eq_decide]
  induction f with
  | atom v =>
      rw [decide_holds_atom, decide_holds_atom]
      exact h v (by simp)
  | not f ih => rw [decide_holds_not, decide_holds_not, ih h]
  | binary op l r ihl ihr =>
      have hl := ihl fun v hv => h v (by simp [hv])
      have hr := ihr fun v hv => h v (by simp [hv])
      rw [decide_holds_binary, decide_holds_binary, hl, hr]

theorem evaluate_eq_ok {a : Assignment} {val : Variable → Bool} {f : Formula}
    (h : ∀ v ∈ f.occurrences, a v = some (val v)) : f.evaluate a = .ok (decide (f.Holds val)) := by
  induction f with
  | atom v =>
      have hv : a v = some (val v) := h v (by simp)
      rw [evaluate, hv, decide_holds_atom]
  | not f ih =>
      rw [evaluate, ih h, decide_holds_not]
      rfl
  | binary op l r ihl ihr =>
      have hl := ihl fun v hv => h v (by simp [hv])
      have hr := ihr fun v hv => h v (by simp [hv])
      rw [evaluate, hl, hr, decide_holds_binary]
      rfl

end Formula

end PropLogic
