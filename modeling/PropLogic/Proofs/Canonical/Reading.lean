import PropLogic.Canonical.Fault
import PropLogic.Proofs.Canonical.Derivation

/-!
# Reading follows the grammar

`ParseState.Reads` relates a state to the tokens that lead to it: each operator on the stack has
read the phrase to its left, and waits for a phrase that binds tightly enough. One step keeps the
relation, so a formula that is read is derived. In the other direction a derived phrase is read
wherever its level is allowed. Hence reading accepts the derivable sequences, each with its only
formula.
-/

namespace PropLogic

namespace ParseState

/-- The state after some more tokens, if a formula can continue with each of them. -/
def run? (s : ParseState) (ts : List Token) : Option ParseState := ts.foldlM step? s

@[simp] theorem run?_nil (s : ParseState) : s.run? [] = some s := rfl

theorem run?_cons (s : ParseState) (t : Token) (ts : List Token) :
    s.run? (t :: ts) = (s.step? t).bind fun s' => s'.run? ts := rfl

theorem run?_append (s : ParseState) (ts us : List Token) :
    s.run? (ts ++ us) = (s.run? ts).bind fun s' => s'.run? us := by
  simp [run?, List.foldlM_append, Option.bind_eq_bind]

theorem step?_binary {s s' : ParseState} {op : Connective} (h : s.step? (.binary op) = some s') :
    ∃ stack f level stack', s = .phrase stack f level ∧ s' = .operand stack' := by
  cases s with
  | operand stack => cases h
  | phrase stack f level =>
      rw [step?] at h
      split at h
      next =>
        cases h
        exact ⟨_, _, _, _, rfl, rfl⟩
      next => cases h

private theorem absorb_paren (k : Nat) (stack : List Pending) (f : Formula) :
    absorb k (.paren :: stack) f = (.paren :: stack, f) := rfl

theorem absorb_not (k : Nat) (stack : List Pending) (f : Formula) :
    absorb k (.not :: stack) f = absorb k stack (.not f) := rfl

/-- The lowest level of a phrase that a stack accepts as its next operand. -/
def demand : List Pending → Nat
  | [] => 0
  | .paren :: _ => 0
  | .not :: _ => unaryLevel
  | .binary op _ :: _ => op.level + 1

private theorem demand_le (stack : List Pending) : demand stack ≤ unaryLevel := by
  match stack with
  | [] => exact Nat.zero_le _
  | .paren :: _ => exact Nat.zero_le _
  | .not :: _ => exact Nat.le_refl _
  | .binary op _ :: _ => exact Nat.succ_le_succ op.level_le

/-- The tokens before the operand for which a stack waits. -/
inductive StackReads : List Pending → List Token → Prop where
  | nil : StackReads [] []
  | paren {stack : List Pending} {ts : List Token} :
      StackReads stack ts → StackReads (.paren :: stack) (ts ++ [.openParen])
  | not {stack : List Pending} {ts : List Token} :
      StackReads stack ts → StackReads (.not :: stack) (ts ++ [.not])
  | binary {stack : List Pending} {ts us : List Token} {op : Connective} {l : Formula} :
      StackReads stack ts → demand stack ≤ op.level → Phrase op.level us l →
        StackReads (.binary op l :: stack) (ts ++ us ++ [.binary op])

/-- The tokens that lead to a state. -/
inductive Reads : ParseState → List Token → Prop where
  | operand {stack : List Pending} {ts : List Token} :
      StackReads stack ts → Reads (.operand stack) ts
  | phrase {stack : List Pending} {ts us : List Token} {f : Formula} {level : Nat} :
      StackReads stack ts → demand stack ≤ level → Phrase level us f →
        Reads (.phrase stack f level) (ts ++ us)

/-! ### What is read is derived -/

private theorem StackReads.absorb {stack : List Pending} {ts : List Token} (hs : StackReads stack ts)
    {k level : Nat} {us : List Token} {f : Formula} (hf : Phrase level us f)
    (hdemand : demand stack ≤ level) (hk : k ≤ level) (hunary : k ≤ unaryLevel) :
    ∃ ts' us', ts ++ us = ts' ++ us' ∧ StackReads (absorb k stack f).1 ts' ∧
      demand (absorb k stack f).1 ≤ k ∧ Phrase k us' (absorb k stack f).2 := by
  induction hs generalizing us f level with
  | nil => exact ⟨[], us, rfl, .nil, Nat.zero_le _, hf.relax_to hk⟩
  | @paren stack ts hs _ =>
      rw [absorb_paren]
      exact ⟨ts ++ [.openParen], us, rfl, .paren hs, Nat.zero_le _, hf.relax_to hk⟩
  | @not stack ts hs ih =>
      have hnot : Phrase unaryLevel (.not :: us) (.not f) := .not (hf.relax_to hdemand)
      obtain ⟨ts', us', heq, hrest⟩ := ih hnot (demand_le stack) hunary
      refine ⟨ts', us', ?_, hrest⟩
      rw [← heq, List.append_assoc, List.singleton_append]
  | @binary stack ts ls op l hs hlevel hl ih =>
      by_cases hop : k ≤ op.level
      · have hbinary : Phrase op.level (ls ++ .binary op :: us) (.binary op l f) :=
          .binary hl (hf.relax_to hdemand)
        obtain ⟨ts', us', heq, hrest⟩ := ih hbinary hlevel hop
        refine ⟨ts', us', ?_, ?_⟩
        · rw [← heq]
          simp
        · simpa only [ParseState.absorb, if_pos hop] using hrest
      · have hstay : ParseState.absorb k (.binary op l :: stack) f = (.binary op l :: stack, f) := by
          rw [ParseState.absorb, if_neg hop]
        rw [hstay]
        refine ⟨ts ++ ls ++ [.binary op], us, rfl, .binary hs hlevel hl, ?_, hf.relax_to hk⟩
        exact Nat.not_le.mp hop

theorem Reads.step {s s' : ParseState} {ts : List Token} {t : Token} (h : s.Reads ts)
    (hstep : s.step? t = some s') : s'.Reads (ts ++ [t]) := by
  cases h with
  | @operand stack ts hs =>
      cases t with
      | atom v =>
          cases hstep
          exact .phrase hs (Nat.le_succ_of_le (demand_le stack)) (.atom v)
      | not =>
          cases hstep
          exact .operand (.not hs)
      | openParen =>
          cases hstep
          exact .operand (.paren hs)
      | closeParen => cases hstep
      | binary op => cases hstep
  | @phrase stack ts us f level hs hdemand hf =>
      cases t with
      | binary op =>
          simp only [step?] at hstep
          split at hstep
          next hop =>
            obtain ⟨ts', us', heq, hs', hdemand', hl⟩ :=
              hs.absorb hf hdemand hop (Nat.le_succ_of_le op.level_le)
            cases hstep
            rw [heq]
            exact .operand (.binary hs' hdemand' hl)
          next => cases hstep
      | closeParen =>
          obtain ⟨ts', us', heq, hs', -, hg⟩ :=
            hs.absorb hf hdemand (Nat.zero_le _) (Nat.zero_le _)
          simp only [step?] at hstep
          split at hstep
          next stack' g habsorb =>
            cases hstep
            rw [habsorb] at hs' hg
            cases hs' with
            | @paren _ ts'' hs'' =>
                have hgroup : Phrase atomLevel (.openParen :: us' ++ [.closeParen]) g :=
                  .parenthesized hg
                have htokens : ts ++ us ++ [.closeParen] =
                    ts'' ++ (.openParen :: us' ++ [.closeParen]) := by
                  rw [heq]
                  simp
                rw [htokens]
                exact .phrase hs'' (Nat.le_succ_of_le (demand_le stack')) hgroup
          next => cases hstep
      | atom v => cases hstep
      | not => cases hstep
      | openParen => cases hstep

theorem Reads.run {s s' : ParseState} {ts us : List Token} (h : s.Reads ts)
    (hrun : s.run? us = some s') : s'.Reads (ts ++ us) := by
  induction us generalizing s ts with
  | nil =>
      cases hrun
      simpa using h
  | cons u us ih =>
      rw [run?_cons] at hrun
      obtain ⟨next, hstep, hrest⟩ := Option.bind_eq_some_iff.mp hrun
      have hnext := ih (h.step hstep) hrest
      simpa using hnext

theorem reads_start : start.Reads [] := .operand .nil

theorem Reads.result {s : ParseState} {ts : List Token} {f : Formula} (h : s.Reads ts)
    (hresult : s.result? = some f) : Phrase 0 ts f := by
  cases h with
  | operand hs => cases hresult
  | @phrase stack ts us g level hs hdemand hg =>
      obtain ⟨ts', us', heq, hs', -, hf⟩ :=
        hs.absorb hg hdemand (Nat.zero_le _) (Nat.zero_le _)
      simp only [result?, settle] at hresult
      generalize absorb 0 stack g = settled at hresult hs' hf
      obtain ⟨stack', g'⟩ := settled
      cases stack' with
      | cons top rest => cases hresult
      | nil =>
          cases hresult
          cases hs'
          rw [heq]
          exact hf

/-! ### What is derived is read -/

private theorem absorb_of_demand_le {stack : List Pending} {k : Nat} (hdemand : demand stack ≤ k)
    (hk : k < unaryLevel) (f : Formula) : absorb k stack f = (stack, f) := by
  match stack with
  | [] => rfl
  | .paren :: _ => rfl
  | .not :: _ => exact absurd hdemand (Nat.not_le.mpr hk)
  | .binary op l :: _ =>
      have hop : ¬ k ≤ op.level := Nat.not_le.mpr hdemand
      rw [absorb, if_neg hop]

/-- A phrase is read on every stack that accepts its level. The operators that the phrase leaves
open give the same operand to the stack as the phrase itself. -/
private theorem run?_of_phrase {k : Nat} {ts : List Token} {f : Formula} (h : Phrase k ts f)
    (stack : List Pending) (hdemand : demand stack ≤ k) :
    ∃ stack' g, (operand stack).run? ts = some (.phrase stack' g atomLevel) ∧
      ∀ j ≤ k, absorb j stack' g = absorb j stack f := by
  induction h generalizing stack with
  | atom v => exact ⟨stack, .atom v, rfl, fun _ _ => rfl⟩
  | @parenthesized ts f _ ih =>
      obtain ⟨stack', g, hrun, habsorb⟩ := ih (.paren :: stack) (Nat.zero_le _)
      refine ⟨stack, f, ?_, fun _ _ => rfl⟩
      have hclosed : absorb 0 stack' g = (.paren :: stack, f) := habsorb 0 (Nat.zero_le _)
      have hclose : (phrase stack' g atomLevel).step? .closeParen =
          some (.phrase stack f atomLevel) := by
        rw [step?, hclosed]
      rw [List.cons_append, run?_cons]
      change (operand (.paren :: stack)).run? (ts ++ [.closeParen]) = _
      rw [run?_append, hrun, Option.bind_some, run?_cons, hclose]
      rfl
  | @not ts f _ ih =>
      obtain ⟨stack', g, hrun, habsorb⟩ := ih (.not :: stack) (Nat.le_refl _)
      refine ⟨stack', g, ?_, ?_⟩
      · rw [run?_cons]
        exact hrun
      · intro j hj
        rw [habsorb j hj, absorb_not]
  | @binary op ls rs l r _ _ ihl ihr =>
      obtain ⟨stack₁, g₁, hrun₁, habsorb₁⟩ := ihl stack hdemand
      -- the connective takes all of its left operand and nothing below it
      have hleft : absorb op.level stack₁ g₁ = (stack, l) := by
        rw [habsorb₁ _ (Nat.le_refl _)]
        exact absorb_of_demand_le hdemand (Nat.lt_succ_of_le op.level_le) l
      have hop : op.level ≤ atomLevel := Nat.le_trans op.level_le (by decide)
      have hconnective : (phrase stack₁ g₁ atomLevel).step? (.binary op) =
          some (.operand (.binary op l :: stack)) := by
        rw [step?, if_pos hop, hleft]
      obtain ⟨stack₂, g₂, hrun₂, habsorb₂⟩ :=
        ihr (.binary op l :: stack) (Nat.le_refl _)
      refine ⟨stack₂, g₂, ?_, ?_⟩
      · rw [run?_append, hrun₁, Option.bind_some, run?_cons, hconnective, Option.bind_some, hrun₂]
      · intro j hj
        rw [habsorb₂ j (Nat.le_succ_of_le hj), absorb, if_pos hj]
  | relax _ ih =>
      obtain ⟨stack', g, hrun, habsorb⟩ := ih stack (Nat.le_succ_of_le hdemand)
      exact ⟨stack', g, hrun, fun j hj => habsorb j (Nat.le_succ_of_le hj)⟩

theorem result?_run?_of_derives {ts : List Token} {f : Formula} (h : Derives .expr ts f) :
    ∃ s, start.run? ts = some s ∧ s.result? = some f := by
  obtain ⟨stack, g, hrun, habsorb⟩ := run?_of_phrase h.phrase [] (Nat.zero_le _)
  refine ⟨_, hrun, ?_⟩
  have hall : absorb 0 stack g = ([], f) := habsorb 0 (Nat.le_refl _)
  simp only [result?, settle, hall]

/-- The formulas that reading gives are the derived ones. -/
theorem exists_run?_iff_derives {ts : List Token} {f : Formula} :
    (∃ s, start.run? ts = some s ∧ s.result? = some f) ↔ Derives .expr ts f := by
  constructor
  · rintro ⟨s, hrun, hresult⟩
    have hreads : s.Reads ts := reads_start.run hrun
    exact derives_iff_phrase.mpr (hreads.result hresult)
  · exact result?_run?_of_derives

theorem read_eq_ok_iff {s : ParseState} {stop : Nat} {lexemes : List (Text.Lexeme Token)}
    {stuckAt? : Option Nat} {f : Formula} :
    s.read stop lexemes stuckAt? = .ok f ↔
      stuckAt? = none ∧ ∃ s', s.run? (lexemes.map Text.Lexeme.token) = some s' ∧
        s'.result? = some f := by
  induction lexemes generalizing s stop with
  | nil =>
      cases stuckAt? with
      | some offset => simp [read]
      | none =>
          simp only [read, List.map_nil, run?_nil, Option.some.injEq, exists_eq_left', true_and]
          cases s.result? <;> simp
  | cons lexeme rest ih =>
      rw [List.map_cons, run?_cons, read]
      cases s.step? lexeme.token with
      | none => simp
      | some next => simpa using ih

end ParseState

/-- A token sequence has at most one formula. -/
theorem Derives.unique {ts : List Token} {f g : Formula} (hf : Derives .expr ts f)
    (hg : Derives .expr ts g) : f = g := by
  obtain ⟨s, hrun, hresult⟩ := ParseState.result?_run?_of_derives hf
  obtain ⟨s', hrun', hresult'⟩ := ParseState.result?_run?_of_derives hg
  rw [hrun] at hrun'
  cases hrun'
  rw [hresult] at hresult'
  exact Option.some.inj hresult'

end PropLogic
