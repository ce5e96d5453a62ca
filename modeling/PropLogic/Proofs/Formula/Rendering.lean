import PropLogic.Formula.Printer
import PropLogic.Proofs.Canonical.Derivation

/-!
# Renderings of formulas

A formula is written with any number of pairs of parentheses around each of its nodes. An operand
needs a pair if it binds more loosely than its operator, or as strongly on the right side. The
renderings that have these pairs are exactly the token sequences that derive the formula.
-/

namespace PropLogic

namespace Formula

/-! ### Nodes -/

/-- The way from the root of a formula to a node. A negation has its operand on the left. -/
abbrev Path := List Side

def operand? : Formula → Side → Option Formula
  | .not f, .left => some f
  | .binary _ l _, .left => some l
  | .binary _ _ r, .right => some r
  | _, _ => none

/-- The ways to all nodes. -/
def nodes : Formula → List Path
  | .atom _ => [[]]
  | .not f => [] :: f.nodes.map fun path => .left :: path
  | .binary _ l r =>
      [] :: ((l.nodes.map fun path => .left :: path) ++ r.nodes.map fun path => .right :: path)

/-- Whether a node is an operand that `rule` picks out by its level, the level of its operator and
its side. -/
def picks (rule : Nat → Nat → Side → Bool) : Formula → Path → Bool
  | _, [] => false
  | f, side :: path =>
      match f.operand? side with
      | none => false
      | some g => if path.isEmpty then rule g.level f.level side else g.picks rule path

/-- An operand that binds more loosely than its operator has to be parenthesised, and so has a right
operand that binds as strongly. -/
def mustEnclose (own parent : Nat) (side : Side) : Bool :=
  own < parent || (own == parent && side == .right)

/-- A conditional or biconditional as the left operand of another one. Both have level `0`. -/
def isChained (own parent : Nat) (side : Side) : Bool :=
  own == 0 && parent == 0 && side == .left

def need (f : Formula) (path : Path) : Nat := (f.picks mustEnclose path).toNat

private theorem nil_mem_nodes (f : Formula) : [] ∈ f.nodes := by
  cases f <;> simp [nodes]

private theorem toNat_needsParentheses (own parent : Nat) (side : Side) :
    (needsParentheses own parent side).toNat =
      (mustEnclose own parent side).toNat + (isChained own parent side).toNat := by
  cases side with
  | right => simp [needsParentheses, mustEnclose, isChained]
  | left =>
      have hside : (Side.left == Side.right) = false := rfl
      by_cases hparent : parent = 0
      · simp [needsParentheses, mustEnclose, isChained, hside, hparent]
      · have hlevel : (parent == 0) = false := by simpa using hparent
        simp [needsParentheses, mustEnclose, isChained, hside, hlevel]

theorem picks_toNat (f : Formula) (path : Path) :
    (f.picks needsParentheses path).toNat = f.need path + (f.picks isChained path).toNat := by
  induction path generalizing f with
  | nil => rfl
  | cons side path ih =>
      unfold need
      cases h : f.operand? side with
      | none => simp [picks, h]
      | some g =>
          cases path with
          | nil => simp [picks, h, toNat_needsParentheses]
          | cons next path => simpa [picks, h, need] using ih g

/-! ### Renderings -/

def enclosed (n : Nat) (ts : List Token) : List Token :=
  List.replicate n .openParen ++ ts ++ List.replicate n .closeParen

/-- The tokens of a formula with `pairs path` pairs of parentheses around the node at `path`. -/
def rendering (pairs : Path → Nat) : Formula → List Token
  | .atom v => enclosed (pairs []) [.atom v]
  | .not f => enclosed (pairs []) (.not :: f.rendering fun path => pairs (.left :: path))
  | .binary op l r =>
      enclosed (pairs []) ((l.rendering fun path => pairs (.left :: path)) ++
        .binary op :: r.rendering fun path => pairs (.right :: path))

/-- Every node has as many pairs of parentheses as it needs. -/
def Suffices (f : Formula) (pairs : Path → Nat) : Prop := ∀ path ∈ f.nodes, f.need path ≤ pairs path

private theorem forall_operand_iff {f g : Formula} {side : Side} (h : f.operand? side = some g)
    (pairs : Path → Nat) :
    (∀ path ∈ g.nodes, f.need (side :: path) ≤ pairs path) ↔
      (mustEnclose g.level f.level side = true → 1 ≤ pairs []) ∧ g.Suffices pairs := by
  have hroot : f.need [side] = (mustEnclose g.level f.level side).toNat := by
    simp [need, picks, h]
  have hbelow (next : Side) (path : Path) :
      f.need (side :: next :: path) = g.need (next :: path) := by
    simp [need, picks, h]
  -- below its root an operand needs the same on its own, and its root needs nothing on its own
  constructor
  · intro hpairs
    have hfirst := hpairs [] g.nil_mem_nodes
    rw [hroot] at hfirst
    refine ⟨fun hmust => by simpa [hmust] using hfirst, fun path hpath => ?_⟩
    cases path with
    | nil => exact Nat.zero_le _
    | cons next path =>
        rw [← hbelow]
        exact hpairs _ hpath
  · rintro ⟨hfirst, hpairs⟩ path hpath
    cases path with
    | nil =>
        rw [hroot]
        cases hmust : mustEnclose g.level f.level side with
        | true => exact hfirst hmust
        | false => exact Nat.zero_le _
    | cons next path =>
        rw [hbelow]
        exact hpairs _ hpath

private theorem suffices_atom (v : Variable) (pairs : Path → Nat) : (atom v).Suffices pairs := by
  intro path hpath
  rw [nodes, List.mem_singleton] at hpath
  rw [hpath]
  exact Nat.zero_le _

private theorem suffices_not_iff {f : Formula} {pairs : Path → Nat} :
    (Formula.not f).Suffices pairs ↔
      (mustEnclose f.level unaryLevel .left = true → 1 ≤ pairs [.left]) ∧
        f.Suffices fun path => pairs (.left :: path) := by
  rw [Suffices, nodes, List.forall_mem_cons, List.forall_mem_map]
  rw [forall_operand_iff (f := .not f) rfl]
  exact and_iff_right (Nat.zero_le _)

private theorem suffices_binary_iff {op : Connective} {l r : Formula} {pairs : Path → Nat} :
    (binary op l r).Suffices pairs ↔
      ((mustEnclose l.level op.level .left = true → 1 ≤ pairs [.left]) ∧
        l.Suffices fun path => pairs (.left :: path)) ∧
      ((mustEnclose r.level op.level .right = true → 1 ≤ pairs [.right]) ∧
        r.Suffices fun path => pairs (.right :: path)) := by
  rw [Suffices, nodes, List.forall_mem_cons, List.forall_mem_append, List.forall_mem_map,
    List.forall_mem_map, forall_operand_iff (f := .binary op l r) rfl,
    forall_operand_iff (f := .binary op l r) rfl]
  exact and_iff_right (Nat.zero_le _)

private theorem lt_of_mustEnclose_left {own parent : Nat} :
    mustEnclose own parent .left = true ↔ own < parent := by
  simp [mustEnclose]

private theorem lt_of_mustEnclose_right {own parent : Nat} :
    mustEnclose own parent .right = true ↔ own < parent + 1 := by
  simp [mustEnclose]
  omega

/-! ### Renderings are derived -/

theorem enclosed_zero (ts : List Token) : enclosed 0 ts = ts := by
  simp [enclosed]

private theorem enclosed_succ (n : Nat) (ts : List Token) :
    enclosed (n + 1) ts = .openParen :: enclosed n ts ++ [.closeParen] := by
  have hclose : List.replicate (n + 1) Token.closeParen =
      List.replicate n .closeParen ++ [.closeParen] := List.replicate_succ'
  simp [enclosed, hclose, List.replicate_succ]

private theorem phrase_enclosed {n k own : Nat} {ts : List Token} {f : Formula} (h : Phrase own ts f)
    (hk : k ≤ atomLevel) (hroot : own < k → 1 ≤ n) : Phrase k (enclosed n ts) f := by
  induction n generalizing k with
  | zero =>
      rw [enclosed_zero]
      apply h.relax_to
      omega
  | succ n ih =>
      have hinner : Phrase 0 (enclosed n ts) f :=
        ih (Nat.zero_le _) fun hlt => absurd hlt (Nat.not_lt_zero _)
      rw [enclosed_succ]
      exact (Phrase.parenthesized hinner).relax_to hk

private theorem phrase_rendering {f : Formula} {pairs : Path → Nat} (h : f.Suffices pairs) {k : Nat}
    (hk : k ≤ atomLevel) (hroot : f.level < k → 1 ≤ pairs []) : Phrase k (f.rendering pairs) f := by
  induction f generalizing pairs k with
  | atom v =>
      have hatom : Phrase unaryLevel [.atom v] (.atom v) := .relax (.atom v)
      exact phrase_enclosed hatom hk hroot
  | not f ih =>
      obtain ⟨hmust, hoperand⟩ := suffices_not_iff.mp h
      rw [lt_of_mustEnclose_left] at hmust
      have hinner : Phrase unaryLevel (f.rendering fun path => pairs (.left :: path)) f :=
        ih hoperand (by decide) hmust
      exact phrase_enclosed (.not hinner) hk hroot
  | binary op l r ihl ihr =>
      obtain ⟨⟨hleft, hl⟩, hright, hr⟩ := suffices_binary_iff.mp h
      rw [lt_of_mustEnclose_left] at hleft
      rw [lt_of_mustEnclose_right] at hright
      have hop : op.level ≤ 2 := op.level_le
      have hl' := ihl hl (Nat.le_trans hop (by decide)) hleft
      have hr' := ihr hr (Nat.le_trans (Nat.succ_le_succ hop) (by decide)) hright
      exact phrase_enclosed (.binary hl' hr') hk hroot

/-! ### What is derived is a rendering -/

private theorem rendering_add_pair (f : Formula) (pairs : Path → Nat) :
    f.rendering (fun path => pairs path + if path.isEmpty then 1 else 0) =
      .openParen :: f.rendering pairs ++ [.closeParen] := by
  cases f <;> simp [rendering, enclosed_succ]

private theorem exists_rendering_of_phrase {k : Nat} {ts : List Token} {f : Formula}
    (h : Phrase k ts f) :
    ∃ pairs, f.Suffices pairs ∧ ts = f.rendering pairs ∧
      (f.level < k → f.level < unaryLevel → 1 ≤ pairs []) := by
  -- a phrase of a level that its operator does not reach is in parentheses
  induction h with
  | atom v =>
      exact ⟨fun _ => 0, suffices_atom v _, (enclosed_zero _).symm,
        fun _ hlt => absurd hlt (Nat.lt_irrefl _)⟩
  | @parenthesized ts f _ ih =>
      obtain ⟨pairs, hpairs, rfl, -⟩ := ih
      refine ⟨_, ?_, (rendering_add_pair f pairs).symm, by simp⟩
      exact fun path hpath => Nat.le_add_right_of_le (hpairs path hpath)
  | @not ts f _ ih =>
      obtain ⟨pairs, hpairs, rfl, hroot⟩ := ih
      let below : Path → Nat
        | [] => 0
        | _ :: path => pairs path
      have hbelow : (Formula.not f).Suffices below := by
        rw [suffices_not_iff, lt_of_mustEnclose_left]
        exact ⟨fun hlt => hroot hlt hlt, hpairs⟩
      exact ⟨below, hbelow, (enclosed_zero _).symm, fun hlt => absurd hlt (Nat.lt_irrefl _)⟩
  | @binary op ts us l r _ _ ihl ihr =>
      obtain ⟨left, hl, rfl, hleft⟩ := ihl
      obtain ⟨right, hr, rfl, hright⟩ := ihr
      have hop : op.level + 1 ≤ unaryLevel := Nat.succ_le_succ op.level_le
      let below : Path → Nat
        | [] => 0
        | .left :: path => left path
        | .right :: path => right path
      have hbelow : (Formula.binary op l r).Suffices below := by
        rw [suffices_binary_iff, lt_of_mustEnclose_left, lt_of_mustEnclose_right]
        refine ⟨⟨fun hlt => hleft hlt ?_, hl⟩, fun hlt => hright hlt ?_, hr⟩
        · exact Nat.lt_of_lt_of_le hlt (Nat.le_of_succ_le hop)
        · exact Nat.lt_of_lt_of_le hlt hop
      exact ⟨below, hbelow, (enclosed_zero _).symm, fun hlt => absurd hlt (Nat.lt_irrefl _)⟩
  | relax _ ih =>
      obtain ⟨pairs, hpairs, hts, hroot⟩ := ih
      exact ⟨pairs, hpairs, hts, fun hlt => hroot (Nat.lt_succ_of_lt hlt)⟩

theorem derives_iff_rendering {ts : List Token} {f : Formula} :
    Derives .expr ts f ↔ ∃ pairs, f.Suffices pairs ∧ ts = f.rendering pairs := by
  constructor
  · intro h
    obtain ⟨pairs, hpairs, hts, -⟩ := exists_rendering_of_phrase h.phrase
    exact ⟨pairs, hpairs, hts⟩
  · rintro ⟨pairs, hpairs, rfl⟩
    apply derives_iff_phrase.mpr
    exact phrase_rendering hpairs (Nat.zero_le _) fun hlt => absurd hlt (Nat.not_lt_zero _)

end Formula

end PropLogic
