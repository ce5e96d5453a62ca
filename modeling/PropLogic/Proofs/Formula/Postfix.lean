import PropLogic.Formula.Visits
import PropLogic.Proofs.Formula.Rendering

/-!
# Visits encode formulas

Every traversal calls its function once for each node, and for the nodes below a node before the
node itself, on the left side before the right side. The visits are a program for a stack of
results: whatever the stack holds, they put the result of the traversal on top of it. Replayed with
formulas as results they give the formula back, so formulas with the same visits are equal.
-/

namespace PropLogic.Formula

/-! ### The visits of a traversal -/

section Recorded

variable {α : Type} (call : Node α → α)

/-- Calls a function on a node and writes the visit down in front of the earlier ones. -/
def recorded (n : Node α) : StateM (List Visit) α := do
  modify fun seen => n.shape :: seen
  return call n

private theorem run_recorded_not (f : Formula) (seen : List Visit) :
    ((Formula.not f).foldM (recorded call)).run seen =
      let run := (f.foldM (recorded call)).run seen
      (call (.not run.1), .not () :: run.2) := rfl

private theorem run_recorded_binary (op : Connective) (l r : Formula) (seen : List Visit) :
    ((binary op l r).foldM (recorded call)).run seen =
      let left := (l.foldM (recorded call)).run seen
      let right := (r.foldM (recorded call)).run left.2
      (call (.binary op left.1 right.1), .binary op () () :: right.2) := rfl

end Recorded

private theorem reverse_visits (f : Formula) :
    f.visits.reverse = ((f.foldM (recorded fun _ => ())).run []).2 :=
  List.reverse_reverse _

private theorem run_recorded_snd (f : Formula) (seen : List Visit) :
    ((f.foldM (recorded fun _ => ())).run seen).2 = f.visits.reverse ++ seen := by
  induction f generalizing seen with
  | atom v => rfl
  | not f ih =>
      rw [reverse_visits]
      simp [run_recorded_not, ih]
  | binary op l r ihl ihr =>
      rw [reverse_visits]
      simp [run_recorded_binary, ihl, ihr]

@[simp] theorem visits_atom (v : Variable) : (atom v).visits = [.atom v] := rfl

@[simp] theorem visits_not (f : Formula) : (Formula.not f).visits = f.visits ++ [.not ()] :=
  List.reverse_cons

@[simp] theorem visits_binary (op : Connective) (l r : Formula) :
    (binary op l r).visits = l.visits ++ r.visits ++ [.binary op () ()] := by
  rw [← List.reverse_inj, reverse_visits, run_recorded_binary]
  simp [run_recorded_snd]

private theorem run_recorded {α : Type} (call : Node α → α) (f : Formula) (seen : List Visit) :
    (f.foldM (recorded call)).run seen = (f.fold call, f.visits.reverse ++ seen) := by
  induction f generalizing seen with
  | atom v => rfl
  | not f ih =>
      rw [run_recorded_not, ih]
      simp
  | binary op l r ihl ihr =>
      simp only [run_recorded_binary, ihl, ihr]
      simp

/-! ### The nodes in postfix order -/

def root : Formula → Visit
  | .atom v => .atom v
  | .not _ => .not ()
  | .binary op _ _ => .binary op () ()

/-- The node at the end of a way, without its operands. -/
def node? : Formula → Path → Option Visit
  | f, [] => some f.root
  | f, side :: path => (f.operand? side).bind fun g => g.node? path

/-- A node precedes the nodes above it, and the nodes of a left operand precede those of the right
one. -/
def Precedes (path path' : Path) : Prop :=
  (∃ side below, path = path' ++ side :: below) ∨
    ∃ parent below below',
      path = parent ++ .left :: below ∧ path' = parent ++ .right :: below'

namespace Precedes

private theorem irrefl (path : Path) : ¬ Precedes path path := by
  rintro (⟨side, below, h⟩ | ⟨parent, below, below', h, h'⟩)
  · simpa using congrArg List.length h
  · rw [h] at h'
    simp at h'

theorem top (side : Side) (path : Path) : Precedes (side :: path) [] := .inl ⟨side, path, rfl⟩

private theorem sides (path path' : Path) : Precedes (.left :: path) (.right :: path') :=
  .inr ⟨[], path, path', rfl, rfl⟩

theorem cons {path path' : Path} (h : Precedes path path') (side : Side) :
    Precedes (side :: path) (side :: path') := by
  rcases h with ⟨side', below, rfl⟩ | ⟨parent, below, below', rfl, rfl⟩
  · exact .inl ⟨side', below, rfl⟩
  · exact .inr ⟨side :: parent, below, below', rfl, rfl⟩

end Precedes

/-- The ways to all nodes in the order of the visits. -/
def postfixNodes : Formula → List Path
  | .atom _ => [[]]
  | .not f => (f.postfixNodes.map fun path => .left :: path) ++ [[]]
  | .binary _ l r =>
      (l.postfixNodes.map fun path => .left :: path) ++
        (r.postfixNodes.map fun path => .right :: path) ++ [[]]

private theorem mem_postfixNodes {f : Formula} {path : Path} :
    path ∈ f.postfixNodes ↔ (f.node? path).isSome = true := by
  induction f generalizing path with
  | atom v => cases path <;> simp [postfixNodes, node?, operand?]
  | not f ih => rcases path with _ | ⟨_ | _, path⟩ <;> simp [postfixNodes, node?, operand?, ih]
  | binary op l r ihl ihr =>
      rcases path with _ | ⟨_ | _, path⟩ <;> simp [postfixNodes, node?, operand?, ihl, ihr]

theorem pairwise_postfixNodes (f : Formula) : f.postfixNodes.Pairwise Precedes := by
  induction f with
  | atom v => exact List.pairwise_singleton _ _
  | not f ih =>
      rw [postfixNodes, List.pairwise_append, List.pairwise_map]
      refine ⟨ih.imp fun h => h.cons .left, List.pairwise_singleton _ _, ?_⟩
      simp [Precedes.top]
  | binary op l r ihl ihr =>
      rw [postfixNodes, List.pairwise_append, List.pairwise_append, List.pairwise_map,
        List.pairwise_map]
      have hleft := ihl.imp fun h => Precedes.cons h .left
      have hright := ihr.imp fun h => Precedes.cons h .right
      refine ⟨⟨hleft, hright, ?_⟩, List.pairwise_singleton _ _, ?_⟩
      · simp [Precedes.sides]
      · simp [or_imp, forall_and, Precedes.top]

private theorem nodup_postfixNodes (f : Formula) : f.postfixNodes.Nodup := by
  refine f.pairwise_postfixNodes.imp ?_
  rintro path _ h rfl
  exact Precedes.irrefl path h

private theorem map_node?_postfixNodes (f : Formula) :
    f.postfixNodes.map f.node? = f.visits.map some := by
  induction f with
  | atom v => rfl
  | not f ih =>
      have hbelow : (Formula.not f).node? ∘ (fun path => .left :: path) = f.node? := rfl
      rw [postfixNodes, List.map_append, List.map_map, hbelow, ih, visits_not, List.map_append]
      rfl
  | binary op l r ihl ihr =>
      have hleft : (binary op l r).node? ∘ (fun path => .left :: path) = l.node? := rfl
      have hright : (binary op l r).node? ∘ (fun path => .right :: path) = r.node? := rfl
      rw [postfixNodes, List.map_append, List.map_append, List.map_map, List.map_map, hleft, hright,
        ihl, ihr, visits_binary, List.map_append, List.map_append]
      rfl

/-! ### Visits as a program -/

section Compute

variable {α : Type} (call : Node α → α)

/-- Carries out one visit on a stack of results, unless the stack is too short. A binary operator
takes the result of its right operand first. -/
def Node.applyWith : Visit → List α → Option (List α)
  | .atom v, stack => some (call (.atom v) :: stack)
  | .not _, a :: stack => some (call (.not a) :: stack)
  | .binary op _ _, b :: a :: stack => some (call (.binary op a b) :: stack)
  | _, _ => none

def compute (visits : List Visit) (stack : List α) : Option (List α) :=
  visits.foldlM (fun stack visit => visit.applyWith call stack) stack

/-- The visits of a formula put the result of its traversal on the stack, whatever lies below and
whatever follows. -/
private theorem compute_visits_append (f : Formula) (vs : List Visit) (stack : List α) :
    compute call (f.visits ++ vs) stack = compute call vs (f.fold call :: stack) := by
  induction f generalizing vs stack with
  | atom v => rfl
  | not f ih =>
      rw [visits_not, List.append_assoc, ih]
      rfl
  | binary op l r ihl ihr =>
      -- the operator finds the result of the right operand on that of the left one
      rw [visits_binary, List.append_assoc, List.append_assoc, ihl, ihr]
      rfl

private theorem compute_visits (f : Formula) : compute call f.visits [] = some [f.fold call] := by
  rw [← List.append_nil f.visits, compute_visits_append]
  rfl

end Compute

/-- The formula with a node at the root and the results of its operands below. -/
def Node.assemble : Node Formula → Formula
  | .atom v => Formula.atom v
  | .not f => Formula.not f
  | .binary op l r => Formula.binary op l r

private theorem fold_assemble (f : Formula) : f.fold Node.assemble = f := by
  induction f with
  | atom v => rfl
  | not f ih => rw [fold_not, ih, Node.assemble]
  | binary op l r ihl ihr => rw [fold_binary, ihl, ihr, Node.assemble]

private theorem apply_eq_applyWith (visit : Visit) (stack : List Formula) :
    visit.apply stack = visit.applyWith Node.assemble stack := by
  cases visit with
  | atom v => rfl
  | not _ => cases stack <;> rfl
  | binary op _ _ => rcases stack with _ | ⟨r, _ | ⟨l, stack⟩⟩ <;> rfl

private theorem replay_eq_compute (vs : List Visit) (stack : List Formula) :
    replay vs stack = compute Node.assemble vs stack := by
  simp only [replay, compute, apply_eq_applyWith]

theorem replay_visits (f : Formula) : replay f.visits [] = some [f] := by
  rw [replay_eq_compute, compute_visits, fold_assemble]

private theorem visits_injective {f g : Formula} (h : f.visits = g.visits) : f = g := by
  have hreplay := f.replay_visits
  rw [h, g.replay_visits] at hreplay
  cases hreplay
  rfl

private theorem mem_occurrences_iff {v : Variable} {f : Formula} :
    v ∈ f.occurrences ↔ .atom v ∈ f.visits := by
  induction f with
  | atom w => simp
  | not f ih => simp [ih]
  | binary op l r ihl ihr => simp [ihl, ihr]

/-- Every traversal visits each node once, the nodes of a left operand before those of the right one
and both before the node above them, and passes to each call the results of the operands. Replayed
on an empty stack the visits leave exactly the formula. So they determine it, and its variables are
those that are visited. -/
theorem visits_encode_formula :
    (∀ f : Formula,
      (∀ (α : Type) (call : Node α → α),
        (f.foldM (recorded call)).run [] = (f.fold call, f.visits.reverse) ∧
        compute call f.visits [] = some [f.fold call]) ∧
      (∃ order : List Path, order.Nodup ∧ order.Pairwise Precedes ∧
        (∀ path, path ∈ order ↔ (f.node? path).isSome = true) ∧
        order.map f.node? = f.visits.map some) ∧
      replay f.visits [] = some [f] ∧
      ∀ v, v ∈ f.vars ↔ .atom v ∈ f.visits) ∧
    ∀ f g : Formula, f.visits = g.visits → f = g := by
  refine ⟨fun f => ⟨fun α call => ⟨?_, ?_⟩, ?_, ?_, fun v => ?_⟩, fun f g => visits_injective⟩
  · rw [run_recorded, List.append_nil]
  · exact compute_visits call f
  · exact ⟨f.postfixNodes, f.nodup_postfixNodes, f.pairwise_postfixNodes, fun _ => mem_postfixNodes,
      f.map_node?_postfixNodes⟩
  · exact f.replay_visits
  · rw [mem_vars, mem_occurrences_iff]

/-- In this formula no two operators commute with each other or with their operands. -/
theorem visits_encode_formula_conditional :
    let f := binary .implies (binary .iff (.atom .q) (.not (.atom .r))) (.atom .q)
    let vs : List Visit := [.atom .q, .atom .r, .not (), .binary .iff () (), .atom .q,
      .binary .implies () ()]
    f.visits = vs ∧ replay vs [] = some [f] ∧ (∀ v, v ∈ f.vars ↔ .atom v ∈ vs) ∧
      ∀ g : Formula, vs = g.visits → f = g := by
  intro f vs
  obtain ⟨hall, hinjective⟩ := visits_encode_formula
  obtain ⟨-, -, hreplay, hvars⟩ := hall f
  have hvisits : f.visits = vs := by decide
  rw [hvisits] at hreplay hvars
  exact ⟨hvisits, hreplay, hvars, fun g hg => hinjective f g (hvisits.trans hg)⟩

end PropLogic.Formula
