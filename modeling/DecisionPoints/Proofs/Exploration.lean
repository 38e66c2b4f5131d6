import DecisionPoints.Proofs.PathName
import DecisionPoints.Proofs.Siblings

/-!
Explorations. Every node of an exploration is a path; it is left as it is, or one access is
enumerated against its condition and it branches into the alternatives. Siblings exclude each other
and a path keeps what it has assumed, so what lies below one sibling never overlaps with what lies
below another. The names of the paths tell all nodes apart.
-/
namespace DecisionPoints

/-- How a node is expanded. Heap, policy and procedure may differ from node to node, and the
hierarchy need not be that of the heap. -/
structure Expansion where
  pc : UInt32
  access : Access
  policy : Policy
  table : ClassTable
  heap : HeapSnapshot
  hierarchy : Hierarchy
  procedure : DecisionProcedure

namespace Expansion

def context (e : Expansion) (path : PathCondition) : Context :=
  { policy := e.policy, heap := e.heap.view e.table, hierarchy := e.hierarchy,
    procedure := e.procedure, path }

def children (e : Expansion) (p : Path) : List Path :=
  match (e.context p.condition).alternatives e.access with
  | .ok alternatives => p.branch e.pc alternatives
  | .error _ => []

theorem eq_commit_of_child {e : Expansion} {p q : Path} {i : Nat}
    (h : (e.children p)[i]? = some q) :
    ∃ alternatives, (e.context p.condition).alternatives e.access = .ok alternatives ∧
      ∃ a, alternatives[i]? = some a ∧ p.commit e.pc a = q := by
  unfold children at h
  split at h
  · next alternatives found =>
    rw [Path.branch, List.getElem?_map] at h
    exact ⟨alternatives, found, Option.map_eq_some_iff.mp h⟩
  · cases h

theorem branchNumbers_child {e : Expansion} {p q : Path} {i : Nat}
    (h : (e.children p)[i]? = some q) : q.branchNumbers = p.branchNumbers ++ [i + 1] := by
  obtain ⟨alternatives, found, a, here, rfl⟩ := eq_commit_of_child h
  obtain ⟨candidates, _, rfl, _⟩ := Context.alternatives_eq_ok_iff.mp found
  simp [Path.branchNumbers, Path.commit, Context.branch_of_numbered here]

theorem condition_subset_child {e : Expansion} {p q : Path} {i : Nat}
    (h : (e.children p)[i]? = some q) : p.condition.clauses ⊆ q.condition.clauses := by
  obtain ⟨_, _, a, _, rfl⟩ := eq_commit_of_child h
  rw [Path.condition_commit]
  exact List.subset_append_left ..

theorem children_exclude {e : Expansion} {p q r : Path} {i j : Nat} (differ : i ≠ j)
    (hq : (e.children p)[i]? = some q) (hr : (e.children p)[j]? = some r) :
    ∃ x ∈ q.condition.clauses, ∃ y ∈ r.condition.clauses, x.Excludes y := by
  obtain ⟨alternatives, found, a, ha, rfl⟩ := eq_commit_of_child hq
  obtain ⟨_, again, b, hb, rfl⟩ := eq_commit_of_child hr
  obtain rfl := Except.ok.inj (found.symm.trans again)
  have excluded : a.guard.Excludes b.guard :=
    Context.siblings_exclude (t := e.table) (s := e.heap) rfl found differ ha hb
  obtain ⟨x, hx, y, hy, h⟩ := excluded
  simp only [Path.condition_commit, PathCondition.conjoin]
  exact ⟨x, List.mem_append_right _ hx, y, List.mem_append_right _ hy, h⟩

end Expansion

inductive ExplorationTree where
  | leaf
  | expand (e : Expansion) (below : Nat → ExplorationTree)

namespace ExplorationTree

def node? : ExplorationTree → Path → List Nat → Option Path
  | _, p, [] => some p
  | .leaf, _, _ :: _ => none
  | .expand e below, p, i :: address =>
    (e.children p)[i]?.bind fun q => (below i).node? q address

theorem node?_cons_eq_some {tree : ExplorationTree} {p q : Path} {i : Nat} {address : List Nat}
    (h : tree.node? p (i :: address) = some q) : ∃ e below child, tree = .expand e below ∧
      (e.children p)[i]? = some child ∧ (below i).node? child address = some q := by
  cases tree with
  | leaf => cases h
  | expand e below =>
    obtain ⟨child, here, rest⟩ := Option.bind_eq_some_iff.mp h
    exact ⟨e, below, child, rfl, here, rest⟩

theorem condition_subset_node {tree : ExplorationTree} {p q : Path} {address : List Nat}
    (h : tree.node? p address = some q) : p.condition.clauses ⊆ q.condition.clauses := by
  induction address generalizing tree p with
  | nil =>
    obtain rfl : p = q := by cases tree <;> exact Option.some.inj h
    exact List.Subset.refl _
  | cons i rest ih =>
    obtain ⟨e, below, child, rfl, here, later⟩ := node?_cons_eq_some h
    exact List.Subset.trans (Expansion.condition_subset_child here) (ih later)

theorem branchNumbers_node {tree : ExplorationTree} {p q : Path} {address : List Nat}
    (h : tree.node? p address = some q) :
    q.branchNumbers = p.branchNumbers ++ address.map (· + 1) := by
  induction address generalizing tree p with
  | nil =>
    obtain rfl : p = q := by cases tree <;> exact Option.some.inj h
    simp
  | cons i rest ih =>
    obtain ⟨e, below, child, rfl, here, later⟩ := node?_cons_eq_some h
    rw [ih later, Expansion.branchNumbers_child here]
    simp

theorem nodes_exclude {tree : ExplorationTree} {p q r : Path} {a b : List Nat}
    (hq : tree.node? p a = some q) (hr : tree.node? p b = some r) (hab : ¬ a <+: b)
    (hba : ¬ b <+: a) :
    ∃ x ∈ q.condition.clauses, ∃ y ∈ r.condition.clauses, x.Excludes y := by
  induction a generalizing tree p b with
  | nil => exact absurd List.nil_prefix hab
  | cons i as ih =>
    cases b with
    | nil => exact absurd List.nil_prefix hba
    | cons j bs =>
      obtain ⟨e, below, left, rfl, hleft, toq⟩ := node?_cons_eq_some hq
      obtain ⟨e', below', right, same, hright, tor⟩ := node?_cons_eq_some hr
      cases same
      by_cases meet : i = j
      · subst meet
        obtain rfl := Option.some.inj (hleft.symm.trans hright)
        have further : ¬ as <+: bs := fun h => hab (List.cons_prefix_cons.mpr ⟨rfl, h⟩)
        have further' : ¬ bs <+: as := fun h => hba (List.cons_prefix_cons.mpr ⟨rfl, h⟩)
        exact ih toq tor further further'
      · -- The addresses part here; what lies below keeps the clauses of the two siblings.
        obtain ⟨x, hx, y, hy, excluded⟩ := Expansion.children_exclude meet hleft hright
        exact ⟨x, condition_subset_node toq hx, y, condition_subset_node tor hy, excluded⟩

/-- Of two nodes neither of which stands above the other, the condition of one refutes that of the
other; and no two nodes have one name. -/
theorem nodes_never_overlap {tree : ExplorationTree} {a b : List Nat} {p q : Path}
    (left : tree.node? {} a = some p) (right : tree.node? {} b = some q) :
    (¬ a <+: b → ¬ b <+: a →
      DecisionProcedure.clausal.check p.condition ⟨q.condition.clauses⟩ = .unsat) ∧
    (a ≠ b → p.name ≠ q.name) := by
  constructor
  · intro hab hba
    obtain ⟨x, hx, y, hy, excluded⟩ := nodes_exclude left right hab hba
    refine Clause.feasibility_eq_unsat_iff.mpr ?_
    exact Clause.contradictory_of_excludes (List.mem_append_left _ hx)
      (List.mem_append_right _ hy) excluded
  · intro differ same
    have numbers := Path.branchNumbers_eq_of_name_eq same
    rw [branchNumbers_node left, branchNumbers_node right] at numbers
    have addresses : a.map (· + 1) = b.map (· + 1) := List.append_cancel_left numbers
    exact differ (List.map_injective_iff.mpr (fun _ _ h => Nat.succ.inj h) addresses)

theorem nodes_never_overlap_cousins :
    let onReceiver (name : String) : Expansion :=
      { pc := 0, access := .receiver (.symbolic ⟨.root name, .object⟩), policy := {},
        table := .base, heap := {}, hierarchy := ClassTable.base.hierarchy, procedure := .clausal }
    let tree : ExplorationTree :=
      .expand (onReceiver "r") fun
        | 0 => .expand (onReceiver "s") fun _ => .leaf
        | _ => .leaf
    ∃ p q, tree.node? {} [0, 1] = some p ∧ tree.node? {} [1] = some q ∧
      DecisionProcedure.clausal.check p.condition ⟨q.condition.clauses⟩ = .unsat ∧
      p.name ≠ q.name := by
  intro onReceiver tree
  have left : (tree.node? {} [0, 1]).isSome = true := by decide +kernel
  have right : (tree.node? {} [1]).isSome = true := by decide +kernel
  obtain ⟨p, hp⟩ := Option.isSome_iff_exists.mp left
  obtain ⟨q, hq⟩ := Option.isSome_iff_exists.mp right
  have apart := nodes_never_overlap hp hq
  exact ⟨p, q, hp, hq, apart.1 (by decide) (by decide), apart.2 (by decide)⟩

end ExplorationTree
end DecisionPoints
