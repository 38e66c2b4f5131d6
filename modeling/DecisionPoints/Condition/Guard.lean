import DecisionPoints.Condition.Clause

/-!
Guards and path conditions are conjunctions of clauses in the order in which they were assumed. A
guard belongs to one alternative, a path condition to one branch of the execution.
-/
namespace DecisionPoints

def Clause.conjunctionText : List Clause → String
  | [] => "true"
  | clauses => " && ".intercalate (clauses.map Clause.text)

structure Guard where
  clauses : List Clause := []
deriving DecidableEq, Repr, Inhabited

namespace Guard

def text (g : Guard) : String := Clause.conjunctionText g.clauses

instance : ToString Guard := ⟨text⟩

def isTrivial (g : Guard) : Bool := g.clauses.isEmpty

def order : List Clause → List Clause → Ordering
  | [], [] => .eq
  | [], _ :: _ => .lt
  | _ :: _, [] => .gt
  | a :: as, b :: bs => (compare a b).then (order as bs)

instance : Ord Guard := ⟨fun g h => order g.clauses h.clauses⟩

end Guard

structure PathCondition where
  clauses : List Clause := []
deriving DecidableEq, Repr, Inhabited

namespace PathCondition

def text (p : PathCondition) : String := Clause.conjunctionText p.clauses

instance : ToString PathCondition := ⟨text⟩

def push (p : PathCondition) (clause : Clause) : PathCondition := ⟨p.clauses ++ [clause]⟩

def conjoin (p : PathCondition) (g : Guard) : PathCondition := ⟨p.clauses ++ g.clauses⟩

def referentOf? (p : PathCondition) (origin : Origin) : Option Referent :=
  p.clauses.findSome? fun
    | .resolves reference referent => if reference = origin then some referent else none
    | _ => none

theorem mem_of_referentOf?_eq_some {p : PathCondition} {origin : Origin} {referent : Referent}
    (h : p.referentOf? origin = some referent) : .resolves origin referent ∈ p.clauses := by
  obtain ⟨clause, member, found⟩ := List.exists_of_findSome?_eq_some h
  cases clause with
  | resolves o r =>
    obtain ⟨rfl, rfl⟩ : o = origin ∧ r = referent := by simpa using found
    exact member
  | inBounds i l => cases found
  | outOfBounds i l => cases found

theorem not_mem_of_referentOf?_eq_none {p : PathCondition} {origin : Origin}
    (h : p.referentOf? origin = none) (referent : Referent) :
    .resolves origin referent ∉ p.clauses := by
  intro member
  have unresolved := List.findSome?_eq_none_iff.mp h _ member
  simp at unresolved

end PathCondition

end DecisionPoints
