import DecisionPoints.Condition.Guard

/-!
Worlds: the meaning of clauses. A world gives every term an integer and every origin one referent.
Nothing here is run; it is what satisfiability of a condition is about.
-/
namespace DecisionPoints

structure World where
  value : String → Int
  referent : Origin → Referent

namespace Clause

def Holds (w : World) : Clause → Prop
  | .resolves reference referent => w.referent reference = referent
  | .inBounds index length =>
    0 ≤ index.eval w.value ∧ index.eval w.value < length.eval w.value
  | .outOfBounds index length =>
    ¬ (0 ≤ index.eval w.value ∧ index.eval w.value < length.eval w.value)

end Clause

def Satisfiable (clauses : List Clause) : Prop := ∃ w : World, ∀ c ∈ clauses, c.Holds w

end DecisionPoints
