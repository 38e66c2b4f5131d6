import DecisionPoints.Condition.Guard
import DecisionPoints.Journal

/-!
Answers to the question whether a guard can hold on a path, and the procedures that give them. A
procedure is any function; what makes its answers trustworthy is stated of it where it is needed.
-/
namespace DecisionPoints

inductive Feasibility where
  | sat
  | unsat
  | unknown
deriving DecidableEq, Repr, Inhabited

namespace Feasibility

def text : Feasibility → String
  | .sat => "Sat"
  | .unsat => "Unsat"
  | .unknown => "Unknown"

/-- Whether an alternative with this answer is kept: the undecided ones are. -/
def isFeasible : Feasibility → Bool
  | .unsat => false
  | .sat | .unknown => true

end Feasibility

structure DecisionProcedure where
  check : PathCondition → Guard → Feasibility
  journal : PathCondition → Guard → Journal := fun _ _ => []

end DecisionPoints
