import DecisionPoints.Dispatch.Request
import DecisionPoints.Enumeration.Access
import DecisionPoints.Fault.Located
import DecisionPoints.Operand.Pool
import DecisionPoints.Replay
import DecisionPoints.Text.Quoted

/-!
The errors of the whole library. All of them are breaches of contract by the caller; what happens to
the analyzed program on one branch is never one.
-/
namespace DecisionPoints

inductive EngineError where
  | access (e : AccessError)
  | dispatch (e : DispatchError)
  | operand (e : OperandError)
  | replay (e : ReplayError)
  | other (text : String)
deriving DecidableEq, Repr

namespace EngineError

def message : EngineError → String
  | .access e => e.message
  | .dispatch e => e.message
  | .operand e => e.message
  | .replay e => e.message
  | .other text => "Unknown Error: " ++ Quoted.quote text

instance : ToString EngineError := ⟨message⟩

end EngineError

end DecisionPoints
