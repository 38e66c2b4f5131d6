import DecisionPoints.Alternative.Outcome
import DecisionPoints.Class.Member

/-!
Accesses: the six instructions that may find an unresolved reference, with what they see of the
heap. An error of an access is a breach of contract by the caller, never an outcome of the analyzed
program.
-/
namespace DecisionPoints

inductive Access where
  /-- A load from an array of references. The element is fresh if it was made up for this access. -/
  | arrayLoad (array : Nat) (length index : Expression) (element : Reference) (isFresh : Bool)
  /-- A store of a reference that is already resolved. -/
  | arrayStore (array : Nat) (length index : Expression) (value : Reference)
  | fieldLoad (field : Signature) (loaded : Reference)
  | checkCast (target : ClassName) (reference : Reference)
  | instanceOf (target : ClassName) (reference : Reference)
  | receiver (reference : Reference)
deriving DecidableEq, Repr

def Access.family : Access → Family
  | .arrayLoad .. => .arrayLoad
  | .arrayStore .. => .arrayStore
  | .fieldLoad .. => .fieldLoad
  | .checkCast .. => .checkCast
  | .instanceOf .. => .instanceOf
  | .receiver _ => .invoke

inductive AccessError where
  | notSymbolic (reference : Reference)
  | unresolvedReference (reference : Reference)
  | unknownObject (position : Nat)
  | requiredTypeMismatch (required actual : ClassName)
  | unknownClass (className : ClassName)
  | notAnArray (className : ClassName)
  | notAReference (className : ClassName)
  | noAlternatives
  | stoppedByWatchdog
deriving DecidableEq, Repr

namespace AccessError

def message : AccessError → String
  | .notSymbolic reference =>
    s!"The reference {reference} is not symbolic and cannot be resolved by enumeration"
  | .unresolvedReference reference =>
    s!"The reference {reference} must be resolved before this instruction executes"
  | .unknownObject position => s!"There is no object at heap position {position}"
  | .requiredTypeMismatch required actual =>
    s!"A value of type {actual} was supplied where type {required} is required"
  | .unknownClass className => s!"The class {className} is not known to the class hierarchy"
  | .notAnArray className => s!"The type {className} is not an array type"
  | .notAReference className => s!"The type {className} is not a reference type"
  | .noAlternatives => "Enumeration of a well-typed access produced no alternatives"
  | .stoppedByWatchdog => "Enumeration was stopped by the watchdog"

instance : ToString AccessError := ⟨message⟩

end AccessError

end DecisionPoints
