import DecisionPoints.Value.Origin

/-!
Reference values: null, an object of the heap, or a symbolic reference that nothing has resolved
yet.
-/
namespace DecisionPoints

/-- An unknown reference: any object that fits the static type, or null. -/
structure SymbolicReference where
  origin : Origin
  staticType : ClassName
deriving DecidableEq, Repr, Inhabited

instance : ToString SymbolicReference := ⟨fun r => r.origin.text⟩

inductive Reference where
  | null
  | object (position : Nat)
  | symbolic (reference : SymbolicReference)
deriving DecidableEq, Repr, Inhabited

namespace Reference

def text : Reference → String
  | .null => "null"
  | .object position => "Object[" ++ toString position ++ "]"
  | .symbolic reference => reference.origin.text

instance : ToString Reference := ⟨text⟩

def symbolic? : Reference → Option SymbolicReference
  | .symbolic reference => some reference
  | _ => none

def isNull : Reference → Bool
  | .null => true
  | _ => false

def order : Reference → Reference → Ordering
  | .null, .null => .eq
  | .null, _ => .lt
  | _, .null => .gt
  | .object a, .object b => compare a b
  | .object _, .symbolic _ => .lt
  | .symbolic _, .object _ => .gt
  | .symbolic a, .symbolic b => (compare a.origin b.origin).then (compare a.staticType b.staticType)

instance : Ord Reference := ⟨order⟩

end Reference

end DecisionPoints
