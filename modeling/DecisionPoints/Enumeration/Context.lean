import DecisionPoints.Class.Subtyping
import DecisionPoints.Condition.Feasibility
import DecisionPoints.Enumeration.Access
import DecisionPoints.Heap.View

/-!
What an access is enumerated against: the policy of the analysis, a view of the heap, the classes,
the decision procedure and the condition of the path. The context only answers questions; no
enumeration changes it.
-/
namespace DecisionPoints

structure Policy where
  /-- Whether the decision procedure is asked before an alternative is kept. Otherwise every
  alternative is kept and marked for a re-check. -/
  feasibilityChecks : Bool := true
  /-- Whether alternatives in which the instruction fails are produced. -/
  faultAlternatives : Bool := true
  nullReceivers : Bool := true
deriving DecidableEq, Repr

structure Context where
  policy : Policy
  heap : HeapView
  hierarchy : Hierarchy
  procedure : DecisionProcedure
  path : PathCondition

namespace Context

def classAt (c : Context) (position : Nat) : Except AccessError ClassName :=
  match c.heap.classAt? position with
  | some className => .ok className
  | none => .error (.unknownObject position)

def componentAt (c : Context) (array : Nat) : Except AccessError ClassName := do
  let className ← c.classAt array
  match className.component? with
  | none => .error (.notAnArray className)
  | some component =>
    if component.isReference then .ok component else .error (.notAReference component)

def ensureKnown (c : Context) (className : ClassName) : Except AccessError Unit :=
  if c.hierarchy.isKnown className then .ok () else .error (.unknownClass className)

def ensureResolvable (c : Context) (r : SymbolicReference) : Except AccessError Unit :=
  if r.staticType.isReference then c.ensureKnown r.staticType
  else .error (.notAReference r.staticType)

/-- Whether what a reference resolves to is an instance of a class. Null is an instance of none. -/
def isInstance (c : Context) (target : ClassName) : Referent → Except AccessError Bool
  | .alias position _ => return c.hierarchy.isSubtype (← c.classAt position) target
  | .fresh className => .ok (c.hierarchy.isSubtype className target)
  | .null => .ok false

end Context

def Reference.expectSymbolic : Reference → Except AccessError SymbolicReference
  | .symbolic r => .ok r
  | r => .error (.notSymbolic r)

end DecisionPoints
