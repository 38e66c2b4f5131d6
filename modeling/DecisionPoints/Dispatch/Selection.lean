import DecisionPoints.Dispatch.Lookup
import DecisionPoints.Journal

/-!
Selection of the method that an invocation executes. Once the reference of a request is resolved,
its discipline fixes a plan: take the resolved method, search from some class, or fail.
-/
namespace DecisionPoints

inductive SelectionPlan where
  | take (method : DeclaredMethod)
  | search (root : ClassName) (allowPrivate : Bool)
  | unimplemented (receiver : ClassName)
  | fail (failure : DispatchFailure)
deriving DecidableEq, Repr

namespace ClassTable

/-- Whether a special invocation calls a method of a superclass of the invoking class. -/
def isSuperCall (t : ClassTable) (r : Request) (resolved : DeclaredMethod)
    (invoking : ClassName) : Bool :=
  resolved.method.name ≠ "<init>" && !r.isInterfaceMethod && r.method.owner ≠ invoking &&
    t.isSubtype invoking r.method.owner

def planStatic (r : Request) (resolved : DeclaredMethod) : SelectionPlan :=
  if resolved.flags.isStatic then .take resolved
  else .fail (.incompatibleClassChange r.method)

def planSpecial (t : ClassTable) (r : Request) (resolved : DeclaredMethod) :
    Except DispatchError SelectionPlan :=
  if resolved.flags.isStatic then .ok (.fail (.incompatibleClassChange r.method))
  else
    match r.invokingClass with
    | none => .error .missingInvokingClass
    | some invoking =>
      if t.isSuperCall r resolved invoking then
        match (t.find? invoking).bind (·.superclass) with
        | some superclass => .ok (.search superclass true)
        | none => .ok (.fail (.noClassDefFound invoking))
      else .ok (.search r.method.owner true)

def planVirtual (t : ClassTable) (mustImplement : Bool) (r : Request)
    (resolved : DeclaredMethod) : Except DispatchError SelectionPlan :=
  if resolved.flags.isStatic then .ok (.fail (.incompatibleClassChange r.method))
  else if resolved.flags.isPrivate then .ok (.take resolved)
  else
    match r.receiverType with
    | none => .error (.missingReceiverType r.method.owner)
    | some receiver =>
      let root := if receiver.isArray then .object else receiver
      if (t.find? root).isNone then .ok (.fail (.noClassDefFound root))
      else if mustImplement && !t.isSubtype receiver r.method.owner then
        .ok (.unimplemented receiver)
      else .ok (.search root false)

def plan (t : ClassTable) (d : Discipline) (r : Request) (resolved : DeclaredMethod) :
    Except DispatchError SelectionPlan :=
  match d with
  | .static => .ok (planStatic r resolved)
  | .special => t.planSpecial r resolved
  | .virtual => t.planVirtual false r resolved
  | .interface => t.planVirtual true r resolved

def carryOut (t : ClassTable) (r : Request) :
    SelectionPlan → Except DispatchFailure DeclaredMethod
  | .take method => .ok method
  | .search root allowPrivate => t.selectFrom root r allowPrivate
  | .unimplemented _ => .error (.incompatibleClassChange r.method)
  | .fail failure => .error failure

def dispatch (t : ClassTable) (d : Discipline) (r : Request) :
    Except DispatchError (Except DispatchFailure DeclaredMethod) :=
  match t.resolveReference r with
  | .error failure => .ok (.error failure)
  | .ok resolved => return t.carryOut r (← t.plan d r resolved)

def dispatchJournal (t : ClassTable) (d : Discipline) (r : Request) : Journal :=
  match t.resolveReference r with
  | .error _ => []
  | .ok resolved =>
    match t.plan d r resolved with
    | .ok (.search root allowPrivate) =>
      match t.inheritedFrom? root r allowPrivate with
      | some m =>
        Journal.trace s!"Selected {r.method.name}{r.method.descriptor} declared in {m.owner}"
      | none => []
    | .ok (.unimplemented receiver) =>
      Journal.trace s!"{receiver} does not implement {r.method.owner}"
    | _ => []

end ClassTable
end DecisionPoints
