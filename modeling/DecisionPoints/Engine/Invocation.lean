import DecisionPoints.Engine.Basic

/-!
Invocations. A symbolic receiver forks the execution into one branch for every way of resolving it,
and the method is dispatched on each; any other receiver leaves one branch. A dispatch that fails is
the target of its branch and no error.
-/
namespace DecisionPoints

structure Invocation where
  flags : InvocationFlags
  method : Signature
  isInterfaceMethod : Bool
  invokingClass : ClassName
  receiver : Option Reference := none
deriving DecidableEq, Repr

inductive Target where
  | method (m : DeclaredMethod)
  | overridden (m : DeclaredMethod)
  | nullReceiver
  | failure (f : DispatchFailure)
deriving DecidableEq, Repr

namespace Target

def fault? : Target → Option ClassName
  | .method _ | .overridden _ => none
  | .nullReceiver => some ClassName.nullPointer
  | .failure f => some f.errorClass

def text : Target → String
  | .method m => m.text
  | .overridden m => m.text ++ " (overridden)"
  | .nullReceiver => "null receiver"
  | .failure f => f.text

end Target

/-- The target on one branch, with the alternative for the receiver that selects the branch. -/
structure Dispatched where
  alternative : Option Alternative
  target : Target

namespace Invocation

def request (i : Invocation) : Request :=
  { method := i.method, isInterfaceMethod := i.isInterfaceMethod,
    invokingClass := some i.invokingClass }

def requestOn (i : Invocation) (receiver : ClassName) : Request :=
  { i.request with receiverType := some receiver }

end Invocation

inductive ReceiverState where
  | null
  | ofClass (className : ClassName)
  /-- There is no receiver, or nothing depends on its class. -/
  | irrelevant
deriving DecidableEq, Repr

inductive ReceiverPlan where
  | single (state : ReceiverState)
  | fork (reference : Reference)
deriving DecidableEq, Repr

namespace Engine

def targetOf (e : Engine) : Except DispatchFailure DeclaredMethod → Target
  | .error f => .failure f
  | .ok m =>
    if !m.flags.isNative then .method m
    else if e.natives.isOverridden m.signature then .overridden m
    else .failure (.unresolvedNative m.signature)

def dispatch (e : Engine) (d : Discipline) (r : Request) : Except DispatchError Target :=
  return e.targetOf (← e.classes.dispatch d r)

def dispatchJournal (e : Engine) (pc : UInt32) (d : Discipline) (r : Request) : Journal :=
  e.classes.dispatchJournal d r ++
    match e.classes.dispatch d r with
    | .error _ => []
    | .ok (.ok m) =>
      if m.flags.isNative && !e.natives.isOverridden m.signature then
        Journal.warn s!"Native method {m.signature} invoked at pc {pc} has no override"
      else []
    | .ok (.error f) =>
      if d = .static then Journal.debug s!"Static invocation at pc {pc} fails: {f}" else []

def targetOn (e : Engine) (d : Discipline) (i : Invocation) :
    ReceiverState → Except DispatchError Target
  | .null => .ok .nullReceiver
  | .ofClass className =>
    e.dispatch d (if d.usesReceiver then i.requestOn className else i.request)
  | .irrelevant => e.dispatch d i.request

def targetJournal (e : Engine) (pc : UInt32) (d : Discipline) (i : Invocation) :
    ReceiverState → Journal
  | .null => []
  | .ofClass className =>
    e.dispatchJournal pc d (if d.usesReceiver then i.requestOn className else i.request)
  | .irrelevant => e.dispatchJournal pc d i.request

def receiverPlan (e : Engine) (heap : HeapView) (path : PathCondition) (d : Discipline)
    (i : Invocation) : Except AccessError ReceiverPlan :=
  if d = .static then .ok (.single .irrelevant)
  else
    match i.receiver with
    | none => .ok (.single .irrelevant)
    | some .null => .ok (.single .null)
    | some (.object position) =>
      if d.usesReceiver then
        return .single (.ofClass (← (e.context heap path).classAt position))
      else .ok (.single .irrelevant)
    | some (.symbolic r) => .ok (.fork (.symbolic r))

def receiverOn (c : Context) (a : Alternative) : Except AccessError ReceiverState :=
  match a.kind.referent? with
  | some (.alias position _) => return .ofClass (← c.classAt position)
  | some (.fresh className) => .ok (.ofClass className)
  | some .null | none => .ok .null

def branchOf (e : Engine) (c : Context) (d : Discipline) (i : Invocation) (a : Alternative) :
    Except EngineError Dispatched := do
  let state ← (receiverOn c a).mapError .access
  let target ← (e.targetOn d i state).mapError .dispatch
  return ⟨some a, target⟩

def branches (e : Engine) (heap : HeapView) (path : PathCondition) (i : Invocation) :
    Except EngineError (List Dispatched) := do
  let d ← i.flags.discipline.mapError .dispatch
  match ← (e.receiverPlan heap path d i).mapError .access with
  | .single state => return [⟨none, ← (e.targetOn d i state).mapError .dispatch⟩]
  | .fork reference =>
    let c := e.context heap path
    let alternatives ← (c.alternatives (.receiver reference)).mapError .access
    alternatives.mapM (e.branchOf c d i)

def branchesJournal (e : Engine) (c : Context) (pc : UInt32) (d : Discipline) (i : Invocation) :
    List Alternative → Journal
  | [] => []
  | a :: rest =>
    match receiverOn c a with
    | .error _ => []
    | .ok state =>
      e.targetJournal pc d i state ++
        match e.targetOn d i state with
        | .error _ => []
        | .ok target =>
          Journal.debug (s!"Branch {a.branch} at pc {pc} invokes " ++ target.text) ++
            e.branchesJournal c pc d i rest

def invoke (e : Engine) (heap : HeapView) (path : PathCondition) (i : Invocation) :
    Except EngineError (List Dispatched) × Engine :=
  let e := e.counted
  (if e.isStopped then .error (.access .stoppedByWatchdog) else e.branches heap path i, e)

def invokeJournal (e : Engine) (heap : HeapView) (path : PathCondition) (pc : UInt32)
    (i : Invocation) : Journal :=
  if e.counted.isStopped then stopJournal pc
  else
    match i.flags.discipline with
    | .error _ => []
    | .ok d =>
      match e.receiverPlan heap path d i with
      | .error _ => []
      | .ok (.single state) => e.targetJournal pc d i state
      | .ok (.fork reference) =>
        let c := e.context heap path
        c.journal pc (.receiver reference) ++
          match c.alternatives (.receiver reference) with
          | .error _ => []
          | .ok alternatives => e.branchesJournal c pc d i alternatives

end Engine

end DecisionPoints
