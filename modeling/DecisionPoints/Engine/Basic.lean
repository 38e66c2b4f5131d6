import DecisionPoints.Dispatch.Selection
import DecisionPoints.Engine.Config
import DecisionPoints.Engine.Error
import DecisionPoints.Enumeration.Alternatives
import DecisionPoints.Native.Registry
import DecisionPoints.Watchdog

/-!
The engine: what is fixed for an analysis, with the number of operations performed so far. The heap
and the path condition belong to the branch being executed and come with every call. An operation is
counted and polled for before anything else happens, and a stopped one does nothing.
-/
namespace DecisionPoints

structure Engine where
  config : Config
  classes : ClassTable
  procedure : DecisionProcedure
  natives : Registry
  watchdog : Watchdog
  operations : Nat := 0

namespace Engine

def start (config : Config) (classes : ClassTable) (procedure : DecisionProcedure)
    (watchdog : Watchdog) : Engine :=
  { config, classes, procedure, watchdog, natives := .ofEnvironment config.environment }

def counted (e : Engine) : Engine := { e with operations := e.operations + 1 }

def isStopped (e : Engine) : Bool :=
  e.operations % max e.watchdog.pollEvery 1 = 0 && e.watchdog.shouldStop

def context (e : Engine) (heap : HeapView) (path : PathCondition) : Context :=
  { policy := e.config.policy, heap, hierarchy := e.classes.hierarchy, procedure := e.procedure,
    path }

def stopJournal (pc : UInt32) : Journal :=
  Journal.warn s!"Engine stopped by the watchdog at pc {pc}"

def enumerate (e : Engine) (heap : HeapView) (path : PathCondition) (a : Access) :
    Except AccessError (List Alternative) × Engine :=
  let e := e.counted
  (if e.isStopped then .error .stoppedByWatchdog else (e.context heap path).alternatives a, e)

def enumerateJournal (e : Engine) (heap : HeapView) (path : PathCondition) (pc : UInt32)
    (a : Access) : Journal :=
  if e.counted.isStopped then stopJournal pc else (e.context heap path).journal pc a

end Engine

end DecisionPoints
