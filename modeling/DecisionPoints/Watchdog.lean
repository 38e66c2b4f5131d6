/-!
Watchdogs: whether an analysis should be abandoned. The engine asks between operations, once every
so many of them.
-/
namespace DecisionPoints

inductive Watchdog where
  | lazy
  | flag (raised : Bool) (interval : Nat)
deriving DecidableEq, Repr

namespace Watchdog

def lowered : Watchdog := .flag false 100

def shouldStop : Watchdog → Bool
  | .lazy => false
  | .flag raised _ => raised

def pollEvery : Watchdog → Nat
  | .lazy => UInt64.size - 1
  | .flag _ interval => interval

end Watchdog

end DecisionPoints
