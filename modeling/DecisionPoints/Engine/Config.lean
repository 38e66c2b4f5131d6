import DecisionPoints.Enumeration.Context
import DecisionPoints.Environment.Basic

/-!
The configuration of an engine.
-/
namespace DecisionPoints

structure Config where
  policy : Policy := {}
  /-- The environment that the analyzed program sees through overridden native methods. -/
  environment : Environment := {}

end DecisionPoints
