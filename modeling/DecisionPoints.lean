import DecisionPoints.Condition.Decider
import DecisionPoints.Condition.World
import DecisionPoints.Engine.Invocation
import DecisionPoints.Environment.Host
import DecisionPoints.Heap.Snapshot
import DecisionPoints.Memo
import DecisionPoints.Operand.Supply
import DecisionPoints.Proofs.Alternatives
import DecisionPoints.Proofs.Contradiction
import DecisionPoints.Proofs.Resolutions
import DecisionPoints.Proofs.Siblings
import DecisionPoints.Proofs.Coverage
import DecisionPoints.Proofs.Exploration
import DecisionPoints.Proofs.ReceiverBranches
import DecisionPoints.Proofs.Consistency
import DecisionPoints.Proofs.Steering
import DecisionPoints.Proofs.PerResolution
import DecisionPoints.Proofs.Repetition
import DecisionPoints.Proofs.UniqueReading
import DecisionPoints.Proofs.CanonicalForm
import DecisionPoints.Proofs.Assignments
import DecisionPoints.Proofs.ClassWalks
import DecisionPoints.Proofs.Exactness
import DecisionPoints.Proofs.SubtypeOrder
import DecisionPoints.Proofs.Interchange
import DecisionPoints.Proofs.GrowingConditions
import DecisionPoints.Proofs.PolicyFilters
import DecisionPoints.Proofs.ReceiverIndependence
import DecisionPoints.Proofs.ArrayElements
import DecisionPoints.Proofs.MethodLookup
import DecisionPoints.Proofs.Overriding
import DecisionPoints.Proofs.SpecialCalls
import DecisionPoints.Proofs.MinimalInterfaces
import DecisionPoints.Proofs.InterfaceOrder
import DecisionPoints.Proofs.HeapGrowth
import DecisionPoints.Proofs.CastsAndTests
import DecisionPoints.Proofs.NarrowingCasts
import DecisionPoints.Proofs.DistinctForms
import DecisionPoints.Proofs.ArrayNames
import DecisionPoints.Proofs.ClassDescriptors
import DecisionPoints.Proofs.WalkRounds
import DecisionPoints.Proofs.BranchOrder
import DecisionPoints.Proofs.PoolIndices
import DecisionPoints.Proofs.OperandDecoding
import DecisionPoints.Proofs.ReplayProgress
import DecisionPoints.Proofs.GatheredErrors
import DecisionPoints.Proofs.ProgramOrder
import DecisionPoints.Proofs.ConcreteValues
import DecisionPoints.Proofs.Descent
