import DecisionPoints.Condition.Clause

/-!
What the enumeration of alternatives asks of a heap. Any answers are allowed; the two queries with a
default may be left out by a heap that does not track expansions.
-/
namespace DecisionPoints

structure AliasCandidate where
  position : Nat
  /-- The origin through which the object was first reached. -/
  origin : Origin
deriving DecidableEq, Repr

structure HeapView where
  /-- The objects that a reference of the type and origin may alias, in a fixed order. -/
  aliasCandidates : ClassName → Origin → List AliasCandidate
  /-- Whether a reference of the type may be an object not seen before. -/
  admitsFresh : ClassName → Bool
  /-- Whether the reference of the type and origin may be null. -/
  admitsNull : ClassName → Origin → Bool
  classAt? : Nat → Option ClassName
  expansions : ClassName → List ClassName :=
    fun required => if admitsFresh required then [required] else []
  /-- The object discovered by resolving the reference of the origin to a fresh object. -/
  materialized? : Origin → Option Nat := fun _ => none

end DecisionPoints
