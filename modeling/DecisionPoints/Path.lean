import DecisionPoints.Alternative.Basic
import DecisionPoints.Condition.Guard
import DecisionPoints.Journal

/-!
Paths: the decisions taken along one branch of the execution. What a path assumes, its condition, is
the conjunction of the guards of its decisions. A write-back belongs to the branch that commits to
its alternative, so siblings never see each other's.
-/
namespace DecisionPoints

structure Decision where
  pc : UInt32
  alternative : Alternative
deriving Repr

structure Path where
  decisions : List Decision := []
deriving Repr

namespace Path

def commit (p : Path) (pc : UInt32) (a : Alternative) : Path := ⟨p.decisions ++ [⟨pc, a⟩]⟩

def branch (p : Path) (pc : UInt32) (as : List Alternative) : List Path := as.map (p.commit pc)

def condition (p : Path) : PathCondition := ⟨p.decisions.flatMap (·.alternative.guard.clauses)⟩

@[simp] theorem condition_commit (p : Path) (pc : UInt32) (a : Alternative) :
    (p.commit pc a).condition = p.condition.conjoin a.guard := by
  simp [commit, condition, PathCondition.conjoin]

def branchNumbers (p : Path) : List Nat := p.decisions.map (·.alternative.branch)

def identities (p : Path) : List Identity := p.decisions.map (·.alternative.identity)

def depth (p : Path) : Nat := p.decisions.length

def name (p : Path) : String := String.join (p.branchNumbers.map fun n => "." ++ toString n)

def text (p : Path) : String := if p.decisions.isEmpty then "." else p.name

instance : ToString Path := ⟨text⟩

def commitJournal (p : Path) (pc : UInt32) (a : Alternative) : Journal :=
  Journal.debug s!"Path {p} commits to {a} at pc {pc}"

def branchJournal (p : Path) (pc : UInt32) (as : List Alternative) : Journal :=
  as.flatMap (p.commitJournal pc)

end Path

end DecisionPoints
