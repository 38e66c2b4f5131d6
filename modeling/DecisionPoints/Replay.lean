import DecisionPoints.Path

/-!
Replays: recorded decisions that steer a later exploration. Every selection takes the next recorded
decision out of the record, whether or not an alternative matches it.
-/
namespace DecisionPoints

structure RecordedDecision where
  branch : Nat
  identity : Option Identity := none
deriving DecidableEq

inductive ReplayError where
  | diverged (expected : Nat) (available : List Nat)
  /-- The alternative with the recorded number has another identity, each given as text. -/
  | identityMismatch (branch : Nat) (expected found : String)
  | exhausted
deriving DecidableEq, Repr

namespace ReplayError

def message : ReplayError → String
  | .diverged expected available =>
    s!"Branch {expected} was recorded but only branches [" ++
      ", ".intercalate (available.map toString) ++ "] exist"
  | .identityMismatch branch expected found =>
    s!"Branch {branch} was recorded with identity {expected} but has identity {found}"
  | .exhausted => "The recorded exploration has no decisions left"

instance : ToString ReplayError := ⟨message⟩

end ReplayError

structure Replay where
  record : List RecordedDecision := []
deriving DecidableEq

namespace Replay

def ofBranches (branches : List Nat) : Replay := ⟨branches.map fun branch => { branch }⟩

def ofPath (p : Path) : Replay :=
  ⟨p.decisions.map fun d => ⟨d.alternative.branch, some d.alternative.identity⟩⟩

def remaining (r : Replay) : Nat := r.record.length

def isFinished (r : Replay) : Bool := r.record.isEmpty

def matching (recorded : RecordedDecision) (a : Alternative) : Except ReplayError Alternative :=
  match recorded.identity with
  | none => .ok a
  | some expected =>
    let found := a.identity
    if found = expected then .ok a
    else .error (.identityMismatch recorded.branch expected.text found.text)

/-- The alternative that the next recorded decision took, and the replay of the rest. -/
def select (r : Replay) (as : List Alternative) : Except ReplayError Alternative × Replay :=
  match r.record with
  | [] => (.error .exhausted, r)
  | recorded :: rest =>
    match as.find? (·.branch = recorded.branch) with
    | none => (.error (.diverged recorded.branch (as.map (·.branch))), ⟨rest⟩)
    | some a => (matching recorded a, ⟨rest⟩)

end Replay

end DecisionPoints
