import DecisionPoints.Alternative.Basic
import DecisionPoints.Enumeration.Candidate

/-!
The alternatives of an access: the candidates that are not refuted, numbered from one in their
order. The order does not depend on what is pruned, so enumerating the same access again against
the same heap and path gives the same numbers.
-/
namespace DecisionPoints
namespace Context

def judge (c : Context) (o : Outcome) : Feasibility :=
  if c.policy.feasibilityChecks then c.procedure.check c.path o.guard else .unknown

/-- The candidates that are kept, those that nothing decided marked for a re-check. -/
def kept (c : Context) (candidates : List Outcome) : List Alternative :=
  candidates.filterMap fun o =>
    match c.judge o with
    | .unsat => none
    | .unknown => some { o with needsRecheck := true }
    | .sat => some { o with }

def numbered (as : List Alternative) : List Alternative :=
  as.zipIdx.map fun (a, i) => { a with branch := i + 1 }

def alternatives (c : Context) (a : Access) : Except AccessError (List Alternative) := do
  let kept := c.kept (← c.candidates a)
  if kept.isEmpty && c.policy.faultAlternatives then .error .noAlternatives
  else return numbered kept

def settledJournal (c : Context) (a : Access) : Journal :=
  match c.subject? a with
  | .ok (some r) =>
    match c.path.referentOf? r.origin with
    | some referent =>
      Journal.trace s!"Reference {r} is already resolved by {Clause.resolves r.origin referent}"
    | none => []
  | _ => []

def judgementJournal (c : Context) (o : Outcome) : Journal :=
  let asked := if c.policy.feasibilityChecks then c.procedure.journal c.path o.guard else []
  let about := o.family.code ++ " alternative " ++ o.kind.text ++ " under " ++ o.guard.text
  asked ++ match c.judge o with
    | .unsat => Journal.debug ("Pruned infeasible " ++ about)
    | .unknown =>
      if c.policy.feasibilityChecks then
        Journal.warn ("Could not decide the feasibility of " ++ about)
      else []
    | .sat => []

def journal (c : Context) (pc : UInt32) (a : Access) : Journal :=
  c.settledJournal a ++
    match c.candidates a with
    | .error _ => []
    | .ok candidates =>
      candidates.flatMap c.judgementJournal ++
        match c.alternatives a with
        | .error _ => []
        | .ok [] =>
          Journal.debug
            s!"Every non-faulting alternative of {a.family.code} at pc {pc} is infeasible"
        | .ok as => as.flatMap fun kept => Journal.debug s!"Kept alternative {kept}"

end Context
end DecisionPoints
