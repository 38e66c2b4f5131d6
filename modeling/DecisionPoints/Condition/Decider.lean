import DecisionPoints.Condition.Feasibility
import DecisionPoints.Keyed

/-!
The decision procedure that reasons over clauses alone. One loop looks for a reference that is
resolved in two ways. Another one collects how each pair of index and length is bounded, and a third
walks these pairs: it refutes a pair that is bounded both ways or against its literals, and leaves
the question open where a term occurs twice.
-/
namespace DecisionPoints

namespace Clause

/-- The first clause that resolves a reference in another way than an earlier one, after that
earlier one. The map holds the resolutions met so far. -/
def firstConflict? (resolved : Keyed Origin Clause) : List Clause → Option (Clause × Clause)
  | [] => none
  | c :: rest =>
    match c.origin? with
    | none => firstConflict? resolved rest
    | some origin =>
      match resolved.get? origin with
      | none => firstConflict? (resolved.insert origin c) rest
      | some e =>
        if e = c then firstConflict? (resolved.insert origin c) rest else some (e, c)

def referenceFeasibility (clauses : List Clause) : Feasibility :=
  if (firstConflict? {} clauses).isSome then .unsat else .sat

end Clause

structure Polarity where
  inside : Bool := false
  outside : Bool := false

namespace Polarity

def add (p : Polarity) (isInside : Bool) : Polarity :=
  if isInside then { p with inside := true } else { p with outside := true }

end Polarity

abbrev BoundedPair := (Expression × Expression) × Polarity

namespace Clause

def collect (m : Keyed (Expression × Expression) Polarity) (c : Clause) :
    Keyed (Expression × Expression) Polarity :=
  match c.bounded? with
  | none => m
  | some pair => m.insert pair (((m.get? pair).getD {}).add c.isInBounds)

def polarities (clauses : List Clause) : Keyed (Expression × Expression) Polarity :=
  clauses.foldl collect {}

/-- Whether one constraint can hold, where its sides share no terms. -/
def pairFeasibility (index length : Expression) (isInside : Bool) : Feasibility :=
  let sat (holds : Bool) : Feasibility := if holds then .sat else .unsat
  match index.concrete?, length.concrete?, isInside with
  | some i, some l, true => sat (0 ≤ i.toInt && i.toInt < l.toInt)
  | some i, some l, false => sat (i.toInt < 0 || l.toInt ≤ i.toInt)
  | some i, none, true => sat (0 ≤ i.toInt)
  | none, some l, true => sat (0 < l.toInt)
  | _, _, _ => .sat

def isIndependent (terms seen : List String) : Bool := terms.Nodup && terms.all (· ∉ seen)

/-- The walk over the pairs, with the terms seen so far and the answer up to here. -/
def walk (seen : List String) (answer : Feasibility) : List BoundedPair → Feasibility
  | [] => answer
  | ((index, length), ways) :: rest =>
    if ways.inside && ways.outside then .unsat
    else
      let terms := index.terms ++ length.terms
      match pairFeasibility index length ways.inside with
      | .unsat => .unsat
      | .sat => walk (terms ++ seen) (if isIndependent terms seen then answer else .unknown) rest
      | .unknown => walk (terms ++ seen) .unknown rest

def boundsFeasibility (clauses : List Clause) : Feasibility :=
  walk [] .sat (polarities clauses).entries

def feasibility (clauses : List Clause) : Feasibility :=
  match referenceFeasibility clauses, boundsFeasibility clauses with
  | .unsat, _ => .unsat
  | _, .unsat => .unsat
  | .sat, .sat => .sat
  | _, _ => .unknown

def conflictJournal (clauses : List Clause) : Journal :=
  match firstConflict? {} clauses with
  | some (e, c) =>
    Journal.trace ((c.origin?.map Origin.text).getD "" ++ " is resolved as both `" ++ e.text ++
      "` and `" ++ c.text ++ "`")
  | none => []

end Clause

def DecisionProcedure.clausal : DecisionProcedure where
  check path guard := Clause.feasibility (path.clauses ++ guard.clauses)
  journal path guard := Clause.conflictJournal (path.clauses ++ guard.clauses)

end DecisionPoints
