import DecisionPoints.Enumeration.Context

/-!
The ways in which a symbolic reference can be resolved, in a fixed order: the objects it may alias
as the heap lists them, fresh objects by ascending class name, and null. A path that has resolved
the reference leaves one way, under the clause of the path.
-/
namespace DecisionPoints

/-- A way of resolving a reference. The referent is what the clause says, except that an expansion
which the heap has materialized since is an alias of that object. -/
structure Resolution where
  referent : Referent
  clause : Clause
deriving DecidableEq, Repr

namespace Resolution

def plain (origin : Origin) (referent : Referent) : Resolution :=
  ⟨referent, .resolves origin referent⟩

end Resolution

namespace Context

def current (c : Context) (origin : Origin) : Referent → Referent
  | .fresh className =>
    match c.heap.materialized? origin with
    | some position => .alias position origin
    | none => .fresh className
  | referent => referent

def freshClasses (c : Context) (required : ClassName) : List ClassName :=
  if c.heap.admitsFresh required then
    ((c.heap.expansions required).mergeSort fun a b => !(b < a : Bool)).eraseDups
  else []

/-- What a reference that the path has not resolved may be. -/
def openReferents (c : Context) (r : SymbolicReference) (allowNull : Bool) : List Referent :=
  (c.heap.aliasCandidates r.staticType r.origin).map (fun a => .alias a.position a.origin) ++
    (c.freshClasses r.staticType).map .fresh ++
    if allowNull && c.heap.admitsNull r.staticType r.origin then [.null] else []

def resolutions (c : Context) (r : SymbolicReference) (allowNull : Bool) : List Resolution :=
  match c.path.referentOf? r.origin with
  | some referent => [⟨c.current r.origin referent, .resolves r.origin referent⟩]
  | none => (c.openReferents r allowNull).map (.plain r.origin)

end Context
end DecisionPoints
