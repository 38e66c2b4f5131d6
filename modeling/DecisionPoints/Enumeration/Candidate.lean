import DecisionPoints.Enumeration.Resolution

/-!
The candidates of an access: its possible outcomes before any is checked for feasibility. `subject?`
makes the checks that come before resolution and gives the reference to resolve, if there is one.
An access that can fail asks the policy, at each of its faults, whether they are to be listed.
-/
namespace DecisionPoints
namespace Context

/-- The symbolic reference on which the access depends. A store, and a load of an element that is
not symbolic, depend on none. -/
def subject? (c : Context) : Access → Except AccessError (Option SymbolicReference)
  | .arrayLoad array _ _ element _ => do
    let component ← c.componentAt array
    match element with
    | .symbolic r =>
      if c.hierarchy.isSubtype component r.staticType then do
        c.ensureResolvable r
        return some r
      else .error (.requiredTypeMismatch component r.staticType)
    | _ => return none
  | .arrayStore array _ _ _ => do
    let _ ← c.componentAt array
    return none
  | .fieldLoad field loaded => do
    let r ← loaded.expectSymbolic
    match field.referenceType? with
    | none => .error (.notAReference ⟨field.descriptor⟩)
    | some declared =>
      if declared = r.staticType then do
        c.ensureResolvable r
        return some r
      else .error (.requiredTypeMismatch declared r.staticType)
  | .checkCast target reference | .instanceOf target reference => do
    let r ← reference.expectSymbolic
    c.ensureKnown target
    c.ensureResolvable r
    return some r
  | .receiver reference => do
    let r ← reference.expectSymbolic
    c.ensureResolvable r
    return some r

def subjectResolutions (c : Context) (a : Access) : Except AccessError (List Resolution) := do
  match ← c.subject? a with
  | none => return []
  | some r =>
    match a with
    | .receiver _ => return c.resolutions r c.policy.nullReceivers
    | _ => return c.resolutions r true

def isStorable (c : Context) (array : Nat) (value : Reference) : Except AccessError Bool := do
  let component ← c.componentAt array
  match value with
  | .null => return true
  | .object position => return c.hierarchy.isSubtype (← c.classAt position) component
  | .symbolic r => .error (.unresolvedReference (.symbolic r))

def faults (c : Context) (failing : List Outcome) : List Outcome :=
  if c.policy.faultAlternatives then failing else []

def candidates (c : Context) (a : Access) : Except AccessError (List Outcome) := do
  let resolutions ← c.subjectResolutions a
  match a with
  | .arrayLoad array length index element isFresh =>
    let inside := Clause.inBounds index length
    let loaded : List Outcome := match element with
      | .symbolic r =>
        let writeBack := if isFresh then some ⟨array, .element index, r⟩ else none
        resolutions.map fun s =>
          ⟨a.family, .resolved s.referent, ⟨[inside, s.clause]⟩, writeBack⟩
      | _ => [⟨a.family, .inBounds, ⟨[inside]⟩, none⟩]
    return loaded ++ c.faults [⟨a.family, .outOfBounds, ⟨[.outOfBounds index length]⟩, none⟩]
  | .arrayStore array length index value =>
    let inside : Guard := ⟨[.inBounds index length]⟩
    let stored : List Outcome :=
      if ← c.isStorable array value then [⟨a.family, .inBounds, inside, none⟩]
      else c.faults [⟨a.family, .typeMismatch none, inside, none⟩]
    return stored ++ c.faults [⟨a.family, .outOfBounds, ⟨[.outOfBounds index length]⟩, none⟩]
  | .fieldLoad .. | .receiver _ =>
    return resolutions.map fun s => ⟨a.family, .resolved s.referent, ⟨[s.clause]⟩, none⟩
  | .checkCast target _ =>
    let cast ← resolutions.mapM fun s =>
      return (s, (← c.isInstance target s.referent) || s.referent = .null)
    let (passing, failing) := cast.partition (·.2)
    return passing.map (fun (s, _) => ⟨a.family, .resolved s.referent, ⟨[s.clause]⟩, none⟩) ++
      c.faults (failing.map fun (s, _) =>
        ⟨a.family, .typeMismatch (some s.referent), ⟨[s.clause]⟩, none⟩)
  | .instanceOf target _ =>
    resolutions.mapM fun s =>
      return ⟨a.family, .typeTest s.referent (← c.isInstance target s.referent), ⟨[s.clause]⟩, none⟩

end Context
end DecisionPoints
