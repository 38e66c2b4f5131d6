import DecisionPoints.Value.Reference

/-!
Clauses: the assumptions out of which guards and path conditions are made. A clause either resolves
one reference or bounds one index.
-/
namespace DecisionPoints

/-- What a reference is resolved to: an object already discovered, with the origin through which it
was first reached; an object not seen before, of exactly the class; or null. -/
inductive Referent where
  | alias (position : Nat) (origin : Origin)
  | fresh (className : ClassName)
  | null
deriving DecidableEq, Repr, Inhabited

namespace Referent

def text : Referent → String
  | .alias position origin =>
    "Aliases(pos=" ++ toString position ++ ",origin=" ++ origin.text ++ ")"
  | .fresh className => "Fresh(class=" ++ className.text ++ ")"
  | .null => "Null"

def kindName : Referent → String
  | .alias .. => "Aliases"
  | .fresh _ => "Fresh"
  | .null => "Null"

end Referent

inductive Clause where
  | resolves (reference : Origin) (referent : Referent)
  /-- The index is at least zero and below the length. -/
  | inBounds (index length : Expression)
  /-- The index is negative or not below the length. -/
  | outOfBounds (index length : Expression)
deriving DecidableEq, Repr, Inhabited

namespace Clause

def text : Clause → String
  | .resolves reference (.alias position origin) =>
    reference.text ++ " == Object[" ++ toString position ++ "] (" ++ origin.text ++ ")"
  | .resolves reference (.fresh className) => reference.text ++ " fresh " ++ className.text
  | .resolves reference .null => reference.text ++ " == null"
  | .inBounds index length => "0 <= " ++ index.text ++ " < " ++ length.text
  | .outOfBounds index length => "!(0 <= " ++ index.text ++ " < " ++ length.text ++ ")"

instance : ToString Clause := ⟨text⟩

def origin? : Clause → Option Origin
  | .resolves reference _ => some reference
  | _ => none

def bounded? : Clause → Option (Expression × Expression)
  | .inBounds index length | .outOfBounds index length => some (index, length)
  | .resolves .. => none

def isInBounds : Clause → Bool
  | .inBounds .. => true
  | _ => false

def opposite? : Clause → Option Clause
  | .inBounds index length => some (.outOfBounds index length)
  | .outOfBounds index length => some (.inBounds index length)
  | .resolves .. => none

/-- Resolutions come first, those to known objects before fresh ones and null, then clauses in
bounds and out of bounds. Known objects are ordered by origin before position. -/
def order : Clause → Clause → Ordering
  | .resolves r (.alias p o), .resolves s (.alias q u) =>
    (compare r s).then <| (compare o u).then <| compare p q
  | .resolves _ (.alias ..), _ => .lt
  | _, .resolves _ (.alias ..) => .gt
  | .resolves r (.fresh c), .resolves s (.fresh d) => (compare r s).then (compare c d)
  | .resolves _ (.fresh _), _ => .lt
  | _, .resolves _ (.fresh _) => .gt
  | .resolves r .null, .resolves s .null => compare r s
  | .resolves _ .null, _ => .lt
  | _, .resolves _ .null => .gt
  | .inBounds i l, .inBounds j m => (compare i j).then (compare l m)
  | .inBounds .., .outOfBounds .. => .lt
  | .outOfBounds .., .inBounds .. => .gt
  | .outOfBounds i l, .outOfBounds j m => (compare i j).then (compare l m)

instance : Ord Clause := ⟨order⟩

end Clause

end DecisionPoints
