import DecisionPoints.Class.Name
import DecisionPoints.Value.Expression

/-!
Origins: the access paths by which references are first reached from the roots of an analysis. Two
symbolic references with one origin stand for one unknown value.
-/
namespace DecisionPoints

inductive Origin where
  | root (name : String)
  | staticField (owner : ClassName) (name : String)
  | field (container : Origin) (name : String)
  | element (array : Origin) (index : Expression)
deriving DecidableEq, Repr, Inhabited

namespace Origin

def text : Origin → String
  | .root name => "\x7bROOT\x7d:" ++ name
  | .staticField owner name => "[" ++ owner.text ++ "]." ++ name
  | .field container name => container.text ++ "." ++ name
  | .element array index => array.text ++ "[" ++ index.text ++ "]"

instance : ToString Origin := ⟨text⟩

def depth : Origin → Nat
  | .root _ | .staticField _ _ => 0
  | .field inner _ | .element inner _ => inner.depth + 1

/-- Whether `o` is `ancestor` or is reached by dereferencing through it. -/
def descendsFrom (o ancestor : Origin) : Bool :=
  o = ancestor ||
    match o with
    | .root _ | .staticField _ _ => false
    | .field inner _ | .element inner _ => inner.descendsFrom ancestor

def order : Origin → Origin → Ordering
  | .root a, .root b => compare a b
  | .root _, _ => .lt
  | _, .root _ => .gt
  | .staticField a f, .staticField b g => (compare a b).then (compare f g)
  | .staticField _ _, _ => .lt
  | _, .staticField _ _ => .gt
  | .field a f, .field b g => (a.order b).then (compare f g)
  | .field _ _, .element _ _ => .lt
  | .element _ _, .field _ _ => .gt
  | .element a i, .element b j => (a.order b).then (compare i j)

instance : Ord Origin := ⟨order⟩

end Origin

end DecisionPoints
