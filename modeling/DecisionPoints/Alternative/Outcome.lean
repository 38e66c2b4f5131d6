import DecisionPoints.Class.Raised
import DecisionPoints.Condition.Guard

/-!
Outcomes of decision points: what happens, under which guard, and which store the branch that takes
the outcome must perform. The canonical form of an outcome is the text from which its identity is
computed.
-/
namespace DecisionPoints

inductive Family where
  | arrayLoad
  | fieldLoad
  | arrayStore
  | checkCast
  | instanceOf
  | invoke
deriving DecidableEq, Repr

namespace Family

def code : Family → String
  | .arrayLoad => "ARRAY_LOAD"
  | .fieldLoad => "FIELD_LOAD"
  | .arrayStore => "ARRAY_STORE"
  | .checkCast => "CHECK_CAST"
  | .instanceOf => "INSTANCE_OF"
  | .invoke => "INVOKE"

def all : List Family := [.arrayLoad, .fieldLoad, .arrayStore, .checkCast, .instanceOf, .invoke]

def ofCode? (code : String) : Option Family := all.find? (·.code = code)

instance : Ord Family := ⟨fun a b => compare (all.idxOf a) (all.idxOf b)⟩

end Family

inductive OutcomeKind where
  /-- The accessed reference is the referent, and execution proceeds normally. -/
  | resolved (referent : Referent)
  /-- The tested reference is the referent, for which the type test has this value. -/
  | typeTest (referent : Referent) (holds : Bool)
  /-- The array access is within bounds and its value needs no resolution. -/
  | inBounds
  | outOfBounds
  /-- The accessed value does not have the type that the instruction requires. -/
  | typeMismatch (referent : Option Referent)
deriving DecidableEq, Repr

namespace OutcomeKind

def name : OutcomeKind → String
  | .resolved referent => referent.kindName
  | .typeTest .. => "TypeTest"
  | .inBounds => "InBounds"
  | .outOfBounds => "OutOfBounds"
  | .typeMismatch _ => "TypeMismatch"

def text : OutcomeKind → String
  | .resolved referent => referent.text
  | .typeTest referent holds => referent.text ++ "/holds=" ++ (if holds then "true" else "false")
  | .inBounds => "InBounds"
  | .outOfBounds => "OutOfBounds"
  | .typeMismatch none => "TypeMismatch"
  | .typeMismatch (some referent) => "TypeMismatch(" ++ referent.text ++ ")"

def referent? : OutcomeKind → Option Referent
  | .resolved referent | .typeTest referent _ => some referent
  | .typeMismatch referent => referent
  | .inBounds | .outOfBounds => none

/-- Whether the instruction itself fails: its index is out of bounds or its value has another type.
A null receiver is not counted here. -/
def isViolation : OutcomeKind → Bool
  | .outOfBounds | .typeMismatch _ => true
  | .resolved _ | .typeTest .. | .inBounds => false

end OutcomeKind

inductive Slot where
  | field (name : String)
  | element (index : Expression)
deriving DecidableEq, Repr

namespace Slot

def text : Slot → String
  | .field name => "." ++ name
  | .element index => "[" ++ index.text ++ "]"

end Slot

structure WriteBack where
  container : Nat
  slot : Slot
  value : SymbolicReference
deriving DecidableEq, Repr

namespace WriteBack

def text (w : WriteBack) : String :=
  "Object[" ++ toString w.container ++ "]" ++ w.slot.text ++ " := " ++ w.value.origin.text

end WriteBack

structure Outcome where
  family : Family
  kind : OutcomeKind
  guard : Guard
  writeBack : Option WriteBack := none
deriving DecidableEq, Repr

namespace Outcome

def canonical (o : Outcome) : String :=
  o.family.code ++ "_" ++ o.kind.name ++ ":" ++ o.guard.text ++ ":" ++ o.kind.text ++ ":" ++
    match o.writeBack with
    | some w => w.text
    | none => "-"

def fault? (o : Outcome) : Option ClassName :=
  match o.kind, o.family with
  | .outOfBounds, _ => some ClassName.arrayIndexOutOfBounds
  | .typeMismatch _, .arrayStore => some ClassName.arrayStore
  | .typeMismatch _, _ => some ClassName.classCast
  | .resolved .null, .invoke => some ClassName.nullPointer
  | _, _ => none

end Outcome

end DecisionPoints
