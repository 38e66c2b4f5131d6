import DecisionPoints.Alternative.Outcome
import DecisionPoints.Alternative.Identity

/-!
Alternatives: outcomes numbered among their siblings. `==` compares identities, so it looks at
neither the number nor the re-check flag.
-/
namespace DecisionPoints

def Outcome.identity (o : Outcome) : Identity := .ofCanonical o.canonical

structure Alternative extends Outcome where
  /-- The position among the siblings, from one. -/
  branch : Nat := 1
  /-- Whether nothing decided that the alternative is feasible. -/
  needsRecheck : Bool := false
deriving Repr

namespace Alternative

instance : BEq Alternative := ⟨fun a b => a.identity = b.identity⟩

def isFresh (a : Alternative) : Bool := a.writeBack.isSome

def text (a : Alternative) : String :=
  "#" ++ toString a.branch ++ " " ++ a.family.code ++ "_" ++ a.kind.name ++ " [" ++ a.guard.text ++
    "] <" ++ a.identity.short ++ ">"

instance : ToString Alternative := ⟨text⟩

end Alternative

end DecisionPoints
