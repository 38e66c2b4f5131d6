import DecisionPoints.Alternative.Basic
import DecisionPoints.Journal
import DecisionPoints.Keyed

/-!
A memo of results, such as those of exploring below an alternative, by identity. Alternatives with
one identity share one entry, wherever they were found.
-/
namespace DecisionPoints

structure Memo (α : Type) where
  results : Keyed Identity α := {}
  hits : Nat := 0

namespace Memo

variable {α : Type}

def get? (m : Memo α) (a : Alternative) : Option α := m.results.get? a.identity

def contains (m : Memo α) (a : Alternative) : Bool := m.results.contains a.identity

def size (m : Memo α) : Nat := m.results.size

def isEmpty (m : Memo α) : Bool := m.results.isEmpty

def insert (m : Memo α) (a : Alternative) (value : α) : Memo α :=
  { m with results := m.results.insert a.identity value }

def getOrCompute (m : Memo α) (a : Alternative) (compute : Unit → α) : α × Memo α :=
  match m.get? a with
  | some value => (value, { m with hits := m.hits + 1 })
  | none =>
    let value := compute ()
    (value, m.insert a value)

def journal (m : Memo α) (a : Alternative) : Journal :=
  if m.contains a then []
  else Journal.trace ("Caching the result for alternative " ++ a.identity.short)

end Memo

end DecisionPoints
