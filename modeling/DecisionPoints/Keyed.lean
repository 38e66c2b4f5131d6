/-!
Collections of values by key. Every key has at most one value, and storing a value replaces the one
that was stored under the key. The order of the entries carries no meaning.
-/
namespace DecisionPoints

structure Keyed (κ α : Type) where
  entries : List (κ × α) := []
  distinct : (entries.map (·.1)).Nodup := by simp

namespace Keyed

variable {κ α : Type}

def keys (m : Keyed κ α) : List κ := m.entries.map (·.1)

def size (m : Keyed κ α) : Nat := m.entries.length

def isEmpty (m : Keyed κ α) : Bool := m.entries.isEmpty

variable [DecidableEq κ]

def get? (m : Keyed κ α) (key : κ) : Option α := (m.entries.find? (·.1 = key)).map (·.2)

def contains (m : Keyed κ α) (key : κ) : Bool := (m.get? key).isSome

def insert (m : Keyed κ α) (key : κ) (value : α) : Keyed κ α where
  entries := (key, value) :: m.entries.filter (·.1 ≠ key)
  distinct := by
    refine List.nodup_cons.mpr ⟨?_, m.distinct.sublist (List.filter_sublist.map _)⟩
    simp

theorem find?_filter_ne {key other : κ} (differ : other ≠ key) (entries : List (κ × α)) :
    (entries.filter (·.1 ≠ key)).find? (·.1 = other) = entries.find? (·.1 = other) := by
  rw [List.find?_filter]
  congr 1
  funext e
  by_cases found : e.1 = other <;> simp [found, differ]

theorem get?_insert (m : Keyed κ α) (key other : κ) (value : α) :
    (m.insert key value).get? other = if other = key then some value else m.get? other := by
  by_cases same : other = key
  · simp [insert, get?, same]
  · simp only [insert, get?, same, if_false]
    rw [List.find?_cons_of_neg (by simpa using Ne.symm same), find?_filter_ne same]

theorem contains_insert (m : Keyed κ α) (key other : κ) (value : α) :
    (m.insert key value).contains other = (decide (other = key) || m.contains other) := by
  by_cases same : other = key <;> simp [contains, get?_insert, same]

end Keyed

end DecisionPoints
