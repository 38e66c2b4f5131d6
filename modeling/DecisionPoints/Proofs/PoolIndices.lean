import DecisionPoints.Operand.Pool
import Mathlib.Data.List.Induction

/-!
Indices of a constant pool. Entries are numbered from one in the order in which they are pushed, and
an index gives the same entry for as long as entries are added. The largest index is the last: what
is pushed after it is refused.
-/
namespace DecisionPoints
namespace ConstantPool

/-- The most entries that have an index: no entry has the index zero. -/
def capacity : Nat := 65535

section Push

variable (p : ConstantPool) (entry : PoolEntry)

theorem size_le_capacity : p.size ≤ capacity := Nat.le_of_lt_succ p.size_lt

theorem size_eq_length : p.size = p.entries.toList.length := rfl

theorem push_of_room (room : p.size < capacity) : ∃ index q, p.push entry = (some index, q) ∧
    index.toNat = p.size + 1 ∧ q.entries.toList = p.entries.toList ++ [entry] := by
  have fits : p.size + 1 < UInt16.size := Nat.succ_lt_succ room
  unfold push
  rw [dif_pos fits]
  exact ⟨_, _, rfl, Nat.mod_eq_of_lt fits, Array.toList_push⟩

theorem push_of_full (full : p.size = capacity) : p.push entry = (none, p) := by
  have crowded : ¬ p.size + 1 < UInt16.size := by
    rw [full]
    decide
  unfold push
  rw [dif_neg crowded]

theorem toList_push : (p.push entry).2.entries.toList =
    (p.entries.toList ++ [entry]).take capacity := by
  have bound := p.size_le_capacity
  by_cases room : p.size < capacity
  · obtain ⟨index, q, pushed, _, grown⟩ := p.push_of_room entry room
    rw [pushed, grown, List.take_of_length_le]
    rw [List.length_append, List.length_singleton, ← size_eq_length]
    exact room
  · have full : p.size = capacity := by omega
    rw [push_of_full p entry full, List.take_append_of_le_length (Nat.le_of_eq full.symm),
      List.take_of_length_le (Nat.le_of_eq full)]

end Push

section Filled

variable (pushed : List PoolEntry) (entry : PoolEntry)

end Filled

end ConstantPool
end DecisionPoints
