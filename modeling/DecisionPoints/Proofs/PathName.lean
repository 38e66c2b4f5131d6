import DecisionPoints.Path
import DecisionPoints.Text.Pieces
import Mathlib.Data.List.Basic

/-!
Names of paths. Decimal numbers hold no dot, so splitting the name of a path at its dots gives back
the branch numbers: no two records of decisions have one name.
-/
namespace DecisionPoints
namespace Pieces

theorem split_append {separator : Char} {piece cs first : List Char} {later : List (List Char)}
    (absent : separator ∉ piece) (h : split separator cs = first :: later) :
    split separator (piece ++ cs) = (piece ++ first) :: later := by
  induction piece with
  | nil => exact h
  | cons c rest ih =>
    rw [List.mem_cons, not_or] at absent
    obtain ⟨differs, absent⟩ := absent
    rw [List.cons_append, split, if_neg (Ne.symm differs), ih absent]
    rfl

theorem split_flatMap_cons {separator : Char} {pieces : List (List Char)}
    (absent : ∀ piece ∈ pieces, separator ∉ piece) :
    split separator (pieces.flatMap fun piece => separator :: piece) = [] :: pieces := by
  induction pieces with
  | nil => rfl
  | cons piece rest ih =>
    have later := ih fun p member => absent p (List.mem_cons_of_mem _ member)
    have here := split_append (absent piece List.mem_cons_self) later
    rw [List.flatMap_cons, List.cons_append, split, if_pos rfl, here, List.append_nil]

end Pieces

namespace Path

theorem isDigit_of_mem_digits {n : Nat} {c : Char} (member : c ∈ Nat.toDigits 10 n) :
    c.isDigit = true :=
  Nat.isDigit_of_mem_toDigits (by decide) (by decide) member

theorem dot_not_mem_digits (n : Nat) : '.' ∉ Nat.toDigits 10 n := by
  intro member
  exact absurd (isDigit_of_mem_digits member) (by decide)

theorem digits_injective : Function.Injective (Nat.toDigits 10) := by
  intro m n same
  rw [← Nat.ofDigitChars_ten_toDigits (n := m), same, Nat.ofDigitChars_ten_toDigits]

theorem toList_name (p : Path) :
    p.name.toList = (p.branchNumbers.map (Nat.toDigits 10)).flatMap fun digits => '.' :: digits := by
  rw [name, String.toList_join, List.flatMap_map, List.flatMap_map]
  congr 1
  funext n
  simp [Nat.toString_eq_repr, Nat.toList_repr]

theorem branchNumbers_eq_of_name_eq {p q : Path} (same : p.name = q.name) :
    p.branchNumbers = q.branchNumbers := by
  have cut (p : Path) :
      Pieces.split '.' p.name.toList = [] :: p.branchNumbers.map (Nat.toDigits 10) := by
    rw [toList_name]
    refine Pieces.split_flatMap_cons fun piece member => ?_
    obtain ⟨n, _, rfl⟩ := List.mem_map.mp member
    exact dot_not_mem_digits n
  have pieces : p.branchNumbers.map (Nat.toDigits 10) = q.branchNumbers.map (Nat.toDigits 10) := by
    have both := cut p
    rw [same, cut q] at both
    exact (List.cons.inj both).2.symm
  exact List.map_injective_iff.mpr digits_injective pieces

end Path
end DecisionPoints
