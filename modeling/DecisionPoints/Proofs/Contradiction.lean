import DecisionPoints.Condition.World
import DecisionPoints.Proofs.ClauseScan
import Mathlib.Data.List.Perm.Subperm

/-!
Contradictions between clauses. Two clauses that exclude each other hold in no world together, and a
refuted clause holds in none, so a refuted alternative is a behaviour that the program does not have.
-/
namespace DecisionPoints

namespace World

def Satisfies (w : World) (clauses : List Clause) : Prop := ∀ c ∈ clauses, c.Holds w

theorem satisfies_append {w : World} {as bs : List Clause} :
    w.Satisfies (as ++ bs) ↔ w.Satisfies as ∧ w.Satisfies bs := List.forall_mem_append

end World

namespace Clause

instance (w : World) : (c : Clause) → Decidable (c.Holds w)
  | .resolves .. => inferInstanceAs (Decidable (_ = _))
  | .inBounds .. => inferInstanceAs (Decidable (_ ∧ _))
  | .outOfBounds .. => inferInstanceAs (Decidable (¬ _))

theorem opposite?_symm {a b : Clause} (h : a.opposite? = some b) : b.opposite? = some a := by
  cases a <;> simp only [opposite?, Option.some.injEq, reduceCtorEq] at h <;> subst h <;> rfl

theorem Excludes.symm {a b : Clause} (h : a.Excludes b) : b.Excludes a :=
  h.imp Conflicts.symm opposite?_symm

theorem conflicts_resolves {origin : Origin} {r s : Referent} (differ : r ≠ s) :
    (resolves origin r).Conflicts (resolves origin s) :=
  ⟨fun same => differ (Clause.resolves.inj same).2, rfl, rfl⟩

theorem Conflicts.not_both {a b : Clause} (h : a.Conflicts b) {w : World} (ha : a.Holds w) :
    ¬ b.Holds w := by
  obtain ⟨differ, about, same⟩ := h
  intro hb
  cases a with
  | resolves o r =>
    cases b with
    | resolves p s =>
      obtain rfl : o = p := Option.some.inj same
      have equal : r = s := ha.symm.trans hb
      exact differ (by rw [equal])
    | inBounds i l => cases same
    | outOfBounds i l => cases same
  | inBounds i l => cases about
  | outOfBounds i l => cases about

theorem holds_opposite_iff {a b : Clause} (h : a.opposite? = some b) (w : World) :
    b.Holds w ↔ ¬ a.Holds w := by
  cases a with
  | resolves o r => cases h
  | inBounds i l => cases h; rfl
  | outOfBounds i l => cases h; exact Decidable.not_not.symm

theorem Excludes.not_both {a b : Clause} (h : a.Excludes b) {w : World} (ha : a.Holds w) :
    ¬ b.Holds w := by
  rcases h with conflict | opposite
  · exact conflict.not_both ha
  · exact fun hb => (holds_opposite_iff opposite w).mp hb ha

theorem not_holds_of_isRefuted {c : Clause} (refuted : c.isRefuted = true) (w : World) :
    ¬ c.Holds w := by
  cases c with
  | resolves o r => cases refuted
  | inBounds index length =>
    intro ⟨low, high⟩
    cases hi : index.concrete? with
    | none =>
      cases hl : length.concrete? with
      | none => simp [isRefuted, hi, hl] at refuted
      | some l =>
        rw [Expression.eval_eq_of_concrete? hl] at high
        simp only [isRefuted, hi, hl, decide_eq_true_eq] at refuted
        omega
    | some i =>
      rw [Expression.eval_eq_of_concrete? hi] at low high
      cases hl : length.concrete? with
      | none =>
        simp only [isRefuted, hi, hl, decide_eq_true_eq] at refuted
        omega
      | some l =>
        rw [Expression.eval_eq_of_concrete? hl] at high
        simp [isRefuted, hi, hl, low] at refuted
        omega
  | outOfBounds index length =>
    cases hi : index.concrete? with
    | none => simp [isRefuted, hi] at refuted
    | some i =>
      cases hl : length.concrete? with
      | none => simp [isRefuted, hi, hl] at refuted
      | some l =>
        simp only [isRefuted, hi, hl, Bool.and_eq_true, decide_eq_true_eq] at refuted
        simp only [Holds, Expression.eval_eq_of_concrete? hi, Expression.eval_eq_of_concrete? hl]
        exact fun outside => outside refuted

theorem contradictory_of_excludes {clauses : List Clause} {a b : Clause} (ha : a ∈ clauses)
    (hb : b ∈ clauses) (h : a.Excludes b) : contradictory clauses = true :=
  contradictory_iff.mpr (.inl ⟨a, ha, b, hb, h⟩)

theorem not_satisfies_of_contradictory {clauses : List Clause}
    (h : contradictory clauses = true) (w : World) : ¬ w.Satisfies clauses := by
  intro holds
  rcases contradictory_iff.mp h with ⟨a, ha, b, hb, excludes⟩ | ⟨c, hc, refuted⟩
  · exact excludes.not_both (holds a ha) (holds b hb)
  · exact not_holds_of_isRefuted refuted w (holds c hc)

theorem feasibility_eq_unsat_iff {clauses : List Clause} :
    feasibility clauses = .unsat ↔ contradictory clauses = true := by
  rw [feasibility_eq]
  split
  · next h => simp [h]
  · next h =>
    simp only [h]
    split <;> simp

section
variable {as bs : List Clause}

theorem contradictory_of_subset (included : as ⊆ bs) (h : contradictory as = true) :
    contradictory bs = true := by
  rcases contradictory_iff.mp h with ⟨a, ha, b, hb, excludes⟩ | ⟨c, hc, refuted⟩
  · exact contradictory_of_excludes (included ha) (included hb) excludes
  · exact contradictory_iff.mpr (.inr ⟨c, included hc, refuted⟩)

theorem nodup_boundedTerms_of_subset (included : as ⊆ bs) (distinct : (boundedTerms bs).Nodup) :
    (boundedTerms as).Nodup := by
  have pairs : boundedPairs as ⊆ boundedPairs bs := by
    intro pair member
    obtain ⟨c, hc, bounded⟩ := mem_boundedPairs.mp member
    exact mem_boundedPairs.mpr ⟨c, included hc, bounded⟩
  have once : (boundedPairs as).Nodup := nodup_eraseDups _
  obtain ⟨selected, same, sublist⟩ := List.Nodup.subperm once pairs
  have terms := distinct.sublist (sublist.flatMap _)
  exact (same.flatMap_right _).nodup_iff.mp terms

theorem feasibility_congr (same : ∀ c, c ∈ as ↔ c ∈ bs) : feasibility as = feasibility bs := by
  have there : as ⊆ bs := fun c => (same c).mp
  have back : bs ⊆ as := fun c => (same c).mpr
  have refuted : contradictory as = contradictory bs :=
    Bool.eq_iff_iff.mpr ⟨contradictory_of_subset there, contradictory_of_subset back⟩
  have distinct : (boundedTerms as).Nodup ↔ (boundedTerms bs).Nodup :=
    ⟨nodup_boundedTerms_of_subset back, nodup_boundedTerms_of_subset there⟩
  simp only [feasibility_eq, refuted, distinct]

end

end Clause

namespace DecisionProcedure
open Clause

/-- Whether the procedure refutes a guard only where no world satisfies it with the path. -/
def Sound (p : DecisionProcedure) : Prop :=
  ∀ (path : PathCondition) (guard : Guard), p.check path guard = .unsat →
    ¬ Satisfiable (path.clauses ++ guard.clauses)

theorem clausal_sound : clausal.Sound := by
  intro path guard refuted ⟨w, holds⟩
  exact not_satisfies_of_contradictory (feasibility_eq_unsat_iff.mp refuted) w holds

/-- Whatever the clausal procedure refutes is no behaviour of the program: no integers for the terms
and no referents for the origins make the path and the guard true. -/
theorem refuted_guard_holds_nowhere {path : PathCondition} {guard : Guard}
    (refuted : clausal.check path guard = .unsat) :
    ¬ ∃ w : World, w.Satisfies path.clauses ∧ w.Satisfies guard.clauses := by
  rintro ⟨w, onPath, onGuard⟩
  have contradiction := feasibility_eq_unsat_iff.mp refuted
  exact not_satisfies_of_contradictory contradiction w
    (World.satisfies_append.mpr ⟨onPath, onGuard⟩)

theorem refuted_guard_holds_nowhere_overflow :
    let sum : Expression := .add (.int Int64.maxValue) (.int 1)
    let path : PathCondition := ⟨[.resolves (.root "a") .null, .inBounds sum (.term "n")]⟩
    let guard : Guard := ⟨[.outOfBounds sum (.term "n")]⟩
    sum.concrete? = none ∧ clausal.check path guard = .unsat ∧
      ¬ ∃ w : World, w.Satisfies path.clauses ∧ w.Satisfies guard.clauses :=
  ⟨by decide, by decide, refuted_guard_holds_nowhere (by decide)⟩

end DecisionProcedure
end DecisionPoints
