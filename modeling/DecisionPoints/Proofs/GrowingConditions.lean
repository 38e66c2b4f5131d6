import DecisionPoints.Proofs.Contradiction

/-!
Conditions that grow. Assuming more can only refute more and share more terms, so the answer of the
procedure never rises while a path grows. It looks at which clauses are assumed, and not at where
they stand or how often.
-/
namespace DecisionPoints
namespace Feasibility

def rank : Feasibility → Nat
  | .unsat => 0
  | .unknown => 1
  | .sat => 2

instance : LE Feasibility := ⟨fun a b => a.rank ≤ b.rank⟩

instance (a b : Feasibility) : Decidable (a ≤ b) := inferInstanceAs (Decidable (a.rank ≤ b.rank))

theorem le_refl (a : Feasibility) : a ≤ a := Nat.le_refl a.rank

theorem unsat_le (a : Feasibility) : .unsat ≤ a := Nat.zero_le a.rank

theorem unknown_le {a : Feasibility} (h : a ≠ .unsat) : .unknown ≤ a := by
  cases a with
  | unsat => exact absurd rfl h
  | sat => decide
  | unknown => decide

theorem eq_unsat_of_le {a : Feasibility} (h : a ≤ .unsat) : a = .unsat := by
  cases a with
  | unsat => rfl
  | sat => exact absurd h (by decide)
  | unknown => exact absurd h (by decide)

theorem eq_sat_of_le {a : Feasibility} (h : .sat ≤ a) : a = .sat := by
  cases a with
  | sat => rfl
  | unsat => exact absurd h (by decide)
  | unknown => exact absurd h (by decide)

end Feasibility

namespace Clause

theorem feasibility_le_of_subset {as bs : List Clause} (included : as ⊆ bs) :
    feasibility bs ≤ feasibility as := by
  by_cases refuted : contradictory bs = true
  · rw [feasibility_eq_unsat_iff.mpr refuted]
    exact Feasibility.unsat_le _
  · have consistent : ¬ contradictory as = true :=
      fun h => refuted (contradictory_of_subset included h)
    by_cases distinct : (boundedTerms bs).Nodup
    · have fewer := nodup_boundedTerms_of_subset included distinct
      simp only [feasibility_eq, refuted, consistent, distinct, fewer]
      exact Feasibility.le_refl _
    · have undecided : feasibility bs = .unknown := by simp [feasibility_eq, refuted, distinct]
      have unrefuted : feasibility as ≠ .unsat :=
        fun h => consistent (feasibility_eq_unsat_iff.mp h)
      rw [undecided]
      exact Feasibility.unknown_le unrefuted

end Clause

namespace DecisionProcedure

/-- The answer falls as clauses are assumed. So it depends only on which clauses path and guard
have together, a refuted branch stays refuted on every longer path, and what is satisfiable with a
path is so with each of its initial parts. -/
theorem answer_falls_as_clauses_grow :
    (∀ (path path' : PathCondition) (guard guard' : Guard),
      path.clauses ++ guard.clauses ⊆ path'.clauses ++ guard'.clauses →
        clausal.check path' guard' ≤ clausal.check path guard) ∧
    (∀ (path path' : PathCondition) (guard guard' : Guard),
      (∀ c, c ∈ path.clauses ++ guard.clauses ↔ c ∈ path'.clauses ++ guard'.clauses) →
        clausal.check path' guard' = clausal.check path guard) ∧
    (∀ (path path' : PathCondition) (guard : Guard), path.clauses ⊆ path'.clauses →
      clausal.check path guard = .unsat → clausal.check path' guard = .unsat) ∧
    ∀ (path prior : PathCondition) (guard : Guard), prior.clauses <+: path.clauses →
      clausal.check path guard = .sat → clausal.check prior guard = .sat := by
  have falls (path path' : PathCondition) (guard guard' : Guard)
      (included : path.clauses ++ guard.clauses ⊆ path'.clauses ++ guard'.clauses) :
      clausal.check path' guard' ≤ clausal.check path guard :=
    Clause.feasibility_le_of_subset included
  have longer {path path' : PathCondition} (guard : Guard)
      (included : path.clauses ⊆ path'.clauses) :
      clausal.check path' guard ≤ clausal.check path guard := by
    apply falls path path' guard guard
    intro c member
    exact List.mem_append.mpr ((List.mem_append.mp member).imp_left (@included c))
  refine ⟨falls, ?_, ?_, ?_⟩
  · intro path path' guard guard' same
    exact Clause.feasibility_congr fun c => (same c).symm
  · intro path path' guard included refuted
    have below := longer guard included
    rw [refuted] at below
    exact Feasibility.eq_unsat_of_le below
  · intro path prior guard initial sat
    have above := longer guard initial.subset
    rw [sat] at above
    exact Feasibility.eq_sat_of_le above

theorem answer_falls_as_clauses_grow_second_length :
    let inside : Clause := .inBounds (.term "i") (.int 4)
    let outside : Clause := .outOfBounds (.term "i") (.int 4)
    let beyond : Clause := .outOfBounds (.term "i") (.int 8)
    clausal.check ⟨[inside]⟩ {} = .sat ∧ clausal.check ⟨[inside]⟩ ⟨[beyond]⟩ = .unknown ∧
      clausal.check ⟨[inside]⟩ ⟨[beyond]⟩ ≤ clausal.check ⟨[inside]⟩ {} ∧
      clausal.check ⟨[beyond]⟩ ⟨[inside, beyond, inside]⟩ = .unknown ∧
      clausal.check ⟨[beyond, inside]⟩ ⟨[outside]⟩ = .unsat ∧
      clausal.check {} {} = .sat := by
  intro inside outside beyond
  obtain ⟨falls, same, refuted, initial⟩ := answer_falls_as_clauses_grow
  have sat : clausal.check ⟨[inside]⟩ {} = .sat := by decide
  have undecided : clausal.check ⟨[inside]⟩ ⟨[beyond]⟩ = .unknown := by decide
  have unsat : clausal.check ⟨[inside]⟩ ⟨[outside]⟩ = .unsat := by decide
  refine ⟨sat, undecided, falls _ _ _ _ (by simp), ?_, ?_, ?_⟩
  · rw [← undecided]
    refine same _ _ _ _ fun c => ?_
    simp only [List.mem_append, List.mem_cons, List.not_mem_nil, or_false]
    tauto
  · exact refuted ⟨[inside]⟩ _ _ (by simp) unsat
  · exact initial ⟨[inside]⟩ _ _ List.nil_prefix sat

end DecisionProcedure
end DecisionPoints
