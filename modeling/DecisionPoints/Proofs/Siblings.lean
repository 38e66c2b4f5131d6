import DecisionPoints.Proofs.Alternatives
import DecisionPoints.Proofs.Contradiction
import DecisionPoints.Proofs.Resolutions

/-!
Siblings. The alternatives of one access against a heap in memory exclude each other: their guards
resolve one reference in two ways or bound one index both ways. This can be seen of the clauses and
needs no decision procedure, so it also holds of alternatives that an unsound one has pruned.
-/
namespace DecisionPoints
namespace Guard

def Excludes (g h : Guard) : Prop := ∃ a ∈ g.clauses, ∃ b ∈ h.clauses, a.Excludes b

theorem Excludes.symm {g h : Guard} (excludes : g.Excludes h) : h.Excludes g := by
  obtain ⟨a, ha, b, hb, excluded⟩ := excludes
  exact ⟨b, hb, a, ha, excluded.symm⟩

theorem Excludes.not_both {g h : Guard} (excludes : g.Excludes h) {w : World}
    (hg : w.Satisfies g.clauses) : ¬ w.Satisfies h.clauses := by
  obtain ⟨a, ha, b, hb, excluded⟩ := excludes
  exact fun hh => excluded.not_both (hg a ha) (hh b hb)

theorem enumerated_excludes (bounds : Option (Expression × Expression))
    (ways : Option (List Clause)) (differ : ∀ cs ∈ ways, cs.Pairwise Clause.Conflicts) :
    (enumerated bounds ways).Pairwise Excludes := by
  cases ways with
  | none =>
    match bounds with
    | none => exact List.pairwise_singleton ..
    | some (index, length) =>
      have opposite : (Clause.inBounds index length).Excludes (.outOfBounds index length) := .inr rfl
      simp [enumerated, Excludes, opposite]
  | some cs =>
    have conflicts : cs.Pairwise Clause.Conflicts := differ cs rfl
    match bounds with
    | none => exact conflicts.map _ fun a b h => ⟨a, by simp, b, by simp, .inl h⟩
    | some (index, length) =>
      refine List.pairwise_append.mpr ⟨?_, List.pairwise_singleton .., ?_⟩
      · exact conflicts.map _ fun a b h => ⟨a, by simp, b, by simp, .inl h⟩
      · simp only [List.mem_map, List.mem_singleton]
        rintro _ ⟨way, _, rfl⟩ _ rfl
        exact ⟨.inBounds index length, by simp, .outOfBounds index length, by simp, .inr rfl⟩

end Guard

namespace Context

variable {t : ClassTable} {s : HeapSnapshot} {c : Context} (snapshot : c.heap = s.view t)
include snapshot

theorem resolutions_conflict (r : SymbolicReference) (allowNull : Bool) :
    ((c.resolutions r allowNull).map (·.clause)).Pairwise Clause.Conflicts := by
  unfold resolutions
  split
  · exact List.pairwise_singleton ..
  · have distinct := openReferents_nodup snapshot r allowNull
    rw [List.map_map]
    exact List.Pairwise.map _ (fun _ _ => Clause.conflicts_resolves) distinct

theorem outcomes_exclude {a : Access} {outcomes : List Outcome} (h : c.outcomes a = .ok outcomes) :
    (outcomes.map (·.guard)).Pairwise Guard.Excludes := by
  refine ((guards_perm_enumerated h).pairwise_iff Guard.Excludes.symm).mpr ?_
  refine Guard.enumerated_excludes _ _ fun cs found => ?_
  obtain ⟨r, _, rfl⟩ := Option.map_eq_some_iff.mp found
  exact resolutions_conflict snapshot r _

theorem alternatives_exclude {a : Access} {alternatives : List Alternative}
    (h : c.alternatives a = .ok alternatives) :
    alternatives.Pairwise fun a b => a.guard.Excludes b.guard := by
  obtain ⟨outcomes, all, kept⟩ := exists_outcomes_sublist h
  have exclude : outcomes.Pairwise fun o p => o.guard.Excludes p.guard :=
    List.pairwise_map.mp (outcomes_exclude snapshot all)
  have pairwise := exclude.sublist kept
  rwa [List.pairwise_map] at pairwise

theorem siblings_exclude {a : Access} {alternatives : List Alternative}
    (h : c.alternatives a = .ok alternatives) {i j : Nat} (differ : i ≠ j) {x y : Alternative}
    (hx : alternatives[i]? = some x) (hy : alternatives[j]? = some y) :
    x.guard.Excludes y.guard := by
  obtain ⟨hi, rfl⟩ := List.getElem?_eq_some_iff.mp hx
  obtain ⟨hj, rfl⟩ := List.getElem?_eq_some_iff.mp hy
  have exclude := List.pairwise_iff_getElem.mp (alternatives_exclude snapshot h)
  rcases Nat.lt_or_gt_of_ne differ with before | after
  · exact exclude i j hi hj before
  · exact (exclude j i hj hi after).symm

end Context
end DecisionPoints
