import DecisionPoints.Proofs.Siblings

/-!
Coverage. In every world that the path and the heap leave open, exactly one alternative of an access
holds. That there is one rests on the soundness of the decision procedure, since a candidate that
holds must not be pruned; that there is only one does not.
-/
namespace DecisionPoints

theorem Guard.exists_enumerated_satisfied {w : World} (bounds : Option (Expression × Expression))
    {ways : Option (List Clause)} (covered : ∀ cs ∈ ways, ∃ way ∈ cs, way.Holds w) :
    ∃ g ∈ enumerated bounds ways, w.Satisfies g.clauses := by
  cases ways with
  | none =>
    match bounds with
    | none => exact ⟨⟨[]⟩, by simp [enumerated], by simp [World.Satisfies]⟩
    | some (index, length) =>
      by_cases inside : (Clause.inBounds index length).Holds w
      · exact ⟨⟨[.inBounds index length]⟩, by simp [enumerated], by simpa [World.Satisfies]⟩
      · exact ⟨⟨[.outOfBounds index length]⟩, by simp [enumerated], by simpa [World.Satisfies]⟩
  | some cs =>
    obtain ⟨way, member, holds⟩ := covered cs rfl
    match bounds with
    | none => exact ⟨⟨[way]⟩, by simp [enumerated, member], by simpa [World.Satisfies]⟩
    | some (index, length) =>
      by_cases inside : (Clause.inBounds index length).Holds w
      · refine ⟨⟨[.inBounds index length, way]⟩, by simp [enumerated, member], ?_⟩
        simp [World.Satisfies, inside, holds]
      · exact ⟨⟨[.outOfBounds index length]⟩, by simp [enumerated], by simpa [World.Satisfies]⟩

namespace Context

/-- The worlds of which the enumeration of an access speaks: the path is true in them, and they give
the reference to resolve a referent that the path already has for it or the heap admits. -/
structure Foresees (c : Context) (t : ClassTable) (s : HeapSnapshot) (a : Access) (w : World) :
    Prop where
  onPath : w.Satisfies c.path.clauses
  resolved : ∀ r, a.symbolic? = some r →
    .resolves r.origin (w.referent r.origin) ∈ c.path.clauses ∨
      s.Admits t r (w.referent r.origin) ∧
        (w.referent r.origin = .null → a.allowsNull c.policy = true)

variable {t : ClassTable} {s : HeapSnapshot} {c : Context} (snapshot : c.heap = s.view t)

theorem judge_ne_unsat (sound : c.procedure.Sound) {o : Outcome} {w : World}
    (onPath : w.Satisfies c.path.clauses) (holds : w.Satisfies o.guard.clauses) :
    c.judge o ≠ .unsat := by
  unfold judge
  split
  · exact fun refuted => sound _ _ refuted ⟨w, World.satisfies_append.mpr ⟨onPath, holds⟩⟩
  · exact nofun

include snapshot

theorem exists_way_holds {a : Access} {w : World} (foreseen : c.Foresees t s a w) :
    ∀ cs ∈ c.ways? a, ∃ way ∈ cs, way.Holds w := by
  intro cs found
  obtain ⟨r, subject, rfl⟩ := Option.map_eq_some_iff.mp found
  have possible := foreseen.resolved r subject
  unfold resolutions
  split
  · next referent settled =>
    have member := PathCondition.mem_of_referentOf?_eq_some settled
    exact ⟨_, List.mem_singleton_self _, foreseen.onPath _ member⟩
  · next unsettled =>
    rcases possible with settled | admitted
    · exact absurd settled (PathCondition.not_mem_of_referentOf?_eq_none unsettled _)
    · refine ⟨.resolves r.origin (w.referent r.origin), ?_, rfl⟩
      rw [List.map_map]
      exact List.mem_map.mpr ⟨_, (mem_openReferents snapshot).mpr admitted, rfl⟩

theorem exists_candidate_satisfied (faults : c.policy.faultAlternatives = true) {a : Access}
    {w : World} (foreseen : c.Foresees t s a w) {candidates : List Outcome}
    (h : c.candidates a = .ok candidates) : ∃ o ∈ candidates, w.Satisfies o.guard.clauses := by
  obtain ⟨outcomes, found, rfl⟩ := candidates_eq_ok_iff.mp h
  obtain ⟨g, enumerated, holds⟩ :=
    Guard.exists_enumerated_satisfied a.bounds? (exists_way_holds snapshot foreseen)
  obtain ⟨o, member, rfl⟩ :=
    List.mem_map.mp ((guards_perm_enumerated found).mem_iff.mpr enumerated)
  exact ⟨o, by simpa [faults, asksFor] using member, holds⟩

theorem exists_kept_satisfied (sound : c.procedure.Sound)
    (faults : c.policy.faultAlternatives = true) {a : Access} {w : World}
    (foreseen : c.Foresees t s a w) {candidates : List Outcome}
    (h : c.candidates a = .ok candidates) :
    ∃ o ∈ (c.kept candidates).map (·.toOutcome), w.Satisfies o.guard.clauses := by
  obtain ⟨o, member, holds⟩ := exists_candidate_satisfied snapshot faults foreseen h
  have survives := judge_ne_unsat sound foreseen.onPath holds
  refine ⟨o, ?_, holds⟩
  rw [map_toOutcome_kept]
  exact List.mem_filter.mpr ⟨member, by simpa using survives⟩

theorem exists_alternative_satisfied (sound : c.procedure.Sound)
    (faults : c.policy.faultAlternatives = true) {a : Access} {w : World}
    (foreseen : c.Foresees t s a w) {alternatives : List Alternative}
    (h : c.alternatives a = .ok alternatives) :
    ∃ b ∈ alternatives, w.Satisfies b.guard.clauses := by
  obtain ⟨candidates, found, rfl, _⟩ := alternatives_eq_ok_iff.mp h
  obtain ⟨o, kept, holds⟩ := exists_kept_satisfied snapshot sound faults foreseen found
  rw [← map_toOutcome_numbered] at kept
  obtain ⟨b, member, rfl⟩ := List.mem_map.mp kept
  exact ⟨b, member, holds⟩

theorem alternatives_ne_noAlternatives (sound : c.procedure.Sound)
    (faults : c.policy.faultAlternatives = true) {a : Access} {w : World}
    (foreseen : c.Foresees t s a w) : c.alternatives a ≠ .error .noAlternatives := by
  intro h
  obtain ⟨_, candidates, found, none⟩ := alternatives_eq_noAlternatives_iff.mp h
  obtain ⟨o, kept, _⟩ := exists_kept_satisfied snapshot sound faults foreseen found
  rw [none] at kept
  cases kept

omit snapshot

/-- In each world that an access is enumerated for, the guard of exactly one alternative is true,
whichever sound procedure has pruned them; in no world at all are two of them. -/
theorem exactly_one_alternative_holds : DecisionProcedure.clausal.Sound ∧
    ∀ (t : ClassTable) (s : HeapSnapshot) (c : Context), c.heap = s.view t → c.procedure.Sound →
      c.policy.faultAlternatives = true → ∀ a : Access,
        match c.alternatives a with
        | .ok alternatives =>
          (∀ w, c.Foresees t s a w →
            ∃! i : Fin alternatives.length, w.Satisfies alternatives[i].guard.clauses) ∧
          alternatives.Pairwise fun x y =>
            ∀ w : World, w.Satisfies x.guard.clauses → ¬ w.Satisfies y.guard.clauses
        | .error e => e = .noAlternatives → ∀ w, ¬ c.Foresees t s a w := by
  refine ⟨DecisionProcedure.clausal_sound, ?_⟩
  intro t s c snapshot sound faults a
  cases h : c.alternatives a with
  | error e =>
    rintro rfl w foreseen
    exact alternatives_ne_noAlternatives snapshot sound faults foreseen h
  | ok alternatives =>
    refine ⟨?_, (alternatives_exclude snapshot h).imp fun excludes _ => excludes.not_both⟩
    intro w foreseen
    obtain ⟨b, member, holds⟩ :=
      exists_alternative_satisfied snapshot sound faults foreseen h
    obtain ⟨i, bound, rfl⟩ := List.getElem_of_mem member
    refine ⟨⟨i, bound⟩, holds, ?_⟩
    intro j other
    refine Fin.ext (by_contra fun differ => ?_)
    have apart := siblings_exclude snapshot h differ (List.getElem?_eq_getElem j.isLt)
      (List.getElem?_eq_getElem bound)
    exact apart.not_both other holds

theorem exactly_one_alternative_holds_load :
    let t := ClassTable.base
    let s : HeapSnapshot :=
      { objects := [⟨⟨"[Ljava/lang/Object;"⟩, none⟩, ⟨.object, some (.root "o")⟩] }
    let c : Context :=
      { policy := {}, heap := s.view t, hierarchy := t.hierarchy, procedure := .clausal, path := {} }
    let a : Access := .arrayLoad 0 (.int 3) (.term "i") (.symbolic ⟨.root "e", .object⟩) true
    let w : World := { value := fun _ => 1, referent := fun _ => .alias 1 (.root "o") }
    c.heap = s.view t ∧ c.procedure.Sound ∧ c.policy.faultAlternatives = true ∧
      c.Foresees t s a w ∧ ∃ alternatives, c.alternatives a = .ok alternatives ∧
        alternatives.length = 4 ∧
        ∃! i : Fin alternatives.length, w.Satisfies alternatives[i].guard.clauses := by
  intro t s c a w
  have foreseen : c.Foresees t s a w := by
    refine ⟨nofun, fun r subject => .inr ?_⟩
    obtain rfl : ⟨.root "e", .object⟩ = r := Option.some.inj subject
    exact ⟨⟨by decide, .object, rfl, by decide +kernel⟩, nofun⟩
  have count : (c.alternatives a).toOption.map List.length = some 4 := by decide +kernel
  have law := exactly_one_alternative_holds.2 t s c rfl DecisionProcedure.clausal_sound rfl a
  cases h : c.alternatives a with
  | error e => rw [h] at count; cases count
  | ok alternatives =>
    rw [h] at count law
    exact ⟨rfl, DecisionProcedure.clausal_sound, rfl, foreseen, alternatives, rfl,
      Option.some.inj count, law.1 w foreseen⟩

end Context
end DecisionPoints
