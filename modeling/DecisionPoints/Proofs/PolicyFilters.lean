import DecisionPoints.Condition.Decider
import DecisionPoints.Heap.Snapshot
import DecisionPoints.Proofs.Alternatives

/-!
Policies only filter. The outcomes of an access do not depend on what is asked about them or on
whether failing ones are wanted, so either of these two flags only takes alternatives away and
numbers the rest again. This holds for every heap, hierarchy and procedure, sound or not.
-/
namespace DecisionPoints

def Alternative.unnumbered (a : Alternative) : Alternative := { a with branch := 1 }

namespace Context

def withFlags (c : Context) (checks faults : Bool) : Context :=
  { c with
    policy := { c.policy with feasibilityChecks := checks, faultAlternatives := faults } }

/-- What the procedure leaves of alternatives that were kept without asking it, marked for a
re-check where it could not decide. -/
def sifted (c : Context) (all : List Alternative) : List Alternative :=
  (all.filter fun x => c.procedure.check c.path x.guard ≠ .unsat).map fun x =>
    { x with needsRecheck := c.procedure.check c.path x.guard = .unknown }

def withoutViolations (all : List Alternative) : List Alternative :=
  all.filter fun x => !x.kind.isViolation

def wanted (faults : Bool) (outcomes : List Outcome) : List Outcome :=
  outcomes.filter fun o => faults || !o.kind.isViolation

theorem wanted_true (outcomes : List Outcome) : wanted true outcomes = outcomes :=
  List.filter_eq_self.mpr fun _ _ => rfl

section Numbering

theorem numbered_map_unnumbered (as : List Alternative) :
    numbered (as.map (·.unnumbered)) = numbered as := by
  rw [numbered, numbered, List.zipIdx_map, List.map_map]
  rfl

theorem map_unnumbered_numbered (as : List Alternative) :
    (numbered as).map (·.unnumbered) = as.map (·.unnumbered) := by
  calc (numbered as).map (·.unnumbered)
      = (as.zipIdx.map Prod.fst).map (·.unnumbered) := by
        rw [numbered, List.map_map, List.map_map]; rfl
    _ = as.map (·.unnumbered) := by rw [List.zipIdx_map_fst]

theorem map_unnumbered_kept (c : Context) (candidates : List Outcome) :
    (c.kept candidates).map (·.unnumbered) = c.kept candidates := by
  rw [kept_eq, List.map_map]
  rfl

theorem numbered_eq_nil_iff {as : List Alternative} : numbered as = [] ↔ as = [] := by
  rw [numbered, List.map_eq_nil_iff, List.zipIdx_eq_nil_iff]

end Numbering

variable {c : Context} {a : Access} {outcomes : List Outcome}

theorem outcomes_withFlags (c : Context) (checks faults : Bool) (a : Access) :
    (c.withFlags checks faults).outcomes a = c.outcomes a := by
  cases a <;> rfl

theorem error_withFlags_iff {e : AccessError} (other : e ≠ .noAlternatives)
    (checks faults checks' faults' : Bool) :
    (c.withFlags checks faults).alternatives a = .error e ↔
      (c.withFlags checks' faults').alternatives a = .error e := by
  rw [alternatives_eq_error_iff other, alternatives_eq_error_iff other, outcomes_withFlags,
    outcomes_withFlags]

theorem map_unnumbered_sifted (c : Context) (faults : Bool) (candidates : List Outcome) :
    (c.sifted (numbered ((c.withFlags false faults).kept candidates))).map (·.unnumbered) =
      (c.withFlags true faults).kept candidates := by
  have outcomes : (numbered ((c.withFlags false faults).kept candidates)).map (·.toOutcome) =
      candidates := by
    rw [map_toOutcome_numbered, map_toOutcome_kept]
    exact List.filter_eq_self.mpr fun o _ => rfl
  calc (c.sifted (numbered ((c.withFlags false faults).kept candidates))).map (·.unnumbered)
      = (((numbered ((c.withFlags false faults).kept candidates)).map (·.toOutcome)).filter
          fun o => (c.withFlags true faults).judge o ≠ .unsat).map
            (c.withFlags true faults).keep := by
        rw [List.filter_map, sifted, List.map_map, List.map_map]; rfl
    _ = (c.withFlags true faults).kept candidates := by rw [outcomes, kept_eq]

theorem numbered_sifted (c : Context) (faults : Bool) (candidates : List Outcome) :
    numbered (c.sifted (numbered ((c.withFlags false faults).kept candidates))) =
      numbered ((c.withFlags true faults).kept candidates) := by
  rw [← numbered_map_unnumbered, map_unnumbered_sifted]

theorem numbered_withoutViolations (c : Context) (checks : Bool) (outcomes : List Outcome) :
    numbered (withoutViolations (numbered ((c.withFlags checks true).kept outcomes))) =
      numbered ((c.withFlags checks false).kept (wanted false outcomes)) := by
  let on := c.withFlags checks true
  have violations : (withoutViolations (numbered (on.kept outcomes))).map (·.unnumbered) =
      on.kept (wanted false outcomes) := by
    calc (withoutViolations (numbered (on.kept outcomes))).map (·.unnumbered)
        = ((numbered (on.kept outcomes)).map (·.unnumbered)).filter (!·.kind.isViolation) := by
          rw [List.filter_map]; rfl
      _ = (on.kept outcomes).filter (!·.kind.isViolation) := by
          rw [map_unnumbered_numbered, map_unnumbered_kept]
      _ = on.kept (wanted false outcomes) := by
          rw [kept_eq, kept_eq, wanted, List.filter_map, List.filter_filter, List.filter_filter]
          simp only [Bool.and_comm]
          rfl
  rw [← numbered_map_unnumbered, violations]
  rfl

theorem alternatives_withFlags_eq_ok_iff {checks faults : Bool} {kept : List Alternative} :
    (c.withFlags checks faults).alternatives a = .ok kept ↔
      ∃ outcomes, c.outcomes a = .ok outcomes ∧
        kept = numbered ((c.withFlags checks faults).kept (wanted faults outcomes)) ∧
        (faults = true → kept ≠ []) := by
  constructor
  · intro run
    obtain ⟨candidates, found, rfl, nonempty⟩ := alternatives_eq_ok_iff.mp run
    obtain ⟨outcomes, all, rfl⟩ := candidates_eq_ok_iff.mp found
    rw [outcomes_withFlags] at all
    exact ⟨outcomes, all, rfl, fun on => numbered_eq_nil_iff.not.mpr (nonempty on)⟩
  · rintro ⟨outcomes, found, rfl, nonempty⟩
    refine alternatives_eq_ok_iff.mpr ⟨wanted faults outcomes, ?_, rfl, ?_⟩
    · exact candidates_eq_ok_iff.mpr ⟨outcomes, by rwa [outcomes_withFlags], rfl⟩
    · exact fun on => numbered_eq_nil_iff.not.mp (nonempty on)

theorem alternatives_withFlags_eq_noAlternatives_iff {checks : Bool} :
    (c.withFlags checks true).alternatives a = .error .noAlternatives ↔
      ∃ outcomes, c.outcomes a = .ok outcomes ∧ (c.withFlags checks true).kept outcomes = [] := by
  rw [alternatives_eq_noAlternatives_iff]
  constructor
  · rintro ⟨_, candidates, found, none⟩
    obtain ⟨outcomes, all, rfl⟩ := candidates_eq_ok_iff.mp found
    rw [outcomes_withFlags] at all
    refine ⟨outcomes, all, ?_⟩
    rwa [← wanted_true outcomes]
  · rintro ⟨outcomes, found, none⟩
    refine ⟨rfl, outcomes, ?_, none⟩
    exact candidates_eq_ok_iff.mpr
      ⟨outcomes, by rwa [outcomes_withFlags], (wanted_true outcomes).symm⟩

theorem alternatives_checked_eq_ok_iff {faults : Bool} {kept : List Alternative} :
    (c.withFlags true faults).alternatives a = .ok kept ↔
      ∃ all, (c.withFlags false faults).alternatives a = .ok all ∧ kept = numbered (c.sifted all) ∧
        (faults = true → kept ≠ []) := by
  constructor
  · intro run
    obtain ⟨outcomes, found, rfl, nonempty⟩ := alternatives_withFlags_eq_ok_iff.mp run
    let all := numbered ((c.withFlags false faults).kept (wanted faults outcomes))
    have sifted : numbered (c.sifted all) = _ := c.numbered_sifted faults _
    refine ⟨all, alternatives_withFlags_eq_ok_iff.mpr ⟨outcomes, found, rfl, ?_⟩, sifted.symm,
      nonempty⟩
    intro on none
    apply nonempty on
    rw [← sifted, none]
    rfl
  · rintro ⟨all, run, same, nonempty⟩
    obtain ⟨outcomes, found, rfl, _⟩ := alternatives_withFlags_eq_ok_iff.mp run
    rw [numbered_sifted] at same
    exact alternatives_withFlags_eq_ok_iff.mpr ⟨outcomes, found, same, nonempty⟩

theorem alternatives_faultless_eq_ok_iff {checks : Bool} {kept : List Alternative} :
    (c.withFlags checks false).alternatives a = .ok kept ↔
      (∃ all, (c.withFlags checks true).alternatives a = .ok all ∧
        kept = numbered (withoutViolations all)) ∨
      (c.withFlags checks true).alternatives a = .error .noAlternatives ∧ kept = [] := by
  constructor
  · intro run
    obtain ⟨outcomes, found, rfl, _⟩ := alternatives_withFlags_eq_ok_iff.mp run
    rw [← numbered_withoutViolations]
    by_cases none : (c.withFlags checks true).kept outcomes = []
    · refine .inr ⟨alternatives_withFlags_eq_noAlternatives_iff.mpr ⟨outcomes, found, none⟩, ?_⟩
      rw [none]
      rfl
    · refine .inl ⟨_, alternatives_withFlags_eq_ok_iff.mpr ⟨outcomes, found, ?_, ?_⟩, rfl⟩
      · rw [wanted_true]
      · exact fun _ => numbered_eq_nil_iff.not.mpr none
  · rintro (⟨all, run, rfl⟩ | ⟨refuted, rfl⟩)
    · obtain ⟨outcomes, found, rfl, _⟩ := alternatives_withFlags_eq_ok_iff.mp run
      rw [wanted_true, numbered_withoutViolations]
      exact alternatives_withFlags_eq_ok_iff.mpr ⟨outcomes, found, rfl, nofun⟩
    · obtain ⟨outcomes, found, none⟩ := alternatives_withFlags_eq_noAlternatives_iff.mp refuted
      refine alternatives_withFlags_eq_ok_iff.mpr ⟨outcomes, found, ?_, nofun⟩
      rw [← numbered_withoutViolations, none]
      rfl

/-- The flags of a policy for checks and for faults only filter. With checks, an access has the
alternatives that it has without, except those whose guard is refuted, and the undecided ones are
marked. Without faults it has those that do not fail, and to have none is no error then. All other
errors are the same. -/
theorem flags_only_filter (c : Context) (a : Access) :
    (∀ faults kept, (c.withFlags true faults).alternatives a = .ok kept ↔
      ∃ all, (c.withFlags false faults).alternatives a = .ok all ∧ kept = numbered (c.sifted all) ∧
        (faults = true → kept ≠ [])) ∧
    (∀ checks kept, (c.withFlags checks false).alternatives a = .ok kept ↔
      (∃ all, (c.withFlags checks true).alternatives a = .ok all ∧
        kept = numbered (withoutViolations all)) ∨
      (c.withFlags checks true).alternatives a = .error .noAlternatives ∧ kept = []) ∧
    ∀ checks faults checks' faults', ∀ e ≠ .noAlternatives,
      (c.withFlags checks faults).alternatives a = .error e ↔
        (c.withFlags checks' faults').alternatives a = .error e := by
  refine ⟨?_, ?_, ?_⟩
  · exact fun faults kept => alternatives_checked_eq_ok_iff
  · exact fun checks kept => alternatives_faultless_eq_ok_iff
  · exact fun checks faults checks' faults' e other =>
      error_withFlags_iff other checks faults checks' faults'

theorem flags_only_filter_out_of_bounds :
    let t := ClassTable.base
    let s : HeapSnapshot :=
      { objects := [⟨⟨"[Ljava/lang/Object;"⟩, none⟩, ⟨.object, some (.root "o")⟩] }
    let c (clauses : List Clause) : Context :=
      { policy := {}, heap := s.view t, hierarchy := t.hierarchy, procedure := .clausal
        path := ⟨clauses⟩ }
    let inside : Clause := .inBounds (.term "i") (.int 3)
    let outside : Clause := .outOfBounds (.term "i") (.int 3)
    let load (array : Nat) : Access :=
      .arrayLoad array (.int 3) (.term "i") (.symbolic ⟨.root "e", .object⟩) true
    (∃ all kept, ((c [outside]).withFlags false true).alternatives (load 0) = .ok all ∧
      ((c [outside]).withFlags true true).alternatives (load 0) = .ok kept ∧
      all.length = 4 ∧ kept.length = 1 ∧ kept = numbered ((c [outside]).sifted all)) ∧
    ((c [outside]).withFlags true false).alternatives (load 0) = .ok [] ∧
    ((c [inside, outside]).withFlags true true).alternatives (load 0) = .error .noAlternatives ∧
    ((c [inside, outside]).withFlags true false).alternatives (load 0) = .ok [] ∧
    ∀ checks faults,
      ((c []).withFlags checks faults).alternatives (load 2) = .error (.unknownObject 2) := by
  intro t s c inside outside load
  have refuted : ((c [inside, outside]).withFlags true true).alternatives (load 0) =
      .error .noAlternatives := by
    -- It fails, and it does not where the procedure is not asked.
    have fails : (((c [inside, outside]).withFlags true true).alternatives
        (load 0)).toOption.isNone = true := by decide +kernel
    obtain ⟨all, unasked, _⟩ := exists_alternatives_of_length
      (c := (c [inside, outside]).withFlags false true) (a := load 0) (n := 4) (by decide +kernel)
    have errors := ((c [inside, outside]).flags_only_filter (load 0)).2.2
    cases found : ((c [inside, outside]).withFlags true true).alternatives (load 0) with
    | ok kept => rw [found] at fails; cases fails
    | error e =>
      by_contra other
      have same := (errors true true false true e (fun h => other (by rw [h]))).mp found
      rw [unasked] at same
      cases same
  refine ⟨?_, ?_, refuted, ?_, ?_⟩
  · obtain ⟨kept, asked, single⟩ := exists_alternatives_of_length
      (c := (c [outside]).withFlags true true) (a := load 0) (n := 1) (by decide +kernel)
    obtain ⟨all, unasked, same, _⟩ := (((c [outside]).flags_only_filter (load 0)).1 _ _).mp asked
    obtain ⟨all', unasked', four⟩ := exists_alternatives_of_length
      (c := (c [outside]).withFlags false true) (a := load 0) (n := 4) (by decide +kernel)
    obtain rfl : all = all' := Except.ok.inj (unasked.symm.trans unasked')
    exact ⟨all, kept, unasked, asked, four, single, same⟩
  · obtain ⟨kept, asked, none⟩ := exists_alternatives_of_length
      (c := (c [outside]).withFlags true false) (a := load 0) (n := 0) (by decide +kernel)
    rw [asked, List.length_eq_zero_iff.mp none]
  · exact (((c [inside, outside]).flags_only_filter (load 0)).2.1 _ _).mpr (.inr ⟨refuted, rfl⟩)
  · intro checks faults
    have missed : ((c []).withFlags true true).alternatives (load 2) = .error (.unknownObject 2) :=
      rfl
    have errors := ((c []).flags_only_filter (load 2)).2.2
    exact (errors true true checks faults _ (by decide)).mp missed

end Context
end DecisionPoints
