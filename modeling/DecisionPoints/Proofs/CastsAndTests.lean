import DecisionPoints.Proofs.PerResolution
import DecisionPoints.Proofs.PolicyFilters
import DecisionPoints.Proofs.Resolutions

/-!
Casts and type tests of one reference. Both are enumerated over the same ways of resolving it, after
the same checks. A cast passes where the test holds, and for null, and fails elsewhere, so its
alternatives are those of the test, the passing ones first.
-/
namespace DecisionPoints

namespace OutcomeKind

/-- Whether a cast passes where the type test has this outcome. Null passes every cast, though it is
an instance of no class. -/
def passesCast : OutcomeKind → Bool
  | .typeTest referent holds => holds || referent = .null
  | _ => false

def afterCast : OutcomeKind → OutcomeKind
  | .typeTest referent holds =>
    if holds || referent = .null then .resolved referent else .typeMismatch (some referent)
  | kind => kind

def IsTypeTest (kind : OutcomeKind) : Prop := ∃ referent holds, kind = .typeTest referent holds

@[simp] theorem referent?_afterCast (kind : OutcomeKind) :
    kind.afterCast.referent? = kind.referent? := by
  cases kind with
  | typeTest referent holds =>
    rw [afterCast]
    split <;> rfl
  | _ => rfl

theorem isViolation_afterCast {kind : OutcomeKind} (test : kind.IsTypeTest) :
    kind.afterCast.isViolation = !kind.passesCast := by
  obtain ⟨referent, holds, rfl⟩ := test
  rw [afterCast, passesCast]
  cases holds || decide (referent = .null) <;> rfl

end OutcomeKind

namespace Outcome

def afterCast (o : Outcome) : Outcome :=
  { o with family := .checkCast, kind := o.kind.afterCast }

theorem afterCast_of_passesCast {o : Outcome} (passes : o.kind.passesCast = true) :
    ∃ referent, o.afterCast.kind = .resolved referent ∧ o.afterCast.fault? = none := by
  obtain ⟨family, kind, guard, writeBack⟩ := o
  cases kind with
  | typeTest referent holds =>
    have resolved : (OutcomeKind.typeTest referent holds).afterCast = .resolved referent :=
      if_pos passes
    refine ⟨referent, resolved, ?_⟩
    rw [fault?, afterCast, resolved]
    cases referent <;> rfl
  | _ => cases passes

theorem afterCast_of_not_passesCast {o : Outcome} {referent : Referent} {holds : Bool}
    (test : o.kind = .typeTest referent holds) (fails : o.kind.passesCast = false) :
    o.afterCast.kind = .typeMismatch (some referent) ∧ referent ≠ .null ∧
      o.afterCast.fault? = some ClassName.classCast := by
  obtain ⟨family, kind, guard, writeBack⟩ := o
  obtain rfl : kind = .typeTest referent holds := test
  have mismatch : (OutcomeKind.typeTest referent holds).afterCast = .typeMismatch (some referent) :=
    if_neg (ne_true_of_eq_false fails)
  refine ⟨mismatch, ?_, ?_⟩
  · rintro rfl
    simp [OutcomeKind.passesCast] at fails
  · rw [fault?, afterCast, mismatch]

end Outcome

namespace Alternative

def afterCast (x : Alternative) : Alternative := { x with toOutcome := x.toOutcome.afterCast }

/-- What an alternative says of the reference: the referent, the guard under which it is that, and
whether the guard is to be checked again. -/
def finding (x : Alternative) : Option Referent × Guard × Bool :=
  (x.kind.referent?, x.guard, x.needsRecheck)

theorem findings_afterCast (xs : List Alternative) :
    (xs.map (·.afterCast)).map (·.finding) = xs.map (·.finding) := by
  rw [List.map_map]
  refine List.map_congr_left fun x _ => ?_
  simp [finding, afterCast, Outcome.afterCast]

end Alternative

namespace Context

def castOrder (tests : List Outcome) : List Outcome :=
  (tests.filter (·.kind.passesCast)).map (·.afterCast) ++
    (tests.filter (!·.kind.passesCast)).map (·.afterCast)

section Numbering

theorem map_eq_of_map_unnumbered {β : Type} (view : Alternative → β)
    (blind : ∀ x, view x.unnumbered = view x) {as bs : List Alternative}
    (same : as.map (·.unnumbered) = bs.map (·.unnumbered)) : as.map view = bs.map view := by
  have through (cs : List Alternative) : cs.map view = (cs.map (·.unnumbered)).map view := by
    rw [List.map_map]
    exact List.map_congr_left fun x _ => (blind x).symm
  rw [through, same, ← through]

theorem findings_numbered (p : OutcomeKind → Bool) (as : List Alternative) :
    ((numbered as).filter (p ·.kind)).map (·.finding) =
      (as.filter (p ·.kind)).map (·.finding) := by
  refine map_eq_of_map_unnumbered (·.finding) (fun _ => rfl) ?_
  have filtered (bs : List Alternative) : (bs.filter (p ·.kind)).map (·.unnumbered) =
      (bs.map (·.unnumbered)).filter (p ·.kind) := by
    rw [List.filter_map]
    rfl
  rw [filtered, map_unnumbered_numbered, ← filtered]

theorem exists_numbered_append (as bs : List Alternative) : ∃ xs ys,
    numbered (as ++ bs) = xs ++ ys ∧ xs.map (·.unnumbered) = as.map (·.unnumbered) ∧
      ys.map (·.unnumbered) = bs.map (·.unnumbered) := by
  have both := map_unnumbered_numbered (as ++ bs)
  rw [List.map_append] at both
  exact List.map_eq_append_iff.mp both

theorem exists_toOutcome_eq {as bs : List Alternative}
    (same : as.map (·.unnumbered) = bs.map (·.unnumbered)) {x : Alternative} (member : x ∈ as) :
    ∃ y ∈ bs, y.toOutcome = x.toOutcome := by
  have outcomes := map_eq_of_map_unnumbered (·.toOutcome) (fun _ => rfl) same
  have listed := List.mem_map_of_mem (f := (·.toOutcome)) member
  rw [outcomes] at listed
  exact List.mem_map.mp listed

end Numbering

variable {c : Context} {target : ClassName} {reference : Reference} {tests : List Outcome}

theorem outcomeOn_checkCast_eq (c : Context) (target : ClassName) (reference : Reference)
    (s : Resolution) : c.outcomeOn (.checkCast target reference) s =
      Outcome.afterCast <$> c.outcomeOn (.instanceOf target reference) s := by
  rw [outcomeOn, outcomeOn]
  cases c.isInstance target s.referent <;> rfl

theorem outcomes_instanceOf {r : SymbolicReference}
    (subject : c.subject? (.instanceOf target reference) = .ok (some r)) :
    c.outcomes (.instanceOf target reference) =
      (c.resolutions r true).mapM (c.outcomeOn (.instanceOf target reference)) := by
  rw [outcomes, subjectResolutions_eq subject]
  rfl

theorem isTypeTest_of_mem (found : c.outcomes (.instanceOf target reference) = .ok tests)
    {o : Outcome} (member : o ∈ tests) : o.kind.IsTypeTest := by
  obtain ⟨ways, _, run⟩ := bind_eq_ok_iff.mp found
  obtain ⟨s, _, tested⟩ := exists_of_mem_mapM run member
  obtain ⟨holds, _, same⟩ := bind_eq_ok_iff.mp tested
  cases same
  exact ⟨s.referent, holds, rfl⟩

theorem arranged_afterCast (target : ClassName) (reference : Reference)
    (typed : ∀ o ∈ tests, o.kind.IsTypeTest) :
    arranged (.checkCast target reference) (tests.map (·.afterCast)) = castOrder tests := by
  have fails (o : Outcome) (member : o ∈ tests) :
      o.afterCast.kind.isViolation = !o.kind.passesCast :=
    OutcomeKind.isViolation_afterCast (typed o member)
  have none : overrun (.checkCast target reference) = [] := rfl
  rw [arranged, castOrder, none, List.append_nil, List.filter_map, List.filter_map]
  congr 2
  · refine List.filter_congr fun o member => ?_
    rw [Function.comp_apply, fails o member, Bool.not_not]
  · exact List.filter_congr fails

theorem outcomes_checkCast (c : Context) (target : ClassName) (reference : Reference) :
    c.outcomes (.checkCast target reference) =
      castOrder <$> c.outcomes (.instanceOf target reference) := by
  have same : c.subject? (.checkCast target reference) =
    c.subject? (.instanceOf target reference) := rfl
  cases subject : c.subject? (.instanceOf target reference) with
  | error e =>
    rw [outcomes, outcomes, subjectResolutions, subjectResolutions, same, subject]
    rfl
  | ok subject? =>
    cases subject? with
    | none => cases (subject?_eq_ok subject).2 rfl
    | some r =>
      rw [outcomes_eq (same.trans subject), funext (c.outcomeOn_checkCast_eq target reference),
        mapM_map_eq]
      change _ <$> _ <$> (c.resolutions r true).mapM _ = _
      rw [← outcomes_instanceOf subject]
      cases found : c.outcomes (.instanceOf target reference) with
      | error e => rfl
      | ok tests =>
        refine congrArg Except.ok (arranged_afterCast target reference fun o member => ?_)
        exact isTypeTest_of_mem found member

section Retained

theorem retained_map_afterCast (same : ∀ o ∈ tests, c.retains o.afterCast = c.retains o) :
    c.retained (tests.map (·.afterCast)) = (c.retained tests).map (·.afterCast) := by
  rw [retained, retained, List.filter_map, List.map_map, List.map_map]
  congr 1
  exact List.filter_congr same

theorem retained_castOrder (faults : c.policy.faultAlternatives = true) (tests : List Outcome) :
    c.retained (castOrder tests) =
      ((c.retained tests).filter (·.kind.passesCast)).map (·.afterCast) ++
        ((c.retained tests).filter (!·.kind.passesCast)).map (·.afterCast) := by
  have same (o : Outcome) : c.retains o.afterCast = c.retains o := by
    rw [retains, retains, faults]
    rfl
  rw [castOrder, retained_append, retained_map_afterCast fun o _ => same o,
    retained_map_afterCast fun o _ => same o, c.retained_filter (·.passesCast),
    c.retained_filter (!·.passesCast)]

theorem retained_castOrder_eq_nil_iff (faults : c.policy.faultAlternatives = true) :
    c.retained (castOrder tests) = [] ↔ c.retained tests = [] := by
  have parts := List.filter_append_perm (·.kind.passesCast) (c.retained tests)
  rw [retained_castOrder faults, ← List.map_append, List.map_eq_nil_iff, ← List.length_eq_zero_iff,
    parts.length_eq, List.length_eq_zero_iff]

end Retained

theorem alternatives_checkCast_eq_error (faults : c.policy.faultAlternatives = true)
    {e : AccessError} (failed : c.alternatives (.instanceOf target reference) = .error e) :
    c.alternatives (.checkCast target reference) = .error e := by
  have cast := c.outcomes_checkCast target reference
  by_cases none : e = .noAlternatives
  · subst none
    obtain ⟨_, tests, found, none⟩ := alternatives_eq_noAlternatives_iff_retained.mp failed
    rw [found] at cast
    exact alternatives_eq_noAlternatives_iff_retained.mpr
      ⟨faults, _, cast, (retained_castOrder_eq_nil_iff faults).mpr none⟩
  · rw [(alternatives_eq_error_iff none).mp failed] at cast
    exact (alternatives_eq_error_iff none).mpr cast

/-- The alternatives of a cast are those of the type test of the same reference, but with the ones
that pass first: null, and what the test holds of. Those are resolved, and the others fail as casts
of another class. Referents, guards and re-checks are those of the test. Where one of the two is an
error, so is the other, and it is the same. -/
theorem cast_partitions_test (c : Context) (faults : c.policy.faultAlternatives = true)
    (target : ClassName) (reference : Reference) :
    (∃ e, c.alternatives (.instanceOf target reference) = .error e ∧
      c.alternatives (.checkCast target reference) = .error e) ∨
    ∃ tests passing failing, c.alternatives (.instanceOf target reference) = .ok tests ∧
      c.alternatives (.checkCast target reference) = .ok (passing ++ failing) ∧
      passing.map (·.finding) = (tests.filter (·.kind.passesCast)).map (·.finding) ∧
      failing.map (·.finding) = (tests.filter (!·.kind.passesCast)).map (·.finding) ∧
      (∀ x ∈ tests, x.kind.IsTypeTest) ∧
      (∀ x ∈ passing, ∃ referent, x.kind = .resolved referent ∧ x.fault? = none) ∧
      ∀ x ∈ failing, ∃ referent, x.kind = .typeMismatch (some referent) ∧ referent ≠ .null ∧
        x.fault? = some ClassName.classCast := by
  cases tested : c.alternatives (.instanceOf target reference) with
  | error e => exact .inl ⟨e, rfl, alternatives_checkCast_eq_error faults tested⟩
  | ok alternatives =>
    obtain ⟨tests, found, rfl, nonempty⟩ := alternatives_eq_ok_iff_retained.mp tested
    have outcomes := c.outcomes_checkCast target reference
    rw [found] at outcomes
    have typed : ∀ x ∈ c.retained tests, x.kind.IsTypeTest := by
      intro x member
      obtain ⟨o, among, _, rfl⟩ := mem_retained.mp member
      exact isTypeTest_of_mem found among
    -- Numbers run through both parts, so each part is found again by what they do not tell.
    obtain ⟨passing, failing, listed, pass, fail⟩ := exists_numbered_append
      (((c.retained tests).filter (·.kind.passesCast)).map (·.afterCast))
      (((c.retained tests).filter (!·.kind.passesCast)).map (·.afterCast))
    refine .inr ⟨numbered (c.retained tests), passing, failing, rfl, ?_, ?_, ?_, ?_, ?_, ?_⟩
    · refine alternatives_eq_ok_iff_retained.mpr ⟨_, outcomes, ?_, fun _ => ?_⟩
      · rw [retained_castOrder faults, listed]
      · exact (retained_castOrder_eq_nil_iff faults).not.mpr (nonempty faults)
    · rw [map_eq_of_map_unnumbered (·.finding) (fun _ => rfl) pass, Alternative.findings_afterCast,
        findings_numbered (·.passesCast)]
    · rw [map_eq_of_map_unnumbered (·.finding) (fun _ => rfl) fail, Alternative.findings_afterCast,
        findings_numbered (!·.passesCast)]
    · intro x member
      obtain ⟨y, among, same⟩ := exists_toOutcome_eq (map_unnumbered_numbered _) member
      rw [← same]
      exact typed y among
    · intro x member
      obtain ⟨y, among, same⟩ := exists_toOutcome_eq pass member
      obtain ⟨z, passes, rfl⟩ := List.mem_map.mp among
      rw [← same]
      exact Outcome.afterCast_of_passesCast (List.mem_filter.mp passes).2
    · intro x member
      obtain ⟨y, among, same⟩ := exists_toOutcome_eq fail member
      obtain ⟨z, fails, rfl⟩ := List.mem_map.mp among
      obtain ⟨inTests, fails⟩ := List.mem_filter.mp fails
      obtain ⟨referent, holds, test⟩ := typed z inTests
      rw [← same]
      exact ⟨referent, Outcome.afterCast_of_not_passesCast test (by simpa using fails)⟩

theorem cast_partitions_test_mixed :
    let node : ClassName := ⟨"pkg/Node"⟩
    let leaf : ClassName := ⟨"pkg/Leaf"⟩
    let root : ClassDecl := { name := .object, superclass := none, isAbstract := true }
    let t := ((ClassTable.empty.insert root).insert
      { name := node, superclass := some .object, isAbstract := true }).insert (.concrete leaf node)
    let s : HeapSnapshot :=
      { objects := [⟨⟨"[I"⟩, some (.root "a")⟩, ⟨leaf, some (.root "b")⟩] }
    let c : Context :=
      { policy := {}, heap := s.view t, hierarchy := t.hierarchy, procedure := .clausal
        path := ⟨[]⟩ }
    let r : Reference := .symbolic ⟨.root "r", .object⟩
    let found (x : Referent) : Option Referent × Guard × Bool :=
      (some x, ⟨[.resolves (.root "r") x]⟩, false)
    c.policy.faultAlternatives = true ∧ ∃ tests passing failing,
      c.alternatives (.instanceOf node r) = .ok tests ∧
      tests.map (·.kind) = [.typeTest (.alias 0 (.root "a")) false,
        .typeTest (.alias 1 (.root "b")) true, .typeTest (.fresh leaf) true,
        .typeTest .null false] ∧
      c.alternatives (.checkCast node r) = .ok (passing ++ failing) ∧
      passing.map (·.finding) = [found (.alias 1 (.root "b")), found (.fresh leaf), found .null] ∧
      failing.map (·.finding) = [found (.alias 0 (.root "a"))] ∧
      ∀ x ∈ failing, x.fault? = some ClassName.classCast := by
  intro node leaf root t s c r found
  let view (tests : List Alternative) : Bool :=
    tests.map (·.kind) = [.typeTest (.alias 0 (.root "a")) false,
        .typeTest (.alias 1 (.root "b")) true, .typeTest (.fresh leaf) true,
        .typeTest .null false] ∧
      (tests.filter (·.kind.passesCast)).map (·.finding) =
        [found (.alias 1 (.root "b")), found (.fresh leaf), found .null] ∧
      (tests.filter (!·.kind.passesCast)).map (·.finding) = [found (.alias 0 (.root "a"))]
  obtain ⟨tests, tested, viewed⟩ := exists_alternatives_of_view view (c := c)
    (a := .instanceOf node r) (b := true) (by decide +kernel)
  obtain ⟨listed, passed, failed⟩ := of_decide_eq_true viewed
  rcases cast_partitions_test c rfl node r with ⟨e, error, _⟩ | ⟨all, passing, failing, again, cast,
    pass, fail, _, _, mismatch⟩
  · rw [tested] at error
    cases error
  · obtain rfl : tests = all := Except.ok.inj (tested.symm.trans again)
    refine ⟨rfl, tests, passing, failing, tested, listed, cast, pass.trans passed,
      fail.trans failed, fun x member => ?_⟩
    obtain ⟨_, _, _, fault⟩ := mismatch x member
    exact fault

end Context
end DecisionPoints
