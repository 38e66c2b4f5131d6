import DecisionPoints.Proofs.Coverage
import DecisionPoints.Proofs.PerResolution

/-!
Repeated accesses. On the path that has taken an alternative, enumerating the same access again
leaves that alternative alone: the path assumes its guard, which all of its siblings exclude. If its
referent was fresh and has been discovered in the heap since, the alternative is the same on that
object.
-/
namespace DecisionPoints

theorem filter_eq_singleton {α : Type} {R : α → α → Prop} {as : List α} (pairwise : as.Pairwise R)
    (symm : ∀ {a b}, R a b → R b a) {a : α} (member : a ∈ as) {p : α → Bool} (keep : p a = true)
    (drop : ∀ b, R a b → p b = false) : as.filter p = [a] := by
  obtain ⟨before, after, rfl⟩ := List.append_of_mem member
  obtain ⟨_, later, earlier⟩ := List.pairwise_append.mp pairwise
  have none (bs : List α) (related : ∀ b ∈ bs, R a b) : bs.filter p = [] := by
    refine List.filter_eq_nil_iff.mpr fun b hb => ?_
    rw [drop b (related b hb)]
    exact Bool.false_ne_true
  rw [List.filter_append, List.filter_cons_of_pos keep,
    none before fun b hb => symm (earlier b hb a List.mem_cons_self),
    none after (List.pairwise_cons.mp later).1]
  rfl

theorem Outcome.fault?_on (o : Outcome) {before after : Referent}
    (h : o.kind.referent? = some before) (known : before ≠ .null) (seen : after ≠ .null) :
    { o with kind := o.kind.on after }.fault? = o.fault? := by
  obtain ⟨family, kind, guard, writeBack⟩ := o
  cases kind with
  | resolved referent =>
    cases h
    cases before <;> cases after <;> first | contradiction | rfl
  | typeTest referent holds => rfl
  | inBounds | outOfBounds => cases h
  | typeMismatch referent =>
    cases h
    cases family <;> rfl

namespace PathCondition

theorem referentOf?_conjoin (p : PathCondition) (g : Guard) (origin : Origin) :
    (p.conjoin g).referentOf? origin =
      (p.referentOf? origin).or (PathCondition.referentOf? ⟨g.clauses⟩ origin) :=
  List.findSome?_append

theorem referentOf?_conjoin_of_none {p : PathCondition} {origin : Origin}
    (unsettled : p.referentOf? origin = none) {g : Guard} {bounds : List Clause}
    {referent : Referent} (guard : g.clauses = bounds ++ [.resolves origin referent])
    (unrelated : ∀ b ∈ bounds, b.origin? = none) :
    (p.conjoin g).referentOf? origin = some referent := by
  have skipped : PathCondition.referentOf? ⟨bounds⟩ origin = none := by
    refine List.findSome?_eq_none_iff.mpr fun b hb => ?_
    have bounded := unrelated b hb
    cases b with
    | resolves o r => cases bounded
    | inBounds index length => rfl
    | outOfBounds index length => rfl
  have split : PathCondition.referentOf? ⟨g.clauses⟩ origin =
      (PathCondition.referentOf? ⟨bounds⟩ origin).or (some referent) := by
    rw [guard]
    simp [referentOf?, List.findSome?_append]
  rw [referentOf?_conjoin, unsettled, split, skipped]
  rfl

end PathCondition

namespace HeapSnapshot

/-- Whether the heap holds an object that was first reached through the origin. -/
def Discovered (s : HeapSnapshot) (origin : Origin) : Prop :=
  ∃ object ∈ s.objects, object.origin = some origin

theorem materialized?_eq_none {t : ClassTable} {s : HeapSnapshot} {origin : Origin}
    (h : ¬ s.Discovered origin) : (s.view t).materialized? origin = none := by
  refine List.findIdx?_eq_none_iff.mpr fun object member => ?_
  exact decide_eq_false fun found => h ⟨object, member, found⟩

theorem materialized?_discover {t : ClassTable} {s : HeapSnapshot} {origin : Origin}
    (h : ¬ s.Discovered origin) (className : ClassName) :
    ((s.discover className origin).view t).materialized? origin = some s.size := by
  have absent : s.objects.findIdx? (·.origin = some origin) = none :=
    materialized?_eq_none (t := t) h
  simp [view, discover, push, List.findIdx?_append, absent, size]

end HeapSnapshot

namespace Context

theorem resolutions_conjoin {c later : Context} {r : SymbolicReference} {allowNull : Bool}
    {s : Resolution} (member : s ∈ c.resolutions r allowNull) {g : Guard} {bounds : List Clause}
    (guard : g.clauses = bounds ++ [s.clause]) (unrelated : ∀ b ∈ bounds, b.origin? = none)
    (path : later.path = c.path.conjoin g) : ∃ referent,
      (s.referent = referent ∨ s.referent = c.current r.origin referent) ∧
        later.resolutions r allowNull = [⟨later.current r.origin referent, s.clause⟩] := by
  unfold resolutions at member ⊢
  rw [path]
  split at member
  · next referent settled =>
    obtain rfl := List.mem_singleton.mp member
    refine ⟨referent, .inr rfl, ?_⟩
    rw [PathCondition.referentOf?_conjoin, settled]
    rfl
  · next unsettled =>
    obtain ⟨referent, _, rfl⟩ := List.mem_map.mp member
    refine ⟨referent, .inl rfl, ?_⟩
    rw [PathCondition.referentOf?_conjoin_of_none unsettled guard unrelated]
    rfl

theorem current_again {c later : Context} (heap : later.heap = c.heap) {origin : Origin}
    {seen referent : Referent} (before : seen = referent ∨ seen = c.current origin referent)
    (unchanged : (∀ className, seen ≠ .fresh className) ∨ c.heap.materialized? origin = none) :
    later.current origin referent = seen := by
  have same : later.current origin referent = c.current origin referent := by
    unfold current
    rw [heap]
  rw [same]
  rcases before with rfl | rfl
  · match seen with
    | .alias position other => rfl
    | .null => rfl
    | .fresh className =>
      rcases unchanged with known | absent
      · exact absurd rfl (known className)
      · simp only [current, absent]
  · rfl

theorem eq_fresh_of_current {c : Context} {origin : Origin} {referent : Referent}
    {className : ClassName} (h : c.current origin referent = .fresh className) :
    referent = .fresh className := by
  match referent with
  | .alias position other => cases h
  | .null => cases h
  | .fresh other =>
    unfold current at h
    dsimp only at h
    split at h
    · cases h
    · exact h

theorem alternatives_eq_singleton {t : ClassTable} {s : HeapSnapshot} {c : Context}
    (snapshot : c.heap = s.view t) (checks : c.policy.feasibilityChecks = true)
    (clausal : c.procedure = .clausal) {a : Access} {outcomes : List Outcome}
    (found : c.outcomes a = .ok outcomes) {o : Outcome} (member : o ∈ outcomes)
    (wanted : (c.policy.faultAlternatives || !o.kind.isViolation) = true)
    (assumed : o.guard.clauses ⊆ c.path.clauses) (feasible : c.judge o ≠ .unsat) :
    c.alternatives a = .ok [c.keep o] := by
  have apart : outcomes.Pairwise fun p q => p.guard.Excludes q.guard :=
    List.pairwise_map.mp (outcomes_exclude snapshot found)
  have refuted (p : Outcome) (excluded : o.guard.Excludes p.guard) : c.judge p = .unsat := by
    obtain ⟨x, hx, y, hy, excludes⟩ := excluded
    rw [judge, if_pos checks, clausal]
    refine Clause.feasibility_eq_unsat_iff.mpr ?_
    exact Clause.contradictory_of_excludes (List.mem_append_left _ (assumed hx))
      (List.mem_append_right _ hy) excludes
  have only : (outcomes.filter c.asksFor).filter (fun p => c.judge p ≠ .unsat) = [o] := by
    rw [List.filter_filter]
    refine filter_eq_singleton apart Guard.Excludes.symm member ?_ fun p excluded => ?_
    · simp only [asksFor, wanted, feasible, ne_eq, not_false_eq_true, decide_true, Bool.and_self]
    · simp [refuted p excluded]
  refine alternatives_eq_ok_iff.mpr ⟨_, candidates_eq_ok_iff.mpr ⟨outcomes, found, rfl⟩, ?_, ?_⟩
  · rw [kept_eq, only]
    rfl
  · rw [kept_eq, only]
    exact fun _ => List.cons_ne_nil _ _

theorem alternatives_of_outcome_again {t : ClassTable} {s : HeapSnapshot} {c later : Context}
    (snapshot : later.heap = s.view t) (checks : c.policy.feasibilityChecks = true)
    (clausal : c.procedure = .clausal) {a : Access} {alternatives : List Alternative}
    (h : c.alternatives a = .ok alternatives) {x : Alternative} (member : x ∈ alternatives)
    (policy : later.policy = c.policy) (procedure : later.procedure = c.procedure)
    (path : later.path = c.path.conjoin x.guard) {outcomes : List Outcome}
    (found : later.outcomes a = .ok outcomes) {kind : OutcomeKind}
    (again : { x.toOutcome with kind } ∈ outcomes)
    (status : kind.isViolation = x.kind.isViolation) :
    later.alternatives a = .ok [{ x with kind, branch := 1 }] := by
  obtain ⟨_, _, _, wanted, feasible, flag⟩ := outcome_of_alternative h member
  have judged : later.judge { x.toOutcome with kind } = c.judge x.toOutcome := by
    rw [judge, judge, policy, if_pos checks, if_pos checks, procedure, clausal, path]
    refine Clause.feasibility_congr fun clause => ?_
    simp only [PathCondition.conjoin, List.mem_append, or_assoc, or_self]
  have alone := alternatives_eq_singleton snapshot (policy ▸ checks) (procedure ▸ clausal) found
    again (by rw [policy, status]; exact wanted)
    (by rw [path]; exact List.subset_append_right _ _) (by rw [judged]; exact feasible)
  rw [alone, keep, judged, ← flag]

theorem exists_outcomes_of_index {c later : Context} (keeps : c.Keeps later) {a : Access}
    {outcomes : List Outcome} (h : c.outcomes a = .ok outcomes) {o : Outcome}
    (member : o ∈ outcomes) (bounded : a.bounds?.isSome) (unresolved : o.kind.referent? = none) :
    ∃ outcomes, later.outcomes a = .ok outcomes ∧ o ∈ outcomes := by
  obtain ⟨ways, found, h⟩ := bind_eq_ok_iff.mp h
  obtain ⟨ways', found'⟩ := exists_subjectResolutions keeps found
  cases a with
  | arrayLoad array length index element isFresh =>
    rw [Context.outcomes, found']
    cases element with
    | null | object position => cases h; exact ⟨_, rfl, member⟩
    | symbolic r =>
      cases h
      refine ⟨_, rfl, ?_⟩
      rcases List.mem_append.mp member with inside | outside
      · obtain ⟨s, _, rfl⟩ := List.mem_map.mp inside
        cases unresolved
      · exact List.mem_append_right _ outside
  | arrayStore array length index value =>
    obtain ⟨storable, tested, h⟩ := bind_eq_ok_iff.mp h
    cases h
    have again := extends_isStorable keeps array value storable tested
    exact ⟨_, bind_eq_ok_iff.mpr ⟨ways', found', bind_eq_ok_iff.mpr ⟨storable, again, rfl⟩⟩, member⟩
  | fieldLoad field loaded => cases bounded
  | checkCast target reference | instanceOf target reference => cases bounded
  | receiver reference => cases bounded

theorem alternatives_of_way_again {t : ClassTable} {s : HeapSnapshot} {c later : Context}
    (snapshot : later.heap = s.view t) (checks : c.policy.feasibilityChecks = true)
    (clausal : c.procedure = .clausal) {a : Access} {alternatives : List Alternative}
    (h : c.alternatives a = .ok alternatives) {x : Alternative} (member : x ∈ alternatives)
    (keeps : c.Keeps later) (procedure : later.procedure = c.procedure)
    (path : later.path = c.path.conjoin x.guard) {r : SymbolicReference}
    (subject : c.subject? a = .ok (some r)) {way : Resolution}
    (among : way ∈ c.resolutions r (a.allowsNull c.policy))
    (outcome : c.outcomeOn a way = .ok x.toOutcome) {referent : Referent}
    (seen : ∀ resolved, way.referent = resolved ∨ way.referent = c.current r.origin resolved →
      later.current r.origin resolved = referent)
    (null : referent = .null ↔ way.referent = .null)
    (tests : ∀ target,
      Extends (c.isInstance target way.referent) (later.isInstance target referent)) :
    later.alternatives a = .ok [{ x with kind := x.kind.on referent, branch := 1 }] := by
  have guard : x.guard.clauses = a.inside ++ [way.clause] :=
    congrArg Guard.clauses (isOn_of_outcomeOn outcome).guard
  obtain ⟨resolved, before, only⟩ := resolutions_conjoin among guard
    (fun _ member => Access.origin?_of_mem_inside member) path
  rw [seen resolved before, ← keeps.policy] at only
  obtain ⟨outcomes, found, again⟩ := exists_outcomes_of_way
    (extends_subject? keeps a _ subject) only (outcomeOn_on outcome null tests)
  exact alternatives_of_outcome_again snapshot checks clausal h member keeps.policy procedure path
    found again (OutcomeKind.isViolation_on _ _)

theorem isInstance_discover {t : ClassTable} {s : HeapSnapshot} {c : Context}
    {className : ClassName} {origin : Origin}
    (discovered : c.heap = (s.discover className origin).view t) (target : ClassName) :
    c.isInstance target (.alias s.size origin) = c.isInstance target (.fresh className) := by
  have known : c.classAt s.size = .ok className := by
    simp [classAt, discovered, HeapSnapshot.view, HeapSnapshot.discover]
  rw [isInstance, known]
  rfl

theorem alternatives_on_same_heap {t : ClassTable} {s : HeapSnapshot} {c : Context}
    (snapshot : c.heap = s.view t) (checks : c.policy.feasibilityChecks = true)
    (clausal : c.procedure = .clausal) {a : Access} {alternatives : List Alternative}
    (h : c.alternatives a = .ok alternatives) {x : Alternative} (member : x ∈ alternatives)
    (unchanged : (∀ className, x.kind.referent? ≠ some (.fresh className)) ∨
      ∀ r, a.symbolic? = some r → ¬ s.Discovered r.origin) :
    { c with path := c.path.conjoin x.guard }.alternatives a = .ok [{ x with branch := 1 }] := by
  have keeps : c.Keeps { c with path := c.path.conjoin x.guard } := ⟨rfl, rfl, fun _ _ h => h⟩
  have heap : { c with path := c.path.conjoin x.guard }.heap = s.view t := snapshot
  obtain ⟨outcomes, found, among, _⟩ := outcome_of_alternative h member
  rcases exists_way_of_outcome found among with
    ⟨bounded, unresolved, _⟩ | ⟨r, subject, way, possible, outcome⟩
  · obtain ⟨again, found, among⟩ := exists_outcomes_of_index keeps found among bounded unresolved
    exact alternatives_of_outcome_again heap checks clausal h member rfl rfl rfl found among rfl
  · have referent := (isOn_of_outcomeOn outcome).referent
    have unfresh : (∀ className, way.referent ≠ .fresh className) ∨
        c.heap.materialized? r.origin = none := by
      refine unchanged.imp (fun known className same => ?_) fun absent => ?_
      · exact known className (same ▸ referent)
      · rw [snapshot]
        exact HeapSnapshot.materialized?_eq_none (absent r (subject?_eq_ok subject).1)
    have alone := alternatives_of_way_again heap checks clausal h member keeps rfl rfl subject
      possible outcome (fun _ before => current_again rfl before unfresh) Iff.rfl fun _ => .refl _
    rwa [OutcomeKind.on_self referent] at alone

theorem alternatives_on_discovered {t : ClassTable} {s : HeapSnapshot} {c : Context}
    (snapshot : c.heap = s.view t) (checks : c.policy.feasibilityChecks = true)
    (clausal : c.procedure = .clausal) {a : Access} {alternatives : List Alternative}
    (h : c.alternatives a = .ok alternatives) {x : Alternative} (member : x ∈ alternatives)
    {r : SymbolicReference} {className : ClassName} (symbolic : a.symbolic? = some r)
    (fresh : x.kind.referent? = some (.fresh className)) (absent : ¬ s.Discovered r.origin) :
    { c with
      path := c.path.conjoin x.guard
      heap := (s.discover className r.origin).view t }.alternatives a =
        .ok [{ x with kind := x.kind.on (.alias s.size r.origin), branch := 1 }] := by
  obtain ⟨outcomes, found, among, _⟩ := outcome_of_alternative h member
  rcases exists_way_of_outcome found among with
    ⟨_, unresolved, _⟩ | ⟨subjectReference, subject, way, possible, outcome⟩
  · rw [unresolved] at fresh
    cases fresh
  · obtain rfl : r = subjectReference :=
      Option.some.inj (symbolic.symm.trans (subject?_eq_ok subject).1)
    have referent : way.referent = .fresh className :=
      Option.some.inj ((isOn_of_outcomeOn outcome).referent.symm.trans fresh)
    have known : way.referent ≠ .null := by
      rw [referent]
      exact nofun
    have keeps := keeps_of_growsTo snapshot (s.growsTo_discover className r.origin)
      (c.path.conjoin x.guard)
    refine alternatives_of_way_again rfl checks clausal h member keeps rfl rfl subject possible
      outcome ?_ (iff_of_false nofun known) ?_
    · intro resolved before
      obtain rfl : resolved = .fresh className :=
        before.elim (fun same => same ▸ referent) fun same =>
          eq_fresh_of_current (same.symm.trans referent)
      simp only [current, HeapSnapshot.materialized?_discover absent]
    · intro target
      rw [referent]
      exact fun _ tested => (isInstance_discover rfl target).trans tested

/-- A settled access stays settled. Once the path has taken an alternative, the access has that
alternative alone. If its referent was fresh and is then discovered, the alternative is on the
object at that position, fails only if it did before, and is the same otherwise. -/
theorem settled_access_stays_settled {t : ClassTable} {s : HeapSnapshot} {c : Context}
    (snapshot : c.heap = s.view t) (checks : c.policy.feasibilityChecks = true)
    (clausal : c.procedure = .clausal) {a : Access} {alternatives : List Alternative}
    (h : c.alternatives a = .ok alternatives) {x : Alternative} (member : x ∈ alternatives) :
    ((∀ className, x.kind.referent? ≠ some (.fresh className)) ∨
        (∀ r, a.symbolic? = some r → ¬ s.Discovered r.origin) →
      { c with path := c.path.conjoin x.guard }.alternatives a = .ok [{ x with branch := 1 }]) ∧
    ∀ r className, a.symbolic? = some r → x.kind.referent? = some (.fresh className) →
      ¬ s.Discovered r.origin →
      ∃ y, { c with
          path := c.path.conjoin x.guard
          heap := (s.discover className r.origin).view t }.alternatives a = .ok [y] ∧
        y = { x with kind := x.kind.on (.alias s.size r.origin), branch := 1 } ∧
        y.fault? = x.fault? := by
  refine ⟨alternatives_on_same_heap snapshot checks clausal h member, ?_⟩
  intro r className symbolic fresh absent
  have alone := alternatives_on_discovered snapshot checks clausal h member symbolic fresh absent
  exact ⟨_, alone, rfl, x.toOutcome.fault?_on fresh nofun nofun⟩

theorem settled_access_stays_settled_load :
    let s : HeapSnapshot := { objects := [⟨⟨"[Ljava/lang/Object;"⟩, none⟩] }
    let c : Context :=
      { policy := {}, heap := s.view .base, hierarchy := ClassTable.base.hierarchy,
        procedure := .clausal, path := {} }
    let a : Access := .arrayLoad 0 (.int 3) (.term "i") (.symbolic ⟨.root "e", .object⟩) true
    ¬ s.Discovered (.root "e") ∧ ∃ alternatives, c.alternatives a = .ok alternatives ∧
      ∃ x ∈ alternatives, x.kind = .resolved (.fresh .object) ∧ x.writeBack.isSome ∧
        { c with path := c.path.conjoin x.guard }.alternatives a = .ok [{ x with branch := 1 }] ∧
        ∃ y, { c with
            path := c.path.conjoin x.guard
            heap := (s.discover .object (.root "e")).view .base }.alternatives a = .ok [y] ∧
          y.kind = .resolved (.alias 1 (.root "e")) ∧ y.writeBack = x.writeBack := by
  intro s c a
  have absent : ¬ s.Discovered (.root "e") := by
    rintro ⟨object, member, found⟩
    cases List.mem_singleton.mp member
    cases found
  obtain ⟨alternatives, found, x, member, fresh⟩ := exists_alternative (c := c) (a := a)
    (p := fun x => x.kind = .resolved (.fresh .object) ∧ x.writeBack.isSome) (by decide +kernel)
  obtain ⟨kind, stored⟩ := of_decide_eq_true fresh
  obtain ⟨same, discovered⟩ := settled_access_stays_settled rfl rfl rfl found member
  have referent : x.kind.referent? = some (.fresh .object) := by
    rw [kind]
    rfl
  obtain ⟨y, alone, known, _⟩ := discovered ⟨.root "e", .object⟩ .object rfl referent absent
  refine ⟨absent, alternatives, found, x, member, kind, stored, same (.inr ?_), y, alone, ?_, ?_⟩
  · rintro r symbolic
    obtain rfl : ⟨.root "e", .object⟩ = r := Option.some.inj symbolic
    exact absent
  · rw [known]
    simp only [kind, OutcomeKind.on]
    rfl
  · rw [known]

end Context
end DecisionPoints
