import DecisionPoints.Enumeration.Alternatives
import DecisionPoints.Proofs.Outcomes

/-!
The alternatives of an access: the outcomes that the policy asks for and nothing refutes, in their
order and numbered from one. An access has none for one reason only, that all are refuted.
-/
namespace DecisionPoints
namespace Context

theorem candidates_eq_ok_iff {c : Context} {a : Access} {candidates : List Outcome} :
    c.candidates a = .ok candidates ↔ ∃ outcomes, c.outcomes a = .ok outcomes ∧
      candidates = outcomes.filter c.asksFor := by
  rw [candidates_eq]
  cases c.outcomes a <;> simp [Functor.map, Except.map, eq_comm]

theorem candidates_eq_error_iff {c : Context} {a : Access} {e : AccessError} :
    c.candidates a = .error e ↔ c.outcomes a = .error e := by
  rw [candidates_eq]
  cases c.outcomes a <;> simp [Functor.map, Except.map]

def keep (c : Context) (o : Outcome) : Alternative :=
  { o with needsRecheck := c.judge o = .unknown }

theorem kept_eq (c : Context) (candidates : List Outcome) :
    c.kept candidates = (candidates.filter fun o => c.judge o ≠ .unsat).map c.keep := by
  induction candidates with
  | nil => rfl
  | cons o rest ih =>
    rw [kept] at ih ⊢
    cases judged : c.judge o <;> simp [judged, ih, keep]

theorem map_toOutcome_kept (c : Context) (candidates : List Outcome) :
    (c.kept candidates).map (·.toOutcome) = candidates.filter fun o => c.judge o ≠ .unsat := by
  rw [kept_eq, List.map_map]
  exact List.map_id' _

theorem map_toOutcome_numbered (kept : List Alternative) :
    (numbered kept).map (·.toOutcome) = kept.map (·.toOutcome) := by
  calc (numbered kept).map (·.toOutcome)
      = (kept.zipIdx.map Prod.fst).map (·.toOutcome) := by
        rw [numbered, List.map_map, List.map_map]; rfl
    _ = kept.map (·.toOutcome) := by rw [List.zipIdx_map_fst]

theorem map_branch_numbered (kept : List Alternative) :
    (numbered kept).map (·.branch) = List.range' 1 kept.length := by
  calc (numbered kept).map (·.branch)
      = (kept.zipIdx.map Prod.snd).map (1 + ·) := by
        rw [numbered, List.map_map, List.map_map]
        exact List.map_congr_left fun pair _ => Nat.add_comm pair.2 1
    _ = List.range' 1 kept.length := by rw [List.zipIdx_map_snd, List.map_add_range']

theorem branch_of_numbered {kept : List Alternative} {i : Nat} {a : Alternative}
    (h : (numbered kept)[i]? = some a) : a.branch = i + 1 := by
  have number : ((numbered kept).map (·.branch))[i]? = some a.branch := by
    rw [List.getElem?_map, h, Option.map_some]
  rw [map_branch_numbered] at number
  obtain ⟨_, number⟩ := List.getElem?_eq_some_iff.mp number
  rw [List.getElem_range'] at number
  omega

theorem alternatives_eq_ok_iff {c : Context} {a : Access} {alternatives : List Alternative} :
    c.alternatives a = .ok alternatives ↔ ∃ candidates, c.candidates a = .ok candidates ∧
      alternatives = numbered (c.kept candidates) ∧
      (c.policy.faultAlternatives = true → c.kept candidates ≠ []) := by
  rw [Context.alternatives, bind_eq_ok_iff]
  refine exists_congr fun candidates => and_congr_right fun _ => ?_
  cases c.policy.faultAlternatives <;> cases c.kept candidates <;>
    simp [pure, Except.pure, eq_comm]

/-- Whether the outcome is asked for and not refuted. -/
def retains (c : Context) (o : Outcome) : Bool :=
  (c.policy.faultAlternatives || !o.kind.isViolation) && c.judge o ≠ .unsat

def retained (c : Context) (outcomes : List Outcome) : List Alternative :=
  (outcomes.filter c.retains).map c.keep

theorem retained_append (c : Context) (first second : List Outcome) :
    c.retained (first ++ second) = c.retained first ++ c.retained second := by
  simp [retained]

theorem retained_filter (c : Context) (p : OutcomeKind → Bool) (outcomes : List Outcome) :
    c.retained (outcomes.filter (p ·.kind)) = (c.retained outcomes).filter (p ·.kind) := by
  rw [retained, retained, List.filter_filter, List.filter_map, List.filter_filter]
  congr 2
  funext o
  exact Bool.and_comm _ _

theorem mem_retained {c : Context} {outcomes : List Outcome} {x : Alternative} :
    x ∈ c.retained outcomes ↔ ∃ o ∈ outcomes, c.retains o = true ∧ c.keep o = x := by
  simp [retained, and_assoc]

theorem retained_ne_nil_iff {c : Context} {outcomes : List Outcome} :
    c.retained outcomes ≠ [] ↔ ∃ o ∈ outcomes, c.retains o = true := by
  simp [retained]

theorem kept_eq_retained (c : Context) (outcomes : List Outcome) :
    c.kept (outcomes.filter c.asksFor) = c.retained outcomes := by
  rw [kept_eq, List.filter_filter, retained]
  congr 2
  funext o
  exact Bool.and_comm _ _

theorem alternatives_eq_ok_iff_retained {c : Context} {a : Access}
    {alternatives : List Alternative} :
    c.alternatives a = .ok alternatives ↔ ∃ outcomes, c.outcomes a = .ok outcomes ∧
      alternatives = numbered (c.retained outcomes) ∧
      (c.policy.faultAlternatives = true → c.retained outcomes ≠ []) := by
  simp only [alternatives_eq_ok_iff, candidates_eq_ok_iff]
  constructor
  · intro ⟨_, ⟨outcomes, found, rfl⟩, listed, nonempty⟩
    rw [kept_eq_retained] at listed nonempty
    exact ⟨outcomes, found, listed, nonempty⟩
  · intro ⟨outcomes, found, listed, nonempty⟩
    rw [← kept_eq_retained] at listed nonempty
    exact ⟨_, ⟨outcomes, found, rfl⟩, listed, nonempty⟩

theorem alternatives_of_unasked {c : Context} {a : Access} {outcomes : List Outcome}
    (unasked : c.policy.feasibilityChecks = false) (faults : c.policy.faultAlternatives = true)
    (found : c.outcomes a = .ok outcomes) (nonempty : outcomes ≠ []) :
    c.alternatives a = .ok (numbered (outcomes.map c.keep)) := by
  have kept : c.kept outcomes = outcomes.map c.keep := by
    rw [kept_eq, List.filter_eq_self.mpr fun o _ => by simp [judge, unasked]]
  refine alternatives_eq_ok_iff.mpr ⟨outcomes, ?_, by rw [kept], fun _ => by simpa [kept]⟩
  have all : outcomes.filter c.asksFor = outcomes :=
    List.filter_eq_self.mpr fun o _ => by simp [asksFor, faults]
  exact candidates_eq_ok_iff.mpr ⟨outcomes, found, all.symm⟩

theorem exists_outcomes_sublist {c : Context} {a : Access} {alternatives : List Alternative}
    (h : c.alternatives a = .ok alternatives) : ∃ outcomes, c.outcomes a = .ok outcomes ∧
      (alternatives.map (·.toOutcome)).Sublist outcomes := by
  obtain ⟨outcomes, all, rfl, _⟩ := alternatives_eq_ok_iff_retained.mp h
  have kept : (numbered (c.retained outcomes)).map (·.toOutcome) = outcomes.filter c.retains := by
    rw [map_toOutcome_numbered, retained, List.map_map]
    exact List.map_id' _
  exact ⟨outcomes, all, kept ▸ List.filter_sublist⟩

theorem outcome_of_alternative {c : Context} {a : Access} {alternatives : List Alternative}
    (h : c.alternatives a = .ok alternatives) {x : Alternative} (member : x ∈ alternatives) :
    ∃ outcomes, c.outcomes a = .ok outcomes ∧ x.toOutcome ∈ outcomes ∧
      (c.policy.faultAlternatives || !x.kind.isViolation) = true ∧ c.judge x.toOutcome ≠ .unsat ∧
      x.needsRecheck = (c.judge x.toOutcome = .unknown : Bool) := by
  obtain ⟨outcomes, all, rfl, _⟩ := alternatives_eq_ok_iff_retained.mp h
  obtain ⟨⟨y, i⟩, numbered, rfl⟩ := List.mem_map.mp member
  obtain ⟨o, among, retains, rfl⟩ := mem_retained.mp (List.fst_mem_of_mem_zipIdx numbered)
  rw [Context.retains, Bool.and_eq_true, decide_eq_true_eq] at retains
  exact ⟨outcomes, all, among, retains.1, retains.2, rfl⟩

theorem exists_alternative {c : Context} {a : Access} {p : Alternative → Bool}
    (h : (c.alternatives a).toOption.any (·.any p) = true) :
    ∃ alternatives, c.alternatives a = .ok alternatives ∧ ∃ x ∈ alternatives, p x = true := by
  cases found : c.alternatives a with
  | error e => rw [found] at h; cases h
  | ok alternatives =>
    rw [found] at h
    exact ⟨alternatives, rfl, List.any_eq_true.mp h⟩

theorem exists_alternatives_of_view {β : Type} {c : Context} {a : Access}
    (view : List Alternative → β) {b : β} (h : (c.alternatives a).toOption.map view = some b) :
    ∃ alternatives, c.alternatives a = .ok alternatives ∧ view alternatives = b := by
  cases found : c.alternatives a with
  | error e => rw [found] at h; cases h
  | ok alternatives =>
    rw [found] at h
    exact ⟨alternatives, rfl, Option.some.inj h⟩

theorem exists_alternatives_of_length {c : Context} {a : Access} {n : Nat}
    (h : (c.alternatives a).toOption.map List.length = some n) :
    ∃ alternatives, c.alternatives a = .ok alternatives ∧ alternatives.length = n :=
  exists_alternatives_of_view List.length h

def Checks {α : Type} (x : Except AccessError α) : Prop := x ≠ .error .noAlternatives

theorem Checks.ok {α : Type} (a : α) : Checks (.ok a) := by
  intro h
  cases h

theorem Checks.bind {α β : Type} {x : Except AccessError α} {f : α → Except AccessError β}
    (first : Checks x) (next : ∀ a, Checks (f a)) : Checks (x >>= f) := by
  cases x with
  | error e => exact fun same => first (congrArg Except.error (Except.error.inj same))
  | ok a => exact next a

theorem Checks.mapM {α β : Type} {f : α → Except AccessError β} (each : ∀ a, Checks (f a))
    (as : List α) : Checks (as.mapM f) := by
  induction as with
  | nil => exact .ok _
  | cons a rest ih =>
    rw [List.mapM_cons]
    exact (each a).bind fun _ => ih.bind fun _ => .ok _

theorem checks_classAt (c : Context) (position : Nat) : Checks (c.classAt position) := by
  unfold classAt
  split <;> rintro ⟨⟩

theorem checks_componentAt (c : Context) (array : Nat) : Checks (c.componentAt array) := by
  refine (c.checks_classAt array).bind fun className => ?_
  split
  · rintro ⟨⟩
  · split <;> rintro ⟨⟩

theorem checks_ensureResolvable (c : Context) (r : SymbolicReference) :
    Checks (c.ensureResolvable r) := by
  unfold ensureResolvable ensureKnown
  split
  · split <;> rintro ⟨⟩
  · rintro ⟨⟩

theorem checks_ensureKnown (c : Context) (className : ClassName) :
    Checks (c.ensureKnown className) := by
  unfold ensureKnown
  split <;> rintro ⟨⟩

theorem checks_expectSymbolic (reference : Reference) : Checks reference.expectSymbolic := by
  cases reference <;> rintro ⟨⟩

theorem checks_isInstance (c : Context) (target : ClassName) (referent : Referent) :
    Checks (c.isInstance target referent) := by
  match referent with
  | .alias position _ => exact (c.checks_classAt position).bind fun _ => .ok _
  | .fresh _ => exact .ok _
  | .null => exact .ok _

theorem checks_subject? (c : Context) (a : Access) : Checks (c.subject? a) := by
  cases a with
  | arrayLoad array length index element isFresh =>
    refine (c.checks_componentAt array).bind fun component => ?_
    split
    · split
      · exact (c.checks_ensureResolvable _).bind fun _ => .ok _
      · rintro ⟨⟩
    · rintro ⟨⟩
  | arrayStore array length index value =>
    exact (c.checks_componentAt array).bind fun _ => .ok _
  | fieldLoad field loaded =>
    refine (checks_expectSymbolic loaded).bind fun r => ?_
    split
    · rintro ⟨⟩
    · split
      · exact (c.checks_ensureResolvable r).bind fun _ => .ok _
      · rintro ⟨⟩
  | checkCast target reference | instanceOf target reference =>
    refine (checks_expectSymbolic reference).bind fun r => ?_
    refine (c.checks_ensureKnown target).bind fun _ => ?_
    exact (c.checks_ensureResolvable r).bind fun _ => .ok _
  | receiver reference =>
    refine (checks_expectSymbolic reference).bind fun r => ?_
    exact (c.checks_ensureResolvable r).bind fun _ => .ok _

theorem checks_subjectResolutions (c : Context) (a : Access) :
    Checks (c.subjectResolutions a) := by
  refine (c.checks_subject? a).bind fun subject => ?_
  split
  · rintro ⟨⟩
  · split <;> rintro ⟨⟩

theorem checks_isStorable (c : Context) (array : Nat) (value : Reference) :
    Checks (c.isStorable array value) := by
  refine (c.checks_componentAt array).bind fun component => ?_
  cases value with
  | null => exact .ok _
  | object position => exact (c.checks_classAt position).bind fun _ => .ok _
  | symbolic r => rintro ⟨⟩

theorem checks_outcomes (c : Context) (a : Access) : Checks (c.outcomes a) := by
  refine (c.checks_subjectResolutions a).bind fun ways => ?_
  cases a with
  | arrayLoad array length index element isFresh => cases element <;> exact .ok _
  | arrayStore array length index value =>
    exact (c.checks_isStorable array value).bind fun _ => .ok _
  | fieldLoad field loaded => exact .ok _
  | receiver reference => exact .ok _
  | checkCast target reference =>
    refine (Checks.mapM (fun s => ?_) ways).bind fun _ => .ok _
    exact (c.checks_isInstance target s.referent).bind fun _ => .ok _
  | instanceOf target reference =>
    refine Checks.mapM (fun s => ?_) ways
    exact (c.checks_isInstance target s.referent).bind fun _ => .ok _

theorem checks_candidates (c : Context) (a : Access) : Checks (c.candidates a) :=
  fun failed => c.checks_outcomes a (candidates_eq_error_iff.mp failed)

/-- There are no alternatives where all candidates are refuted, and nowhere else. -/
theorem alternatives_eq_noAlternatives_iff {c : Context} {a : Access} :
    c.alternatives a = .error .noAlternatives ↔ c.policy.faultAlternatives = true ∧
      ∃ candidates, c.candidates a = .ok candidates ∧ c.kept candidates = [] := by
  rw [Context.alternatives]
  cases found : c.candidates a with
  | error e =>
    have breach : e ≠ .noAlternatives := fun same => c.checks_candidates a (by rw [found, same])
    simp [bind, Except.bind, breach]
  | ok candidates =>
    cases c.policy.faultAlternatives <;> cases c.kept candidates <;>
      simp [bind, Except.bind, pure, Except.pure]

theorem alternatives_eq_noAlternatives_iff_retained {c : Context} {a : Access} :
    c.alternatives a = .error .noAlternatives ↔ c.policy.faultAlternatives = true ∧
      ∃ outcomes, c.outcomes a = .ok outcomes ∧ c.retained outcomes = [] := by
  rw [alternatives_eq_noAlternatives_iff]
  refine and_congr_right fun _ => ?_
  simp only [candidates_eq_ok_iff]
  constructor
  · rintro ⟨_, ⟨outcomes, found, rfl⟩, none⟩
    exact ⟨outcomes, found, by rw [← kept_eq_retained, none]⟩
  · rintro ⟨outcomes, found, none⟩
    exact ⟨_, ⟨outcomes, found, rfl⟩, by rw [kept_eq_retained, none]⟩

theorem alternatives_eq_error_iff {c : Context} {a : Access} {e : AccessError}
    (other : e ≠ .noAlternatives) :
    c.alternatives a = .error e ↔ c.outcomes a = .error e := by
  rw [alternatives, ← candidates_eq_error_iff]
  cases c.candidates a with
  | error breach => simp [bind, Except.bind]
  | ok candidates =>
    simp only [bind, Except.bind, pure, Except.pure, reduceCtorEq, iff_false]
    split
    · exact fun same => other (Except.error.inj same).symm
    · exact nofun

end Context
end DecisionPoints
