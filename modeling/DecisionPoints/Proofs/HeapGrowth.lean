import DecisionPoints.Proofs.PerResolution
import DecisionPoints.Proofs.PolicyFilters
import DecisionPoints.Proofs.Resolutions

/-!
Enumeration as the heap grows. An object that the reference cannot be leaves no trace: the access
has the same alternatives under the same numbers. One that it can be has the next position, so it is
listed after the objects before it, and with at most one more alternative all others stay as they
were.
-/
namespace DecisionPoints

namespace HeapSnapshot

inductive Step where
  | allocate (className : ClassName)
  | discover (className : ClassName) (origin : Origin)
  | assumeNonNull (origin : Origin)
deriving DecidableEq, Repr

def apply (s : HeapSnapshot) : Step → HeapSnapshot
  | .allocate className => s.allocate className
  | .discover className origin => s.discover className origin
  | .assumeNonNull origin => s.assumeNonNull origin

def run (s : HeapSnapshot) (steps : List Step) : HeapSnapshot := steps.foldl apply s

/-- Whether the step says nothing about the reference: it finds no object that the reference can be,
or it is the reference itself that is resolved to the object. -/
def Step.Ignores (t : ClassTable) (r : SymbolicReference) : Step → Prop
  | .allocate _ => True
  | .discover className origin => origin = r.origin ∨ t.isSubtype className r.staticType = false
  | .assumeNonNull origin => origin ≠ r.origin

instance (t : ClassTable) (r : SymbolicReference) (step : Step) : Decidable (step.Ignores t r) :=
  match step with
  | .allocate _ => inferInstanceAs (Decidable True)
  | .discover .. => inferInstanceAs (Decidable (_ ∨ _))
  | .assumeNonNull _ => inferInstanceAs (Decidable (_ ≠ _))

variable {t : ClassTable} {r : SymbolicReference} {s : HeapSnapshot}

theorem aliasCandidates_push (object : HeapObject) :
    (s.push object).aliasCandidates t r.staticType r.origin =
      s.aliasCandidates t r.staticType r.origin ++ (candidate? t r object s.size).toList := by
  rw [aliasCandidates_eq, aliasCandidates_eq, push, List.zipIdx_append, List.filterMap_append]
  congr 1
  rw [size, Nat.zero_add]
  cases found : candidate? t r object s.objects.length <;> simp [found]

theorem growsTo_apply (step : Step) : s.GrowsTo (s.apply step) := by
  cases step with
  | allocate className => exact s.growsTo_push _
  | discover className origin => exact s.growsTo_push _
  | assumeNonNull origin => exact List.prefix_rfl

variable {step : Step} (ignored : step.Ignores t r)
include ignored

theorem aliasCandidates_apply : (s.apply step).aliasCandidates t r.staticType r.origin =
    s.aliasCandidates t r.staticType r.origin := by
  cases step with
  | allocate className =>
    rw [apply, allocate, aliasCandidates_push]
    exact List.append_nil _
  | discover className origin =>
    have none : candidate? t r ⟨className, some origin⟩ s.size = none := by
      rw [Option.eq_none_iff_forall_ne_some]
      intro a candidate
      obtain ⟨_, named, differs, fits⟩ := candidate?_eq_some_iff.mp candidate
      rcases ignored with same | unrelated
      · exact differs ((Option.some.inj named).symm.trans same)
      · simp [unrelated] at fits
    rw [apply, discover, aliasCandidates_push, none]
    exact List.append_nil _
  | assumeNonNull origin => rfl

theorem mem_nonNull_apply : r.origin ∈ (s.apply step).nonNull ↔ r.origin ∈ s.nonNull := by
  cases step with
  | allocate className | discover className origin => rfl
  | assumeNonNull origin =>
    have differs : r.origin ≠ origin := Ne.symm ignored
    simp [apply, assumeNonNull, differs]

end HeapSnapshot

def Referent.isAlias : Referent → Bool
  | .alias .. => true
  | .fresh _ | .null => false

def OutcomeKind.isOnAlias (kind : OutcomeKind) : Bool := kind.referent?.any Referent.isAlias

namespace Context

def onHeap (c : Context) (t : ClassTable) (s : HeapSnapshot) : Context :=
  { c with heap := s.view t }

/-- The later alternatives are the earlier ones, numbered again, and at most one more. That one is
on the referent. Of those that fail if it does, or do not if it does not, the ones on aliases stand
before it and the others after it. -/
def Inserts (referent : Referent) (old new : List Alternative) : Prop :=
  ∃ before after, ∃ added : Option Alternative,
    old.map (·.unnumbered) = before ++ after ∧
    new.map (·.unnumbered) = before ++ added.toList ++ after ∧
    ∀ x ∈ added, x.kind.referent? = some referent ∧
      (∀ y ∈ before, y.kind.isViolation = x.kind.isViolation → y.kind.isOnAlias = true) ∧
      ∀ y ∈ after, y.kind.isViolation = x.kind.isViolation → y.kind.isOnAlias = false

theorem map_unnumbered_retained (c : Context) (outcomes : List Outcome) :
    (c.retained outcomes).map (·.unnumbered) = c.retained outcomes := by
  rw [retained, List.map_map]
  rfl

theorem arranged_insert (a : Access) (first second : List Outcome) (o : Outcome) :
    ∃ front back, arranged a (first ++ second) = front ++ back ∧
      arranged a (first ++ o :: second) = front ++ o :: back ∧
      (∀ x ∈ front, x.kind.isViolation = o.kind.isViolation → x ∈ first) ∧
      ∀ x ∈ back, x.kind.isViolation = o.kind.isViolation → x ∈ second ∨ x ∈ overrun a := by
  cases fails : o.kind.isViolation with
  | false =>
    refine ⟨first.filter (fun x => !x.kind.isViolation),
      second.filter (fun x => !x.kind.isViolation) ++
        (first ++ second).filter (fun x => x.kind.isViolation) ++ overrun a, ?_, ?_, ?_, ?_⟩
    · simp [arranged]
    · simp [arranged, fails]
    · grind
    · grind
  | true =>
    refine ⟨(first ++ second).filter (fun x => !x.kind.isViolation) ++
        first.filter (fun x => x.kind.isViolation),
      second.filter (fun x => x.kind.isViolation) ++ overrun a, ?_, ?_, ?_, ?_⟩
    · simp [arranged]
    · simp [arranged, fails]
    · grind
    · grind

theorem inserts_retained (c : Context) {a : Access} {referent : Referent} {o : Outcome}
    {first second : List Outcome} (onReferent : o.kind.referent? = some referent)
    (areAliases : ∀ x ∈ first, x.kind.isOnAlias = true)
    (areNot : ∀ x ∈ second, x.kind.isOnAlias = false) :
    Inserts referent (numbered (c.retained (arranged a (first ++ second))))
      (numbered (c.retained (arranged a (first ++ o :: second)))) := by
  obtain ⟨front, back, listed, inserted, before, after⟩ := arranged_insert a first second o
  have added : c.retained (o :: back) =
      (if c.retains o then some (c.keep o) else none).toList ++ c.retained back := by
    by_cases kept : c.retains o = true <;> simp [retained, kept]
  refine ⟨c.retained front, c.retained back, if c.retains o then some (c.keep o) else none,
    ?_, ?_, ?_⟩
  · rw [map_unnumbered_numbered, map_unnumbered_retained, listed, retained_append]
  · rw [map_unnumbered_numbered, map_unnumbered_retained, inserted, retained_append, added,
      List.append_assoc]
  · intro x member
    obtain ⟨_, rfl⟩ : c.retains o = true ∧ c.keep o = x := by simpa using member
    refine ⟨onReferent, ?_, ?_⟩
    · intro y among group
      obtain ⟨x, inFront, _, rfl⟩ := mem_retained.mp among
      exact areAliases x (before x inFront group)
    · intro y among group
      obtain ⟨x, inBack, _, rfl⟩ := mem_retained.mp among
      rcases after x inBack group with other | outside
      · exact areNot x other
      · change x.kind.isOnAlias = false
        rw [OutcomeKind.isOnAlias, (of_mem_overrun outside).2.1]
        rfl

variable {c : Context} {t : ClassTable} {s grown : HeapSnapshot} {a : Access}
variable {r : SymbolicReference} {old : List Alternative}

theorem keeps_onHeap (c : Context) (t : ClassTable) (grows : s.GrowsTo grown) :
    (c.onHeap t s).Keeps (c.onHeap t grown) :=
  keeps_of_growsTo rfl grows c.path

section Unresolved

variable (unresolved : c.path.referentOf? r.origin = none)
include unresolved

theorem resolutions_onHeap (allowNull : Bool) : (c.onHeap t s).resolutions r allowNull =
    ((s.aliasCandidates t r.staticType r.origin).map fun a =>
        Resolution.plain r.origin (.alias a.position a.origin)) ++
      ((t.concreteSubtypes r.staticType).map Referent.fresh ++
        if allowNull = true ∧ r.origin ∉ s.nonNull then [Referent.null] else []).map
          (.plain r.origin) := by
  have stillOpen : (c.onHeap t s).path.referentOf? r.origin = none := unresolved
  rw [resolutions, stillOpen]
  dsimp only
  rw [openReferents_eq rfl]
  simp [Function.comp_def]

theorem resolutions_apply {step : HeapSnapshot.Step} (ignored : step.Ignores t r)
    (allowNull : Bool) : (c.onHeap t (s.apply step)).resolutions r allowNull =
      (c.onHeap t s).resolutions r allowNull := by
  rw [resolutions_onHeap unresolved, resolutions_onHeap unresolved,
    HeapSnapshot.aliasCandidates_apply ignored]
  simp only [HeapSnapshot.mem_nonNull_apply ignored]

theorem resolutions_discover {className : ClassName} {origin : Origin}
    (differs : origin ≠ r.origin) (fits : t.isSubtype className r.staticType = true)
    (allowNull : Bool) : ∃ aliases others,
      (c.onHeap t s).resolutions r allowNull = aliases ++ others ∧
      (c.onHeap t (s.discover className origin)).resolutions r allowNull =
        aliases ++ Resolution.plain r.origin (.alias s.size origin) :: others ∧
      (∀ way ∈ aliases, way.referent.isAlias = true) ∧
      ∀ way ∈ others, way.referent.isAlias = false := by
  have candidate : HeapSnapshot.candidate? t r ⟨className, some origin⟩ s.size =
      some ⟨s.size, origin⟩ :=
    HeapSnapshot.candidate?_eq_some_iff.mpr ⟨rfl, rfl, differs, fits⟩
  refine ⟨_, _, resolutions_onHeap unresolved allowNull, ?_, ?_, ?_⟩
  · rw [resolutions_onHeap unresolved, HeapSnapshot.discover, HeapSnapshot.aliasCandidates_push,
      candidate, List.map_append, List.append_assoc]
    rfl
  · intro way member
    obtain ⟨a, _, rfl⟩ := List.mem_map.mp member
    rfl
  · intro way member
    obtain ⟨referent, among, rfl⟩ := List.mem_map.mp member
    rcases List.mem_append.mp among with fresh | null
    · obtain ⟨_, _, rfl⟩ := List.mem_map.mp fresh
      rfl
    · split at null
      · rw [List.mem_singleton.mp null]
        rfl
      · cases null

theorem outcomes_discover {className : ClassName} {origin : Origin} {outcomes : List Outcome}
    (symbolic : a.symbolic? = some r) (found : (c.onHeap t s).outcomes a = .ok outcomes)
    (differs : origin ≠ r.origin) (fits : t.isSubtype className r.staticType = true) :
    ∃ first second o, outcomes = arranged a (first ++ second) ∧
      (c.onHeap t (s.discover className origin)).outcomes a =
        .ok (arranged a (first ++ o :: second)) ∧
      o.kind.referent? = some (.alias s.size origin) ∧
      (∀ x ∈ first, x.kind.isOnAlias = true) ∧ ∀ x ∈ second, x.kind.isOnAlias = false := by
  have keeps := keeps_onHeap c t (s.growsTo_discover className origin)
  have subject := subject?_of_outcomes found symbolic
  obtain ⟨each, run, rfl⟩ := (outcomes_eq_ok_iff subject).mp found
  obtain ⟨aliases, others, ways, moreWays, areAliases, areNot⟩ :=
    resolutions_discover unresolved differs fits (a.allowsNull (c.onHeap t s).policy)
  rw [ways, mapM_append_eq_ok_iff] at run
  obtain ⟨first, second, onAliases, onOthers, rfl⟩ := run
  have known : (c.onHeap t (s.discover className origin)).classAt s.size = .ok className := by
    simp [classAt, onHeap, HeapSnapshot.view, HeapSnapshot.discover]
  obtain ⟨o, here⟩ := exists_outcomeOn (s := .plain r.origin (.alias s.size origin))
    (fun target => ⟨_, bind_eq_ok_iff.mpr ⟨className, known, rfl⟩⟩) a
  have outcomeOf {ways : List Resolution} {each : List Outcome} {isAlias : Bool}
      (run : ways.mapM ((c.onHeap t s).outcomeOn a) = .ok each)
      (alike : ∀ way ∈ ways, way.referent.isAlias = isAlias) :
      ∀ x ∈ each, x.kind.isOnAlias = isAlias := by
    intro x member
    obtain ⟨way, among, result⟩ := exists_of_mem_mapM run member
    rw [OutcomeKind.isOnAlias, (isOn_of_outcomeOn result).referent]
    exact alike way among
  refine ⟨first, second, o, rfl, ?_, (isOn_of_outcomeOn here).referent,
    outcomeOf onAliases areAliases, outcomeOf onOthers areNot⟩
  have extended : (aliases ++ Resolution.plain r.origin (.alias s.size origin) :: others).mapM
      ((c.onHeap t (s.discover className origin)).outcomeOn a) =
        .ok (first ++ o :: second) := by
    have onOthers' := Extends.mapM (extends_outcomeOn keeps a) _ _ onOthers
    refine mapM_append_eq_ok_iff.mpr ⟨first, o :: second, ?_, ?_, rfl⟩
    · exact Extends.mapM (extends_outcomeOn keeps a) _ _ onAliases
    · rw [List.mapM_cons, here, onOthers']
      rfl
  rw [← moreWays] at extended
  exact (outcomes_eq_ok_iff (extends_subject? keeps a _ subject)).mpr ⟨_, extended, rfl⟩

variable (symbolic : a.symbolic? = some r) (found : (c.onHeap t s).alternatives a = .ok old)
include symbolic found

theorem alternatives_apply {step : HeapSnapshot.Step} (ignored : step.Ignores t r) :
    (c.onHeap t (s.apply step)).alternatives a = .ok old := by
  obtain ⟨outcomes, all, listed⟩ := alternatives_eq_ok_iff_retained.mp found
  have keeps := keeps_onHeap c t (s.growsTo_apply step)
  have subject := subject?_of_outcomes all symbolic
  obtain ⟨each, run, arranged⟩ := (outcomes_eq_ok_iff subject).mp all
  have again : (c.onHeap t (s.apply step)).outcomes a = .ok outcomes := by
    refine (outcomes_eq_ok_iff (extends_subject? keeps a _ subject)).mpr ⟨each, ?_, arranged⟩
    rw [resolutions_apply unresolved ignored]
    exact Extends.mapM (extends_outcomeOn keeps a) _ each run
  exact alternatives_eq_ok_iff_retained.mpr ⟨outcomes, again, listed⟩

theorem alternatives_run {steps : List HeapSnapshot.Step}
    (ignored : ∀ step ∈ steps, step.Ignores t r) :
    (c.onHeap t (s.run steps)).alternatives a = .ok old := by
  induction steps generalizing s with
  | nil => exact found
  | cons step rest ih =>
    have first := alternatives_apply unresolved symbolic found (ignored step List.mem_cons_self)
    exact ih first fun later member => ignored later (List.mem_cons_of_mem _ member)

theorem alternatives_discover {className : ClassName} {origin : Origin}
    (differs : origin ≠ r.origin) (fits : t.isSubtype className r.staticType = true) :
    ∃ new, (c.onHeap t (s.discover className origin)).alternatives a = .ok new ∧
      Inserts (.alias s.size origin) old new := by
  obtain ⟨outcomes, all, rfl, nonempty⟩ := alternatives_eq_ok_iff_retained.mp found
  obtain ⟨first, second, o, rfl, again, onAlias, areAliases, areNot⟩ :=
    outcomes_discover unresolved symbolic all differs fits
  refine ⟨_, alternatives_eq_ok_iff_retained.mpr ⟨_, again, rfl, ?_⟩, ?_⟩
  · intro faults
    obtain ⟨x, member, retains⟩ := retained_ne_nil_iff.mp (nonempty faults)
    refine retained_ne_nil_iff.mpr ⟨x, ?_, retains⟩
    rw [mem_arranged, List.mem_append] at member ⊢
    exact member.imp_left (·.imp_right (List.mem_cons_of_mem _))
  · exact inserts_retained c onAlias areAliases areNot

end Unresolved

/-- The alternatives of an access to a reference that the path has not resolved, on a heap that
grows. Steps that say nothing about the reference leave them and their numbers as they are. The
discovery of an object that it can be keeps all of them, kind, guard, store, identity and re-check
flag, in their order, with at most one more among them, which is on the new object. -/
theorem alternatives_stable_as_heap_grows (symbolic : a.symbolic? = some r)
    (unresolved : c.path.referentOf? r.origin = none)
    (found : (c.onHeap t s).alternatives a = .ok old) :
    (∀ steps : List HeapSnapshot.Step, (∀ step ∈ steps, step.Ignores t r) →
      (c.onHeap t (s.run steps)).alternatives a = .ok old) ∧
    ∀ className origin, origin ≠ r.origin → t.isSubtype className r.staticType = true →
      ∃ new, (c.onHeap t (s.discover className origin)).alternatives a = .ok new ∧
        Inserts (.alias s.size origin) old new := by
  constructor
  · intro steps ignored
    exact alternatives_run unresolved symbolic found ignored
  · intro className origin differs fits
    exact alternatives_discover unresolved symbolic found differs fits

theorem alternatives_stable_as_heap_grows_cast :
    let t := ClassTable.base
    let arrays : ClassName := ⟨"[Ljava/lang/Object;"⟩
    let c : Context :=
      { policy := {}, heap := HeapSnapshot.view t {}, hierarchy := t.hierarchy,
        procedure := .clausal, path := ⟨[]⟩ }
    let s : HeapSnapshot := { objects := [⟨⟨"[[I"⟩, some (.root "a")⟩] }
    let cast : Access := .checkCast ⟨"[I"⟩ (.symbolic ⟨.root "r", arrays⟩)
    let steps : List HeapSnapshot.Step :=
      [.allocate arrays, .discover ⟨"[I"⟩ (.root "b"), .discover arrays (.root "r")]
    ∃ old new, (c.onHeap t s).alternatives cast = .ok old ∧
      old.map (·.kind) = [.resolved .null, .typeMismatch (some (.alias 0 (.root "a"))),
        .typeMismatch (some (.fresh arrays))] ∧
      (c.onHeap t (s.run steps)).alternatives cast = .ok old ∧
      (c.onHeap t ((s.run steps).discover ⟨"[[J"⟩ (.root "d"))).alternatives cast = .ok new ∧
      new.map (·.kind) = [.resolved .null, .typeMismatch (some (.alias 0 (.root "a"))),
        .typeMismatch (some (.alias 4 (.root "d"))), .typeMismatch (some (.fresh arrays))] ∧
      Inserts (.alias 4 (.root "d")) old new := by
  intro t arrays c s cast steps
  obtain ⟨old, found, oldKinds⟩ := exists_alternatives_of_view (List.map (·.kind))
    (c := c.onHeap t s) (a := cast) (b := [.resolved .null,
      .typeMismatch (some (.alias 0 (.root "a"))), .typeMismatch (some (.fresh arrays))])
    (by decide +kernel)
  obtain ⟨all, again, newKinds⟩ := exists_alternatives_of_view (List.map (·.kind))
    (c := c.onHeap t ((s.run steps).discover ⟨"[[J"⟩ (.root "d"))) (a := cast)
    (b := [.resolved .null, .typeMismatch (some (.alias 0 (.root "a"))),
      .typeMismatch (some (.alias 4 (.root "d"))), .typeMismatch (some (.fresh arrays))])
    (by decide +kernel)
  have unchanged : (c.onHeap t (s.run steps)).alternatives cast = .ok old :=
    (alternatives_stable_as_heap_grows rfl rfl found).1 steps (by decide +kernel)
  obtain ⟨new, discovered, inserts⟩ := (alternatives_stable_as_heap_grows rfl rfl unchanged).2
    ⟨"[[J"⟩ (.root "d") (by decide) (by decide +kernel)
  obtain rfl : new = all := Except.ok.inj (discovered.symm.trans again)
  exact ⟨old, new, found, oldKinds, unchanged, discovered, newKinds, inserts⟩

end Context
end DecisionPoints
