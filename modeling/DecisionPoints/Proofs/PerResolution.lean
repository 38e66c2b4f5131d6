import DecisionPoints.Heap.Snapshot
import DecisionPoints.Proofs.Outcomes

/-!
Outcomes, one resolution at a time. What an access does on one way of resolving its reference
depends on that way alone, so an outcome is found again wherever the way is: in a context that knows
at least the objects of the first one.
-/
namespace DecisionPoints

theorem pairwise_of_mapM {ε α β : Type} {f : α → Except ε β} {R : α → α → Prop} {S : β → β → Prop}
    (each : ∀ a b x y, R a b → f a = .ok x → f b = .ok y → S x y) {as : List α} {bs : List β}
    (pairwise : as.Pairwise R) (run : as.mapM f = .ok bs) : bs.Pairwise S := by
  induction pairwise generalizing bs with
  | nil =>
    cases run
    exact .nil
  | @cons a rest related _ ih =>
    rw [List.mapM_cons, bind_eq_ok_iff] at run
    obtain ⟨x, here, run⟩ := run
    obtain ⟨later, others, result⟩ := bind_eq_ok_iff.mp run
    cases result
    refine .cons (fun y member => ?_) (ih others)
    obtain ⟨b, among, found⟩ := exists_of_mem_mapM others member
    exact each a b x y (related b among) here found

theorem mapM_singleton {ε α β : Type} {f : α → Except ε β} {a : α} {b : β} (h : f a = .ok b) :
    [a].mapM f = .ok [b] := by
  rw [List.mapM_cons, h]
  rfl

theorem mapM_map_eq {m : Type → Type} [Monad m] [LawfulMonad m] {α β γ : Type} (f : α → m β)
    (g : β → γ) (as : List α) : as.mapM (fun a => g <$> f a) = List.map g <$> as.mapM f := by
  induction as with
  | nil => simp
  | cons a rest ih => simp [List.mapM_cons, ih]

theorem mapM_append_eq_ok_iff {ε α β : Type} {f : α → Except ε β} {as bs : List α} {cs : List β} :
    (as ++ bs).mapM f = .ok cs ↔
      ∃ xs ys, as.mapM f = .ok xs ∧ bs.mapM f = .ok ys ∧ cs = xs ++ ys := by
  rw [List.mapM_append, bind_eq_ok_iff]
  refine exists_congr fun xs => ?_
  rw [bind_eq_ok_iff]
  simp [pure, Except.pure, eq_comm]

namespace OutcomeKind

def on (referent : Referent) : OutcomeKind → OutcomeKind
  | .resolved _ => .resolved referent
  | .typeTest _ holds => .typeTest referent holds
  | .typeMismatch (some _) => .typeMismatch (some referent)
  | kind => kind

theorem on_self {kind : OutcomeKind} {referent : Referent} (h : kind.referent? = some referent) :
    kind.on referent = kind := by
  cases kind with
  | resolved r | typeTest r holds => cases h; rfl
  | typeMismatch r => cases h; rfl
  | inBounds => rfl
  | outOfBounds => rfl

@[simp] theorem isViolation_on (kind : OutcomeKind) (referent : Referent) :
    (kind.on referent).isViolation = kind.isViolation := by
  unfold on
  split <;> rfl

end OutcomeKind

namespace Access

def writeBack? : Access → Option WriteBack
  | .arrayLoad array _ index element true => element.symbolic?.map (⟨array, .element index, ·⟩)
  | _ => none

def inside : Access → List Clause
  | .arrayLoad _ length index _ _ => [.inBounds index length]
  | _ => []

theorem origin?_of_mem_inside {a : Access} {clause : Clause} (member : clause ∈ a.inside) :
    clause.origin? = none := by
  cases a with
  | arrayLoad array length index element isFresh =>
    rw [List.mem_singleton.mp member]
    rfl
  | _ => cases member

end Access

/-- What the access and the way determine of an outcome: all but whether a test or cast succeeds. -/
structure Outcome.IsOn (o : Outcome) (a : Access) (s : Resolution) : Prop where
  family : o.family = a.family
  guard : o.guard = ⟨a.inside ++ [s.clause]⟩
  writeBack : o.writeBack = a.writeBack?
  referent : o.kind.referent? = some s.referent

namespace Context

/-- The outcome of an access on one way of resolving its reference. -/
def outcomeOn (c : Context) (a : Access) (s : Resolution) : Except AccessError Outcome :=
  match a with
  | .arrayLoad array length index element isFresh =>
    let writeBack := if isFresh then element.symbolic?.map (⟨array, .element index, ·⟩) else none
    .ok ⟨a.family, .resolved s.referent, ⟨[.inBounds index length, s.clause]⟩, writeBack⟩
  | .checkCast target _ => do
    let passes := (← c.isInstance target s.referent) || s.referent = .null
    let kind := if passes then .resolved s.referent else .typeMismatch (some s.referent)
    return ⟨a.family, kind, ⟨[s.clause]⟩, none⟩
  | .instanceOf target _ =>
    return ⟨a.family, .typeTest s.referent (← c.isInstance target s.referent), ⟨[s.clause]⟩, none⟩
  | .fieldLoad .. | .arrayStore .. | .receiver _ =>
    .ok ⟨a.family, .resolved s.referent, ⟨[s.clause]⟩, none⟩

theorem exists_outcomeOn {c : Context} {s : Resolution}
    (tests : ∀ target, ∃ holds, c.isInstance target s.referent = .ok holds) (a : Access) :
    ∃ o, c.outcomeOn a s = .ok o := by
  cases a with
  | arrayLoad array length index element isFresh => exact ⟨_, rfl⟩
  | arrayStore array length index value => exact ⟨_, rfl⟩
  | fieldLoad field loaded | receiver reference => exact ⟨_, rfl⟩
  | checkCast target reference | instanceOf target reference =>
    obtain ⟨holds, tested⟩ := tests target
    exact ⟨_, bind_eq_ok_iff.mpr ⟨holds, tested, rfl⟩⟩

theorem subjectResolutions_eq {c : Context} {a : Access} {r : SymbolicReference}
    (h : c.subject? a = .ok (some r)) :
    c.subjectResolutions a = .ok (c.resolutions r (a.allowsNull c.policy)) := by
  rw [subjectResolutions, h]
  cases a <;> rfl

theorem subject?_of_outcomes {c : Context} {a : Access} {r : SymbolicReference}
    {outcomes : List Outcome} (found : c.outcomes a = .ok outcomes)
    (symbolic : a.symbolic? = some r) : c.subject? a = .ok (some r) := by
  obtain ⟨ways, resolved, _⟩ := bind_eq_ok_iff.mp found
  obtain ⟨subject, checked, _⟩ := bind_eq_ok_iff.mp resolved
  rw [checked, ← (subject?_eq_ok checked).1, symbolic]

def overrun (a : Access) : List Outcome :=
  match a.bounds? with
  | some (index, length) => [⟨a.family, .outOfBounds, ⟨[.outOfBounds index length]⟩, none⟩]
  | none => []

theorem kind_of_mem_overrun {a : Access} {o : Outcome} (outside : o ∈ overrun a) :
    o.kind = .outOfBounds := by
  unfold overrun at outside
  split at outside
  · rw [List.mem_singleton.mp outside]
  · cases outside

theorem pairwise_overrun (a : Access) (R : Outcome → Outcome → Prop) : (overrun a).Pairwise R := by
  unfold overrun
  split
  · exact List.pairwise_singleton ..
  · exact .nil

theorem of_mem_overrun {a : Access} {o : Outcome} (outside : o ∈ overrun a) :
    a.bounds?.isSome ∧ o.kind.referent? = none ∧ o.writeBack = none := by
  unfold overrun at outside
  split at outside
  · next bounded =>
    rw [List.mem_singleton.mp outside]
    simp [bounded, OutcomeKind.referent?]
  · simp at outside

/-- The outcomes of an access, from those on each way of resolving its reference: the ones that fail
stand after the others, and what happens outside the bounds comes last. -/
def arranged (a : Access) (each : List Outcome) : List Outcome :=
  each.filter (fun o => !o.kind.isViolation) ++ each.filter (fun o => o.kind.isViolation) ++
    overrun a

theorem arranged_of_none {a : Access} {each : List Outcome}
    (none : ∀ o ∈ each, o.kind.isViolation = false) : arranged a each = each ++ overrun a := by
  have passing : each.filter (fun o => !o.kind.isViolation) = each :=
    List.filter_eq_self.mpr fun o member => by simp [none o member]
  have failing : each.filter (fun o => o.kind.isViolation) = [] :=
    List.filter_eq_nil_iff.mpr fun o member => by simp [none o member]
  rw [arranged, passing, failing, List.append_nil]

theorem arranged_perm (a : Access) (each : List Outcome) :
    (arranged a each).Perm (each ++ overrun a) := by
  have parts := List.filter_append_perm (fun o : Outcome => o.kind.isViolation) each
  exact (List.perm_append_comm.trans parts).append_right _

theorem mem_arranged {a : Access} {each : List Outcome} {o : Outcome} :
    o ∈ arranged a each ↔ o ∈ each ∨ o ∈ overrun a :=
  (arranged_perm a each).mem_iff.trans List.mem_append

def castOn (c : Context) (target : ClassName) (s : Resolution) :
    Except AccessError (Resolution × Bool) := do
  return (s, (← c.isInstance target s.referent) || s.referent = .null)

def castOutcome (tested : Resolution × Bool) : Outcome :=
  ⟨.checkCast, if tested.2 then .resolved tested.1.referent
    else .typeMismatch (some tested.1.referent), ⟨[tested.1.clause]⟩, none⟩

theorem outcomeOn_checkCast (c : Context) (target : ClassName) (reference : Reference)
    (s : Resolution) :
    c.outcomeOn (.checkCast target reference) s = castOutcome <$> c.castOn target s := by
  rw [outcomeOn, castOn]
  cases c.isInstance target s.referent <;> rfl

theorem arranged_castOutcome (target : ClassName) (reference : Reference)
    (cast : List (Resolution × Bool)) :
    arranged (.checkCast target reference) (cast.map castOutcome) =
      (cast.filter (·.2)).map (fun (s, _) =>
        ⟨.checkCast, .resolved s.referent, ⟨[s.clause]⟩, none⟩) ++
      (cast.filter (fun tested => !tested.2)).map fun (s, _) =>
        ⟨.checkCast, .typeMismatch (some s.referent), ⟨[s.clause]⟩, none⟩ := by
  have violation (tested : Resolution × Bool) :
      (castOutcome tested).kind.isViolation = !tested.2 := by
    obtain ⟨s, _ | _⟩ := tested <;> rfl
  have none : overrun (.checkCast target reference) = [] := rfl
  rw [arranged, none, List.append_nil]
  simp only [List.filter_map, Function.comp_def, violation, Bool.not_not]
  congr 1
  · refine List.map_congr_left fun tested member => ?_
    rw [castOutcome, if_pos (List.mem_filter.mp member).2]
  · refine List.map_congr_left fun tested member => ?_
    have fails : tested.2 = false := by simpa using (List.mem_filter.mp member).2
    simp [castOutcome, fails]

theorem outcomes_eq {c : Context} {a : Access} {r : SymbolicReference}
    (subject : c.subject? a = .ok (some r)) : c.outcomes a =
      arranged a <$> (c.resolutions r (a.allowsNull c.policy)).mapM (c.outcomeOn a) := by
  have symbolic := (subject?_eq_ok subject).1
  rw [outcomes, subjectResolutions_eq subject]
  generalize c.resolutions r (a.allowsNull c.policy) = ways
  have plain (f : Resolution → Outcome) (total : ∀ s, c.outcomeOn a s = .ok (f s))
      (resolves : ∀ s, (f s).kind.isViolation = false) :
      arranged a <$> ways.mapM (c.outcomeOn a) = .ok (ways.map f ++ overrun a) := by
    have each : ways.mapM (c.outcomeOn a) = .ok (ways.map f) := by
      rw [funext total]
      exact List.mapM_pure
    rw [each]
    refine congrArg Except.ok (arranged_of_none fun o member => ?_)
    obtain ⟨s, _, rfl⟩ := List.mem_map.mp member
    exact resolves s
  cases a with
  | arrayLoad array length index element isFresh =>
    cases element with
    | null | object position => cases symbolic
    | symbolic r => exact (plain _ (fun _ => rfl) (fun _ => rfl)).symm
  | arrayStore array length index value => cases symbolic
  | fieldLoad field loaded | receiver reference =>
    rw [plain _ (fun _ => rfl) (fun _ => rfl)]
    simp [overrun, Access.bounds?]
  | checkCast target reference =>
    rw [funext (c.outcomeOn_checkCast target reference), mapM_map_eq]
    change (ways.mapM (c.castOn target) >>= _) = _
    cases ways.mapM (c.castOn target) with
    | error e => rfl
    | ok cast =>
      change _ = Except.ok (arranged (.checkCast target reference) (cast.map castOutcome))
      rw [arranged_castOutcome]
      dsimp only [bind, Except.bind]
      rw [List.partition_eq_filter_filter]
      rfl
  | instanceOf target reference =>
    change ways.mapM (c.outcomeOn (.instanceOf target reference)) = _
    cases run : ways.mapM (c.outcomeOn (.instanceOf target reference)) with
    | error e => rfl
    | ok each =>
      have none : ∀ o ∈ each, o.kind.isViolation = false := by
        intro o member
        obtain ⟨s, _, here⟩ := exists_of_mem_mapM run member
        obtain ⟨holds, _, same⟩ := bind_eq_ok_iff.mp here
        cases same
        rfl
      exact congrArg Except.ok ((arranged_of_none none).trans (List.append_nil _)).symm

theorem outcomes_eq_ok_iff {c : Context} {a : Access} {r : SymbolicReference}
    (subject : c.subject? a = .ok (some r)) {outcomes : List Outcome} :
    c.outcomes a = .ok outcomes ↔ ∃ each,
      (c.resolutions r (a.allowsNull c.policy)).mapM (c.outcomeOn a) = .ok each ∧
        outcomes = arranged a each := by
  rw [outcomes_eq subject]
  cases (c.resolutions r (a.allowsNull c.policy)).mapM (c.outcomeOn a) <;>
    simp [Functor.map, Except.map, eq_comm]

theorem exists_inside_of_no_subject {c : Context} {a : Access} {outcomes : List Outcome}
    (subject : c.subject? a = .ok none) (h : c.outcomes a = .ok outcomes) :
    ∃ inside, outcomes = inside :: overrun a ∧ a.bounds?.isSome ∧ inside.writeBack = none ∧
      (inside.kind = .inBounds ∨ inside.kind = .typeMismatch none) := by
  obtain ⟨symbolic, bounded⟩ := subject?_eq_ok subject
  obtain ⟨ways, _, h⟩ := bind_eq_ok_iff.mp h
  cases a with
  | arrayLoad array length index element isFresh =>
    cases element with
    | null | object position =>
      cases h
      exact ⟨_, rfl, rfl, rfl, .inl rfl⟩
    | symbolic r => cases symbolic
  | arrayStore array length index value =>
    obtain ⟨storable, _, h⟩ := bind_eq_ok_iff.mp h
    cases h
    refine ⟨_, rfl, rfl, rfl, ?_⟩
    cases storable
    · exact .inr rfl
    · exact .inl rfl
  | fieldLoad field loaded | receiver reference => cases bounded rfl
  | checkCast target reference | instanceOf target reference => cases bounded rfl

theorem exists_way_of_outcome {c : Context} {a : Access} {outcomes : List Outcome}
    (h : c.outcomes a = .ok outcomes) {o : Outcome} (member : o ∈ outcomes) :
    (a.bounds?.isSome ∧ o.kind.referent? = none ∧ o.writeBack = none) ∨
      ∃ r, c.subject? a = .ok (some r) ∧
        ∃ s ∈ c.resolutions r (a.allowsNull c.policy), c.outcomeOn a s = .ok o := by
  obtain ⟨ways, found, _⟩ := bind_eq_ok_iff.mp h
  obtain ⟨subject, checked, _⟩ := bind_eq_ok_iff.mp found
  cases subject with
  | none =>
    obtain ⟨inside, rfl, bounded, unstored, kind⟩ := exists_inside_of_no_subject checked h
    rcases List.mem_cons.mp member with rfl | outside
    · refine .inl ⟨bounded, ?_, unstored⟩
      rcases kind with kind | kind <;> rw [kind] <;> rfl
    · exact .inl (of_mem_overrun outside)
  | some r =>
    obtain ⟨each, run, rfl⟩ := (outcomes_eq_ok_iff checked).mp h
    rcases mem_arranged.mp member with inside | outside
    · obtain ⟨s, among, here⟩ := exists_of_mem_mapM run inside
      exact .inr ⟨r, checked, s, among, here⟩
    · exact .inl (of_mem_overrun outside)

theorem exists_outcomes_of_way {c : Context} {a : Access} {r : SymbolicReference}
    (subject : c.subject? a = .ok (some r)) {s : Resolution}
    (only : c.resolutions r (a.allowsNull c.policy) = [s]) {o : Outcome}
    (h : c.outcomeOn a s = .ok o) : ∃ outcomes, c.outcomes a = .ok outcomes ∧ o ∈ outcomes := by
  refine ⟨arranged a [o], (outcomes_eq_ok_iff subject).mpr ⟨[o], ?_, rfl⟩, ?_⟩
  · rw [only]
    exact mapM_singleton h
  · exact mem_arranged.mpr (.inl (List.mem_singleton_self o))

theorem isOn_of_outcomeOn {c : Context} {a : Access} {s : Resolution} {o : Outcome}
    (h : c.outcomeOn a s = .ok o) : o.IsOn a s := by
  cases a with
  | arrayLoad array length index element isFresh =>
    cases h
    refine ⟨rfl, rfl, ?_, rfl⟩
    cases isFresh <;> rfl
  | arrayStore array length index value => cases h; exact ⟨rfl, rfl, rfl, rfl⟩
  | fieldLoad field loaded | receiver reference => cases h; exact ⟨rfl, rfl, rfl, rfl⟩
  | checkCast target reference =>
    obtain ⟨holds, _, h⟩ := bind_eq_ok_iff.mp h
    cases h
    refine ⟨rfl, rfl, rfl, ?_⟩
    dsimp only
    split <;> rfl
  | instanceOf target reference =>
    obtain ⟨holds, _, h⟩ := bind_eq_ok_iff.mp h
    cases h
    exact ⟨rfl, rfl, rfl, rfl⟩

theorem exists_outcomes_of_total {c : Context} {a : Access} {r : SymbolicReference}
    (subject : c.subject? a = .ok (some r)) (total : ∀ s, ∃ o, c.outcomeOn a s = .ok o) :
    ∃ outcomes, c.outcomes a = .ok outcomes := by
  have related : ∀ s ∈ c.resolutions r (a.allowsNull c.policy),
      ∃ o, c.outcomeOn a s = .ok o ∧ o.IsOn a s := by
    intro s _
    obtain ⟨o, here⟩ := total s
    exact ⟨o, here, isOn_of_outcomeOn here⟩
  obtain ⟨each, run, _⟩ := exists_mapM_eq_ok related
  exact ⟨_, (outcomes_eq_ok_iff subject).mpr ⟨each, run, rfl⟩⟩

def Extends {α : Type} (x y : Except AccessError α) : Prop := ∀ v, x = .ok v → y = .ok v

theorem Extends.refl {α : Type} (x : Except AccessError α) : Extends x x := fun _ h => h

theorem Extends.bind {α β : Type} {x y : Except AccessError α}
    {f g : α → Except AccessError β} (first : Extends x y) (next : ∀ a, Extends (f a) (g a)) :
    Extends (x >>= f) (y >>= g) := by
  intro v h
  obtain ⟨a, found, h⟩ := bind_eq_ok_iff.mp h
  exact bind_eq_ok_iff.mpr ⟨a, first a found, next a v h⟩

theorem Extends.mapM {α β : Type} {f g : α → Except AccessError β}
    (each : ∀ a, Extends (f a) (g a)) (as : List α) : Extends (as.mapM f) (as.mapM g) := by
  induction as with
  | nil => exact .refl _
  | cons a rest ih =>
    rw [List.mapM_cons, List.mapM_cons]
    exact (each a).bind fun _ => ih.bind fun _ => .refl _

theorem outcomeOn_on {c later : Context} {a : Access} {s : Resolution} {o : Outcome}
    (h : c.outcomeOn a s = .ok o) {referent : Referent}
    (null : referent = .null ↔ s.referent = .null)
    (tests : ∀ target,
      Extends (c.isInstance target s.referent) (later.isInstance target referent)) :
    later.outcomeOn a ⟨referent, s.clause⟩ = .ok { o with kind := o.kind.on referent } := by
  cases a with
  | arrayLoad array length index element isFresh => cases h; rfl
  | arrayStore array length index value => cases h; rfl
  | fieldLoad field loaded | receiver reference => cases h; rfl
  | checkCast target reference =>
    obtain ⟨holds, tested, h⟩ := bind_eq_ok_iff.mp h
    cases h
    have same : decide (referent = .null) = decide (s.referent = .null) := decide_eq_decide.mpr null
    refine bind_eq_ok_iff.mpr ⟨holds, tests target holds tested, ?_⟩
    simp only [same]
    cases holds || decide (s.referent = .null) <;> rfl
  | instanceOf target reference =>
    obtain ⟨holds, tested, h⟩ := bind_eq_ok_iff.mp h
    cases h
    rw [outcomeOn, tests target holds tested]
    rfl

/-- Whether a context has the same classes and policy as another and knows all of its objects. -/
structure Keeps (c later : Context) : Prop where
  policy : later.policy = c.policy
  hierarchy : later.hierarchy = c.hierarchy
  classAt : ∀ position className, c.heap.classAt? position = some className →
    later.heap.classAt? position = some className

theorem keeps_of_growsTo {t : ClassTable} {s grown : HeapSnapshot} {c : Context}
    (snapshot : c.heap = s.view t) (grows : s.GrowsTo grown) (path : PathCondition) :
    c.Keeps { c with path, heap := grown.view t } where
  policy := rfl
  hierarchy := rfl
  classAt position known h := by
    rw [snapshot] at h
    obtain ⟨object, found, rfl⟩ := Option.map_eq_some_iff.mp h
    exact Option.map_eq_some_iff.mpr ⟨object, grows.object? found, rfl⟩

section Growth

variable {c later : Context} (keeps : c.Keeps later)
include keeps

theorem extends_classAt (position : Nat) :
    Extends (c.classAt position) (later.classAt position) := by
  intro className h
  unfold classAt at h ⊢
  split at h
  · next found =>
    cases h
    rw [keeps.classAt position className found]
  · cases h

theorem extends_componentAt (array : Nat) :
    Extends (c.componentAt array) (later.componentAt array) :=
  (extends_classAt keeps array).bind fun _ => .refl _

theorem ensureKnown_eq (className : ClassName) :
    later.ensureKnown className = c.ensureKnown className := by
  rw [ensureKnown, ensureKnown, keeps.hierarchy]

theorem ensureResolvable_eq (r : SymbolicReference) :
    later.ensureResolvable r = c.ensureResolvable r := by
  rw [ensureResolvable, ensureResolvable, ensureKnown_eq keeps]

theorem extends_subject? (a : Access) : Extends (c.subject? a) (later.subject? a) := by
  cases a with
  | arrayLoad array length index element isFresh =>
    refine (extends_componentAt keeps array).bind fun component => ?_
    simp only [keeps.hierarchy, ensureResolvable_eq keeps]
    exact .refl _
  | arrayStore array length index value =>
    exact (extends_componentAt keeps array).bind fun _ => .refl _
  | fieldLoad field loaded =>
    simp only [subject?, ensureResolvable_eq keeps]
    exact .refl _
  | checkCast target reference | instanceOf target reference =>
    simp only [subject?, ensureKnown_eq keeps, ensureResolvable_eq keeps]
    exact .refl _
  | receiver reference =>
    simp only [subject?, ensureResolvable_eq keeps]
    exact .refl _

theorem extends_isStorable (array : Nat) (value : Reference) :
    Extends (c.isStorable array value) (later.isStorable array value) := by
  refine (extends_componentAt keeps array).bind fun component => ?_
  cases value with
  | null => exact .refl _
  | object position =>
    refine (extends_classAt keeps position).bind fun className => ?_
    rw [keeps.hierarchy]
    exact .refl _
  | symbolic r => exact .refl _

theorem extends_isInstance (target : ClassName) (referent : Referent) :
    Extends (c.isInstance target referent) (later.isInstance target referent) := by
  match referent with
  | .alias position origin =>
    refine (extends_classAt keeps position).bind fun className => ?_
    rw [keeps.hierarchy]
    exact .refl _
  | .fresh className =>
    rw [isInstance, isInstance, keeps.hierarchy]
    exact .refl _
  | .null => exact .refl _

theorem extends_outcomeOn (a : Access) (s : Resolution) :
    Extends (c.outcomeOn a s) (later.outcomeOn a s) := by
  cases a with
  | arrayLoad array length index element isFresh => exact .refl _
  | arrayStore array length index value => exact .refl _
  | fieldLoad field loaded | receiver reference => exact .refl _
  | checkCast target reference | instanceOf target reference =>
    exact (extends_isInstance keeps target s.referent).bind fun _ => .refl _

theorem exists_subjectResolutions {a : Access} {ways : List Resolution}
    (h : c.subjectResolutions a = .ok ways) : ∃ ways, later.subjectResolutions a = .ok ways := by
  obtain ⟨subject, found, _⟩ := bind_eq_ok_iff.mp h
  have again := extends_subject? keeps a subject found
  cases subject with
  | none => exact ⟨[], bind_eq_ok_iff.mpr ⟨none, again, rfl⟩⟩
  | some r => exact ⟨_, subjectResolutions_eq again⟩

end Growth

end Context
end DecisionPoints
