import DecisionPoints.Proofs.CastsAndTests
import DecisionPoints.Proofs.SubtypeOrder

/-!
What passes a cast to a narrower type. The objects that a reference of the wider type may be, less
those that the cast lets through, are the ones that a reference of the narrower type may be: the
same, in the same order. Subtyping has to be transitive for this, which a heap and a table otherwise
take no notice of.
-/
namespace DecisionPoints

theorem mapM_eq_ok_map {ε α β : Type} {f : α → Except ε β} {g : α → β} {as : List α}
    (each : ∀ a ∈ as, f a = .ok (g a)) : as.mapM f = .ok (as.map g) := by
  induction as with
  | nil => rfl
  | cons a rest ih =>
    rw [List.mapM_cons, each a List.mem_cons_self,
      ih fun x member => each x (List.mem_cons_of_mem _ member)]
    rfl

def OutcomeKind.isMismatch : OutcomeKind → Bool
  | .typeMismatch _ => true
  | _ => false

theorem OutcomeKind.isMismatch_afterCast {kind : OutcomeKind} (test : kind.IsTypeTest) :
    kind.afterCast.isMismatch = !kind.passesCast := by
  obtain ⟨referent, holds, rfl⟩ := test
  rw [afterCast, passesCast]
  cases holds || decide (referent = .null) <;> rfl

namespace ClassTable

/-- Subtyping may pass through any names, loaded or not. -/
def Transitive (t : ClassTable) : Prop :=
  ∀ a b c, t.isSubtype a b = true → t.isSubtype b c = true → t.isSubtype a c = true

theorem concreteSubtypes_of_not_array {t : ClassTable} {name : ClassName}
    (single : name.isArray = false) : t.concreteSubtypes name =
      (t.classes.filter fun d => d.isInstantiable && t.isSubtype d.name name).map (·.name) := by
  rw [concreteSubtypes, single]
  rfl

theorem filter_concreteSubtypes {t : ClassTable} (transitive : t.Transitive)
    {target required : ClassName} (single : target.isArray = false)
    (wide : required.isArray = false) (below : t.isSubtype target required = true) :
    (t.concreteSubtypes required).filter (t.isSubtype · target) = t.concreteSubtypes target := by
  rw [concreteSubtypes_of_not_array single, concreteSubtypes_of_not_array wide, List.filter_map,
    List.filter_filter]
  congr 1
  refine List.filter_congr fun d _ => ?_
  have wider : t.isSubtype d.name target = true → t.isSubtype d.name required = true :=
    fun narrow => transitive _ _ _ narrow below
  cases narrow : t.isSubtype d.name target with
  | true => simp [narrow, wider narrow]
  | false => simp [narrow]

end ClassTable

namespace HeapSnapshot

variable {t : ClassTable} {s : HeapSnapshot}

def isInstance (t : ClassTable) (s : HeapSnapshot) (target : ClassName) : Referent → Bool
  | .alias position _ => (s.object? position).any fun object => t.isSubtype object.className target
  | .fresh className => t.isSubtype className target
  | .null => false

def passesCast (t : ClassTable) (s : HeapSnapshot) (target : ClassName) (referent : Referent) :
    Bool :=
  s.isInstance t target referent || referent = .null

theorem filter_aliasCandidates (transitive : t.Transitive) {target required : ClassName}
    (below : t.isSubtype target required = true) (origin : Origin) :
    (s.aliasCandidates t required origin).filter
        (fun a => s.isInstance t target (.alias a.position a.origin)) =
      s.aliasCandidates t target origin := by
  rw [s.aliasCandidates_eq t ⟨origin, required⟩, s.aliasCandidates_eq t ⟨origin, target⟩,
    List.filter_filterMap]
  refine List.filterMap_congr fun (object, position) member => ?_
  have found : s.object? position = some object := List.mem_zipIdx_iff_getElem?.mp member
  ext a
  rw [Option.filter_eq_some_iff, candidate?_eq_some_iff, candidate?_eq_some_iff]
  constructor
  · rintro ⟨⟨rfl, discovered, differs, _⟩, fits⟩
    rw [isInstance, found] at fits
    exact ⟨rfl, discovered, differs, fits⟩
  · rintro ⟨rfl, discovered, differs, fits⟩
    refine ⟨⟨rfl, discovered, differs, transitive _ _ _ fits below⟩, ?_⟩
    rw [isInstance, found]
    exact fits

end HeapSnapshot

namespace Context

def tested (t : ClassTable) (s : HeapSnapshot) (target : ClassName) (origin : Origin)
    (referent : Referent) : Outcome :=
  ⟨.instanceOf, .typeTest referent (s.isInstance t target referent),
    ⟨[.resolves origin referent]⟩, none⟩

variable {t : ClassTable} {s : HeapSnapshot} {c : Context}

theorem filter_castOrder {tests : List Outcome}
    (typed : ∀ o ∈ tests, o.kind.IsTypeTest) :
    (castOrder tests).filter (!·.kind.isMismatch) =
      (tests.filter (·.kind.passesCast)).map (·.afterCast) := by
  have mismatch (o : Outcome) (member : o ∈ tests) :
      o.afterCast.kind.isMismatch = !o.kind.passesCast :=
    OutcomeKind.isMismatch_afterCast (typed o member)
  have passing : ((tests.filter (·.kind.passesCast)).map (·.afterCast)).filter
      (!·.kind.isMismatch) = (tests.filter (·.kind.passesCast)).map (·.afterCast) := by
    refine List.filter_eq_self.mpr fun x member => ?_
    obtain ⟨o, among, rfl⟩ := List.mem_map.mp member
    obtain ⟨among, passes⟩ := List.mem_filter.mp among
    simp [mismatch o among, passes]
  have failing : ((tests.filter (!·.kind.passesCast)).map (·.afterCast)).filter
      (!·.kind.isMismatch) = [] := by
    refine List.filter_eq_nil_iff.mpr fun x member => ?_
    obtain ⟨o, among, rfl⟩ := List.mem_map.mp member
    obtain ⟨among, fails⟩ := List.mem_filter.mp among
    simp [mismatch o among, fails]
  rw [castOrder, List.filter_append, passing, failing, List.append_nil]

theorem retained_passing {tests : List Outcome}
    (typed : ∀ o ∈ tests, o.kind.IsTypeTest) :
    c.retained ((tests.filter (·.kind.passesCast)).map (·.afterCast)) =
      (c.retained (tests.filter (·.kind.passesCast))).map (·.afterCast) := by
  refine retained_map_afterCast fun o member => ?_
  obtain ⟨among, passes⟩ := List.mem_filter.mp member
  have kept : o.afterCast.kind.isViolation = o.kind.isViolation := by
    have passed := OutcomeKind.isViolation_afterCast (typed o among)
    obtain ⟨referent, holds, test⟩ := typed o among
    rw [passes] at passed
    exact passed.trans (by rw [test]; rfl)
  rw [retains, retains, kept]
  rfl

section Snapshot

variable (snapshot : c.heap = s.view t)
include snapshot

theorem filter_openReferents (transitive : t.Transitive) {target required : ClassName}
    (single : target.isArray = false) (wide : required.isArray = false)
    (below : t.isSubtype target required = true) (origin : Origin) (allowNull : Bool) :
    (c.openReferents ⟨origin, required⟩ allowNull).filter (s.passesCast t target) =
      c.openReferents ⟨origin, target⟩ allowNull := by
  have aliases := s.filter_aliasCandidates transitive below origin
  have fresh := ClassTable.filter_concreteSubtypes transitive single wide below
  rw [openReferents_eq snapshot, openReferents_eq snapshot, List.filter_append, List.filter_append,
    List.filter_map, List.filter_map, ← aliases, ← fresh]
  congr 1
  · simp [Function.comp_def, HeapSnapshot.passesCast, HeapSnapshot.isInstance]
  · split <;> simp [HeapSnapshot.passesCast]

variable (classes : c.hierarchy = t.hierarchy)
include classes

theorem isInstance_eq_ok {r : SymbolicReference} {referent : Referent}
    (admits : s.Admits t r referent) (target : ClassName) :
    c.isInstance target referent = .ok (s.isInstance t target referent) := by
  match referent with
  | .alias position origin =>
    obtain ⟨_, className, found, _⟩ := admits
    have known : c.heap.classAt? position = some className := by
      rw [snapshot]
      simp [HeapSnapshot.view, found]
    simp [isInstance, classAt, known, HeapSnapshot.isInstance, found, classes, ClassTable.hierarchy,
      bind, Except.bind, pure, Except.pure]
  | .fresh className =>
    rw [isInstance, classes]
    rfl
  | .null => rfl

theorem outcomes_instanceOf_eq {target : ClassName} {r : SymbolicReference} {tests : List Outcome}
    (unresolved : c.path.referentOf? r.origin = none)
    (found : c.outcomes (.instanceOf target (.symbolic r)) = .ok tests) :
    tests = (c.openReferents r true).map (tested t s target r.origin) := by
  have subject := subject?_of_outcomes found rfl
  have open? : c.resolutions r true = (c.openReferents r true).map (.plain r.origin) := by
    rw [resolutions, unresolved]
  have total : ∀ way ∈ c.resolutions r true, c.outcomeOn (.instanceOf target (.symbolic r)) way =
      .ok (tested t s target r.origin way.referent) := by
    rw [open?]
    intro way member
    obtain ⟨referent, among, rfl⟩ := List.mem_map.mp member
    have admits := ((mem_openReferents snapshot).mp among).1
    rw [outcomeOn, Resolution.plain, isInstance_eq_ok snapshot classes admits]
    rfl
  rw [outcomes_instanceOf subject, mapM_eq_ok_map total, open?, List.map_map] at found
  exact (Except.ok.inj found).symm

theorem filter_outcomes_instanceOf (transitive : t.Transitive) {target required : ClassName}
    (single : target.isArray = false) (wide : required.isArray = false)
    (below : t.isSubtype target required = true) {origin : Origin}
    (unresolved : c.path.referentOf? origin = none) {all narrow : List Outcome}
    (foundAll : c.outcomes (.instanceOf target (.symbolic ⟨origin, required⟩)) = .ok all)
    (found : c.outcomes (.instanceOf target (.symbolic ⟨origin, target⟩)) = .ok narrow) :
    all.filter (·.kind.passesCast) = narrow := by
  rw [outcomes_instanceOf_eq snapshot classes unresolved foundAll,
    outcomes_instanceOf_eq snapshot classes unresolved found, List.filter_map,
    ← filter_openReferents snapshot transitive single wide below]
  rfl

/-- A cast to a narrower type narrows a reference exactly. Where the path has not resolved the
origin, and both enumerations succeed, what passes the cast of a reference of the wider type is what
the type test finds of a reference of the narrower type, in its order: the same referents under the
same guards, with the same re-checks. Of all of those but null the test holds. -/
theorem cast_narrows_exactly (transitive : t.Transitive)
    (single : ∀ d ∈ t.classes, d.name.isArray = false) {target required : ClassName}
    (loaded : target ∈ t.names) (loadedWide : required ∈ t.names)
    (below : t.isSubtype target required = true) {origin : Origin}
    (unresolved : c.path.referentOf? origin = none) {casts tests : List Alternative}
    (cast : c.alternatives (.checkCast target (.symbolic ⟨origin, required⟩)) = .ok casts)
    (tested : c.alternatives (.instanceOf target (.symbolic ⟨origin, target⟩)) = .ok tests) :
    (casts.filter (!·.kind.isMismatch)).map (·.finding) = tests.map (·.finding) ∧
      ∀ x ∈ tests, ∃ referent holds, x.kind = .typeTest referent holds ∧
        (referent ≠ .null → holds = true) := by
  have class? {name : ClassName} (listed : name ∈ t.names) : name.isArray = false := by
    obtain ⟨d, mem, rfl⟩ := List.mem_map.mp listed
    exact single d mem
  obtain ⟨_, ran, rfl, _⟩ := alternatives_eq_ok_iff_retained.mp cast
  obtain ⟨narrow, found, rfl, _⟩ := alternatives_eq_ok_iff_retained.mp tested
  rw [outcomes_checkCast] at ran
  cases foundAll : c.outcomes (.instanceOf target (.symbolic ⟨origin, required⟩)) with
  | error e =>
    rw [foundAll] at ran
    cases ran
  | ok all =>
    rw [foundAll] at ran
    cases ran
    have typed : ∀ o ∈ all, o.kind.IsTypeTest := fun o member => isTypeTest_of_mem foundAll member
    have narrowed := filter_outcomes_instanceOf snapshot classes transitive (class? loaded)
      (class? loadedWide) below unresolved foundAll found
    constructor
    · rw [findings_numbered (!·.isMismatch), ← c.retained_filter (!·.isMismatch),
        filter_castOrder typed, retained_passing typed, Alternative.findings_afterCast, narrowed]
      exact (map_eq_of_map_unnumbered (·.finding) (fun _ => rfl) (map_unnumbered_numbered _)).symm
    · intro x member
      obtain ⟨y, among, same⟩ := exists_toOutcome_eq (map_unnumbered_numbered _) member
      obtain ⟨o, inTests, _, rfl⟩ := mem_retained.mp among
      rw [← narrowed] at inTests
      obtain ⟨among, passes⟩ := List.mem_filter.mp inTests
      obtain ⟨referent, holds, test⟩ := typed o among
      rw [← same]
      refine ⟨referent, holds, test, fun object => ?_⟩
      simpa [test, OutcomeKind.passesCast, object] using passes

end Snapshot

theorem cast_narrows_exactly_node :
    let node : ClassName := ⟨"pkg/Node"⟩
    let leaf : ClassName := ⟨"pkg/Leaf"⟩
    let root : ClassDecl := { name := .object, superclass := none, isAbstract := true }
    let t := ((ClassTable.empty.insert root).insert
      { name := node, superclass := some .object, isAbstract := true }).insert (.concrete leaf node)
    let s : HeapSnapshot :=
      { objects := [⟨⟨"[I"⟩, some (.root "a")⟩, ⟨leaf, some (.root "b")⟩,
          ⟨leaf, some (.root "r")⟩] }
    let c : Context :=
      { policy := {}, heap := s.view t, hierarchy := t.hierarchy, procedure := .clausal
        path := ⟨[]⟩ }
    let cast : Access := .checkCast node (.symbolic ⟨.root "r", .object⟩)
    let test : Access := .instanceOf node (.symbolic ⟨.root "r", node⟩)
    t.Transitive ∧ (∀ d ∈ t.classes, d.name.isArray = false) ∧ node ∈ t.names ∧
      .object ∈ t.names ∧ t.isSubtype node .object = true ∧
      c.path.referentOf? (.root "r") = none ∧ ∃ casts tests,
        c.alternatives cast = .ok casts ∧ casts.map (·.kind) = [.resolved (.alias 1 (.root "b")),
          .resolved (.fresh leaf), .resolved .null, .typeMismatch (some (.alias 0 (.root "a")))] ∧
        c.alternatives test = .ok tests ∧ tests.map (·.kind) =
          [.typeTest (.alias 1 (.root "b")) true, .typeTest (.fresh leaf) true,
            .typeTest .null false] ∧
        (casts.filter (!·.kind.isMismatch)).map (·.finding) = tests.map (·.finding) := by
  intro node leaf root t s c cast test
  have rooted : t.WellRooted := by
    constructor <;> decide +kernel
  have transitive : t.Transitive := by
    intro x y z first second
    rw [ClassTable.isSubtype_iff_isBelow] at first second ⊢
    exact rooted.isBelow_trans first second
  have below : t.isSubtype node .object = true := by decide +kernel
  obtain ⟨casts, ran, castKinds⟩ := exists_alternatives_of_view (List.map (·.kind)) (c := c)
    (a := cast) (b := [.resolved (.alias 1 (.root "b")), .resolved (.fresh leaf), .resolved .null,
      .typeMismatch (some (.alias 0 (.root "a")))]) (by decide +kernel)
  obtain ⟨tests, tested, testKinds⟩ := exists_alternatives_of_view (List.map (·.kind)) (c := c)
    (a := test) (b := [.typeTest (.alias 1 (.root "b")) true, .typeTest (.fresh leaf) true,
      .typeTest .null false]) (by decide +kernel)
  have loaded : node ∈ t.names := by decide +kernel
  have loadedWide : .object ∈ t.names := by decide +kernel
  have narrowed := cast_narrows_exactly rfl rfl transitive rooted.single loaded loadedWide below rfl
    ran tested
  exact ⟨transitive, rooted.single, loaded, loadedWide, below, rfl, casts, tests, ran, castKinds,
    tested, testKinds, narrowed.1⟩

end Context
end DecisionPoints
