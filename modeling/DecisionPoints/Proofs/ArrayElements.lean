import DecisionPoints.Condition.Decider
import DecisionPoints.Proofs.Alternatives
import DecisionPoints.Proofs.PerResolution
import DecisionPoints.Proofs.Resolutions
import DecisionPoints.Proofs.SubtypeOrder

/-!
Elements of arrays. A load resolves an element below its static type, a store takes an object below
the component type of the array. The check of a load keeps the component type below the static type,
so the static type may be the wider one. An object that is loaded can be stored back where its class
is below the component type, and always if the static type is.
-/
namespace DecisionPoints

/-- Whether the referent is the object at the position. A fresh one is any object of its class. -/
def Referent.IsAt (s : HeapSnapshot) (position : Nat) : Referent → Prop
  | .alias known _ => position = known
  | .fresh className => ∃ object, s.object? position = some object ∧ object.className = className
  | .null => False

namespace HeapSnapshot

/-- Whether storing the object into the array can fail for its index only. -/
def Storable (t : ClassTable) (s : HeapSnapshot) (array position : Nat) : Prop :=
  ∀ c : Context, c.heap = s.view t → c.hierarchy = t.hierarchy → ∀ length index,
    (∀ alternatives,
      c.alternatives (.arrayStore array length index (.object position)) = .ok alternatives →
        ∀ y ∈ alternatives, y.kind = .inBounds ∨ y.kind = .outOfBounds) ∧
    ∀ e, c.alternatives (.arrayStore array length index (.object position)) = .error e →
      e = .noAlternatives

end HeapSnapshot

theorem ClassTable.base_isSubtype_trans (a b d : ClassName) (first : base.isSubtype a b = true)
    (second : base.isSubtype b d = true) : base.isSubtype a d = true := by
  have rooted : base.WellRooted := by
    constructor <;> decide +kernel
  rw [isSubtype_iff_isBelow] at first second ⊢
  exact rooted.isBelow_trans first second

theorem ClassTable.isSubtype_of_mem_concreteSubtypes {t : ClassTable} {name required : ClassName}
    (member : name ∈ t.concreteSubtypes required) : t.isSubtype name required = true := by
  unfold concreteSubtypes at member
  split at member
  · obtain rfl := List.mem_singleton.mp member
    exact isSubtype_iff_isBelow.mpr (.refl name)
  · obtain ⟨d, among, rfl⟩ := List.mem_map.mp member
    exact (Bool.and_eq_true_iff.mp (List.mem_filter.mp among).2).2

namespace Context

variable {t : ClassTable} {s : HeapSnapshot} {c : Context}

theorem componentAt_congr {other : Context} (heap : other.heap = c.heap) (array : Nat) :
    other.componentAt array = c.componentAt array := by
  simp only [componentAt, classAt, heap]

section Stores

variable {array position : Nat} {component : ClassName} {object : HeapObject}
variable (snapshot : c.heap = s.view t) (hierarchy : c.hierarchy = t.hierarchy)
variable (elements : c.componentAt array = .ok component)
variable (found : s.object? position = some object)
include snapshot hierarchy elements found

theorem outcomes_arrayStore (length index : Expression) :
    c.outcomes (.arrayStore array length index (.object position)) =
      .ok [⟨.arrayStore,
          if t.isSubtype object.className component then .inBounds else .typeMismatch none,
          ⟨[.inBounds index length]⟩, none⟩,
        ⟨.arrayStore, .outOfBounds, ⟨[.outOfBounds index length]⟩, none⟩] := by
  have className : c.classAt position = .ok object.className := by
    simp [classAt, snapshot, HeapSnapshot.view, found]
  have below : c.hierarchy.isSubtype = t.isSubtype := by
    rw [hierarchy]
    rfl
  have storable : c.isStorable array (.object position) =
      .ok (t.isSubtype object.className component) := by
    rw [isStorable, elements]
    simp only [bind, Except.bind, pure, Except.pure, className, below]
  have resolutions : c.subjectResolutions (.arrayStore array length index (.object position)) =
      .ok [] := by
    rw [subjectResolutions, subject?, elements]
    rfl
  rw [outcomes, resolutions]
  simp only [bind, Except.bind, storable]
  rfl

theorem storable_iff :
    s.Storable t array position ↔ t.isSubtype object.className component = true := by
  constructor
  · intro storable
    by_contra above
    let unasked : Context := { c with policy := { feasibilityChecks := false } }
    have outcomes := outcomes_arrayStore (c := unasked) snapshot hierarchy elements found
      (.int 0) (.int 0)
    simp only [above, if_false] at outcomes
    have kept := alternatives_of_unasked rfl rfl outcomes nofun
    have first := (storable unasked snapshot hierarchy _ _).1 _ kept _ List.mem_cons_self
    simp [keep] at first
  · intro below other sameHeap sameHierarchy length index
    have outcomes := outcomes_arrayStore (c := other) sameHeap sameHierarchy
      ((componentAt_congr (sameHeap.trans snapshot.symm) array).trans elements) found length index
    simp only [below, if_true] at outcomes
    constructor
    · intro alternatives h y member
      obtain ⟨_, all, among, _⟩ := outcome_of_alternative h member
      rw [outcomes] at all
      cases all
      rcases List.mem_pair.mp among with inside | outside
      · exact .inl (congrArg Outcome.kind inside)
      · exact .inr (congrArg Outcome.kind outside)
    · intro e h
      by_contra differ
      rw [alternatives_eq_error_iff differ, outcomes] at h
      cases h

end Stores

theorem admits_of_alternative (snapshot : c.heap = s.view t) {a : Access}
    {alternatives : List Alternative} (found : c.alternatives a = .ok alternatives)
    {r : SymbolicReference} (symbolic : a.symbolic? = some r)
    (unresolved : c.path.referentOf? r.origin = none) {x : Alternative} (member : x ∈ alternatives)
    {referent : Referent} (kind : x.kind.referent? = some referent) : s.Admits t r referent := by
  obtain ⟨outcomes, all, among, _⟩ := outcome_of_alternative found member
  rcases exists_way_of_outcome all among with
    ⟨_, index, _⟩ | ⟨r', subject, way, possible, outcome⟩
  · rw [kind] at index
    cases index
  · obtain rfl : r = r' := Option.some.inj (symbolic.symm.trans (subject?_eq_ok subject).1)
    have resolved := (isOn_of_outcomeOn outcome).referent
    rw [kind] at resolved
    obtain rfl : referent = way.referent := Option.some.inj resolved
    rw [resolutions, unresolved] at possible
    obtain ⟨referent, «open», rfl⟩ := List.mem_map.mp possible
    exact ((mem_openReferents snapshot).mp «open»).1

theorem isSubtype_of_admits {r : SymbolicReference} {referent : Referent}
    (admits : s.Admits t r referent) {later : HeapSnapshot} (grows : s.GrowsTo later)
    {position : Nat} (stands : referent.IsAt later position) : ∃ object,
      later.object? position = some object ∧ t.isSubtype object.className r.staticType = true := by
  match referent with
  | .alias known origin =>
    obtain ⟨_, className, found, below⟩ := admits
    obtain rfl : position = known := stands
    exact ⟨_, grows.object? found, below⟩
  | .fresh className =>
    obtain ⟨object, found, rfl⟩ := stands
    exact ⟨object, found, ClassTable.isSubtype_of_mem_concreteSubtypes admits⟩
  | .null => exact stands.elim

section Loads

variable {array : Nat} {length index : Expression} {r : SymbolicReference} {isFresh : Bool}
variable {alternatives : List Alternative}
variable (h : c.alternatives (.arrayLoad array length index (.symbolic r) isFresh) =
  .ok alternatives)
include h

theorem component_of_arrayLoad : ∃ component, c.componentAt array = .ok component ∧
    c.hierarchy.isSubtype component r.staticType = true := by
  obtain ⟨candidates, found, _⟩ := alternatives_eq_ok_iff.mp h
  obtain ⟨outcomes, all, _⟩ := candidates_eq_ok_iff.mp found
  obtain ⟨ways, resolved, _⟩ := bind_eq_ok_iff.mp all
  obtain ⟨subject, checked, _⟩ := bind_eq_ok_iff.mp resolved
  obtain ⟨component, elements, checked⟩ := bind_eq_ok_iff.mp checked
  refine ⟨component, elements, ?_⟩
  by_contra wide
  simp [wide] at checked

/-- What an array load gives for an element that its path has not resolved can be stored back where
its class is below the component type of the array, and always if the static type of the element is.
All that the load itself makes sure of is that the component type is below the static type. -/
theorem loaded_object_storable_iff (snapshot : c.heap = s.view t)
    (hierarchy : c.hierarchy = t.hierarchy)
    (transitive : ∀ a b d, t.isSubtype a b = true → t.isSubtype b d = true →
      t.isSubtype a d = true)
    (unresolved : c.path.referentOf? r.origin = none) {x : Alternative} (member : x ∈ alternatives)
    {referent : Referent} (kind : x.kind = .resolved referent) {later : HeapSnapshot}
    (grows : s.GrowsTo later) {position : Nat} (stands : referent.IsAt later position) :
    ∃ component object, c.componentAt array = .ok component ∧
      later.object? position = some object ∧ t.isSubtype component r.staticType = true ∧
      t.isSubtype object.className r.staticType = true ∧
      (later.Storable t array position ↔ t.isSubtype object.className component = true) ∧
      (t.isSubtype r.staticType component = true → later.Storable t array position) := by
  obtain ⟨component, elements, wide⟩ := component_of_arrayLoad h
  rw [hierarchy] at wide
  have admits : s.Admits t r referent :=
    admits_of_alternative snapshot h rfl unresolved member (by rw [kind]; rfl)
  obtain ⟨object, found, below⟩ :=
    isSubtype_of_admits admits grows stands
  have keeps := keeps_of_growsTo snapshot grows c.path
  have storable : later.Storable t array position ↔ t.isSubtype object.className component = true :=
    storable_iff (c := { c with heap := later.view t }) rfl hierarchy
      (extends_componentAt keeps array component elements) found
  refine ⟨component, object, elements, found, wide, below, storable, fun narrow => ?_⟩
  exact storable.mpr (transitive _ _ _ below narrow)

end Loads

theorem loaded_object_storable_iff_root_class :
    let t := ClassTable.base
    let s : HeapSnapshot :=
      { objects := [⟨⟨"[Ljava/lang/Object;"⟩, none⟩, ⟨.object, some (.root "o")⟩] }
    let c : Context :=
      { policy := {}, heap := s.view t, hierarchy := t.hierarchy, procedure := .clausal
        path := {} }
    let load : Access := .arrayLoad 0 (.int 3) (.term "i") (.symbolic ⟨.root "e", .object⟩) true
    ∃ alternatives, c.alternatives load = .ok alternatives ∧
      (∃ x ∈ alternatives, x.kind = .resolved (.alias 1 (.root "o"))) ∧ s.Storable t 0 1 ∧
      (∃ x ∈ alternatives, x.kind = .resolved (.fresh .object)) ∧
      (s.discover .object (.root "e")).Storable t 0 2 := by
  intro t s c load
  obtain ⟨alternatives, found, x, hx, known⟩ := exists_alternative (c := c) (a := load)
    (p := fun x => x.kind = .resolved (.alias 1 (.root "o"))) (by decide +kernel)
  obtain ⟨alternatives', found', y, hy, fresh⟩ := exists_alternative (c := c) (a := load)
    (p := fun x => x.kind = .resolved (.fresh .object)) (by decide +kernel)
  obtain rfl : alternatives = alternatives' := Except.ok.inj (found.symm.trans found')
  have elements : c.componentAt 0 = .ok .object := by decide +kernel
  have knownStorable : s.Storable t 0 1 := by
    obtain ⟨component, _, here, _, _, _, _, law⟩ := loaded_object_storable_iff found rfl rfl
      ClassTable.base_isSubtype_trans rfl hx (of_decide_eq_true known) (List.prefix_refl _) rfl
    obtain rfl : .object = component := Except.ok.inj (elements.symm.trans here)
    exact law (ClassTable.isSubtype_object rfl)
  have freshStorable : (s.discover .object (.root "e")).Storable t 0 2 := by
    have stands : (Referent.fresh .object).IsAt (s.discover .object (.root "e")) 2 := ⟨_, rfl, rfl⟩
    obtain ⟨component, _, here, _, _, _, _, law⟩ := loaded_object_storable_iff found rfl rfl
      ClassTable.base_isSubtype_trans rfl hy (of_decide_eq_true fresh)
      (s.growsTo_discover .object (.root "e")) stands
    obtain rfl : .object = component := Except.ok.inj (elements.symm.trans here)
    exact law (ClassTable.isSubtype_object rfl)
  exact ⟨alternatives, found, ⟨x, hx, of_decide_eq_true known⟩, knownStorable,
    ⟨y, hy, of_decide_eq_true fresh⟩, freshStorable⟩

/-- An array of integers is loaded from an array of arrays of objects, since the static type of the
element is above both. Storing it back fails for its type. -/
theorem loaded_object_not_storable :
    let t := ClassTable.base
    let s : HeapSnapshot :=
      { objects := [⟨⟨"[[Ljava/lang/Object;"⟩, none⟩, ⟨⟨"[I"⟩, some (.root "o")⟩] }
    let c : Context :=
      { policy := {}, heap := s.view t, hierarchy := t.hierarchy, procedure := .clausal
        path := {} }
    let load : Access := .arrayLoad 0 (.int 3) (.term "i") (.symbolic ⟨.root "e", .object⟩) true
    let store : Access := .arrayStore 0 (.int 3) (.term "i") (.object 1)
    (∀ a b d, t.isSubtype a b = true → t.isSubtype b d = true → t.isSubtype a d = true) ∧
      c.path.referentOf? (.root "e") = none ∧
      (∃ alternatives, c.alternatives load = .ok alternatives ∧
        ∃ x ∈ alternatives, x.kind = .resolved (.alias 1 (.root "o"))) ∧
      (∃ alternatives, c.alternatives store = .ok alternatives ∧
        ∃ y ∈ alternatives, y.kind = .typeMismatch none) ∧
      ¬ s.Storable t 0 1 := by
  intro t s c load store
  obtain ⟨loaded, found, x, hx, known⟩ := exists_alternative (c := c) (a := load)
    (p := fun x => x.kind = .resolved (.alias 1 (.root "o"))) (by decide +kernel)
  obtain ⟨stored, failing, y, hy, mismatch⟩ := exists_alternative (c := c) (a := store)
    (p := fun y => y.kind = .typeMismatch none) (by decide +kernel)
  refine ⟨ClassTable.base_isSubtype_trans, rfl, ⟨loaded, found, x, hx, of_decide_eq_true known⟩,
    ⟨stored, failing, y, hy, of_decide_eq_true mismatch⟩, ?_⟩
  intro storable
  have kinds := (storable c rfl rfl _ _).1 stored failing y hy
  rw [of_decide_eq_true mismatch] at kinds
  rcases kinds with inside | outside
  · cases inside
  · cases outside

end Context
end DecisionPoints
