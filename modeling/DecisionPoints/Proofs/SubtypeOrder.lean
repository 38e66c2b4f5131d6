import DecisionPoints.Class.Subtyping
import DecisionPoints.Proofs.ClassWalks

/-!
Subtyping is a preorder. The check is first shown to decide a relation given by rules: what is
inherited, covariance of arrays, the interfaces of arrays and the root. The rules chain wherever the
root and the interfaces of arrays have nothing of their own above them and interfaces inherit by
interface links only. The table may be cyclic and may name classes that are not loaded.
-/
namespace DecisionPoints
namespace ClassName

variable {n c : ClassName}

theorem isArray_eq_isSome (n : ClassName) : n.isArray = n.component?.isSome := by
  unfold isArray component?
  split
  · next rest text => simp [text]
  · next other =>
    cases text : n.text.toList with
    | nil => rfl
    | cons first rest =>
      have differ : first ≠ '[' := fun same => other rest (same ▸ text)
      simp [differ]

theorem isReference_of_component? (array : n.component? = some c) : n.isReference = true := by
  have bracket : n.isArray = true := by
    rw [isArray_eq_isSome, array]
    rfl
  unfold isReference primitiveLetter?
  split <;> first
    | rfl
    | next text => simp [isArray, text] at bracket

end ClassName

namespace ClassTable

variable {t : ClassTable} {sub sup name : ClassName} {c required : ClassName} {d e : ClassDecl}

/-- The class is among those that a loaded class inherits from, itself included. -/
def Inherits (t : ClassTable) (sub : ClassName) (d : ClassDecl) : Prop :=
  d ∈ t.superclasses sub ∨ d ∈ t.superinterfaces sub

inductive IsBelow (t : ClassTable) : ClassName → ClassName → Prop where
  | refl (name : ClassName) : IsBelow t name name
  | root {sub : ClassName} (reference : sub.isReference = true) : IsBelow t sub .object
  | components {sub sup c required : ClassName} (array : sub.component? = some c)
    (arrays : sup.component? = some required) (reference : c.isReference = true)
    (references : required.isReference = true) (below : IsBelow t c required) : IsBelow t sub sup
  | arrayInterface {sub sup c : ClassName} (array : sub.component? = some c)
    (supported : sup = .cloneable ∨ sup = .serializable) : IsBelow t sub sup
  | inherited {sub : ClassName} {d : ClassDecl} (single : sub.component? = none)
    (reference : sub.isReference = true) (references : d.name.isReference = true)
    (inherits : t.Inherits sub d) : IsBelow t sub d.name

section check
variable (differ : sub ≠ sup) (reference : sub.isReference = true)
  (references : sup.isReference = true) (above : sup ≠ .object)
include differ reference references above

theorem isSubtype_of_array (array : sub.component? = some c) : t.isSubtype sub sup =
    match sup.component? with
    | some required => c.isReference && required.isReference && t.isSubtype c required
    | none => sup = .cloneable || sup = .serializable := by
  rw [isSubtype]
  simp only [differ, reference, references, above, if_false, Bool.and_self, Bool.not_true,
    Bool.false_eq_true]
  split
  · next component found =>
    obtain rfl : c = component := Option.some.inj (array.symm.trans found)
    rfl
  · next absent => simp [array] at absent

theorem isSubtype_of_class (single : sub.component? = none) :
    t.isSubtype sub sup = true ↔ ∃ d, t.Inherits sub d ∧ d.name = sup := by
  rw [isSubtype]
  simp only [differ, reference, references, above, if_false, Bool.and_self, Bool.not_true,
    Bool.false_eq_true]
  split
  · next component found => simp [single] at found
  · simp [Inherits, or_and_right, exists_or]

end check

theorem isSubtype_object (reference : sub.isReference = true) :
    t.isSubtype sub .object = true := by
  have references : ClassName.object.isReference = true := by decide
  rw [isSubtype]
  simp [reference, references]

theorem isBelow_of_isSubtype (h : t.isSubtype sub sup = true) : t.IsBelow sub sup := by
  induction size : sub.text.length using Nat.strongRecOn generalizing sub sup with
  | ind k ih =>
    by_cases same : sub = sup
    · subst same
      exact .refl sub
    · by_cases references : sub.isReference = true ∧ sup.isReference = true
      · obtain ⟨reference, references⟩ := references
        by_cases root : sup = .object
        · subst root
          exact .root reference
        · cases array : sub.component? with
          | none =>
            obtain ⟨d, inherits, named⟩ :=
              (isSubtype_of_class same reference references root array).mp h
            subst named
            exact .inherited array reference references inherits
          | some c =>
            rw [isSubtype_of_array same reference references root array] at h
            cases arrays : sup.component? with
            | none => exact .arrayInterface array (by simpa [arrays] using h)
            | some required =>
              simp only [arrays, Bool.and_eq_true] at h
              obtain ⟨⟨component, components⟩, below⟩ := h
              have shorter : c.text.length < k := size ▸ ClassName.component?_length_lt array
              exact .components array arrays component components (ih _ shorter below rfl)
      · rw [isSubtype] at h
        simp [same, references] at h

theorem isSubtype_of_isBelow (h : t.IsBelow sub sup) : t.isSubtype sub sup = true := by
  induction h with
  | refl name => simp [isSubtype]
  | root reference => exact isSubtype_object reference
  | @components sub sup c required array arrays reference references below ih =>
    by_cases same : sub = sup
    · simp [isSubtype, same]
    · have root : sup ≠ .object := by
        intro root
        subst root
        cases arrays
      rw [isSubtype_of_array same (ClassName.isReference_of_component? array)
        (ClassName.isReference_of_component? arrays) root array]
      simp [arrays, reference, references, ih]
  | @arrayInterface sub sup c array supported =>
    have single : sup.component? = none := by
      rcases supported with same | same <;> subst same <;> rfl
    have differ : sub ≠ sup := by
      intro same
      rw [same, single] at array
      cases array
    have references : sup.isReference = true := by
      rcases supported with same | same <;> subst same <;> decide
    have root : sup ≠ .object := by
      rcases supported with same | same <;> subst same <;> decide
    rw [isSubtype_of_array differ (ClassName.isReference_of_component? array) references root array]
    simpa [single] using supported
  | @inherited sub d single reference references inherits =>
    by_cases same : sub = d.name
    · simp [isSubtype, same]
    · by_cases root : d.name = .object
      · rw [root]
        exact isSubtype_object reference
      · exact (isSubtype_of_class same reference references root single).mpr ⟨d, inherits, rfl⟩

theorem isSubtype_iff_isBelow : t.isSubtype sub sup = true ↔ t.IsBelow sub sup :=
  ⟨isBelow_of_isSubtype, isSubtype_of_isBelow⟩

structure Rooted (t : ClassTable) : Prop where
  root : ∀ d ∈ t.classes, d.name = .object → d.superclass = none ∧ d.interfaces = []
  interfaces : ∀ d ∈ t.classes, (∃ c ∈ t.classes, d.name ∈ c.interfaces) →
    d.superclass = none ∨ d.superclass = some .object
  single : ∀ d ∈ t.classes, d.name.isArray = false

/-- The table leaves nothing above the root, and nothing but the root above the interfaces of
arrays; no class that is used as an interface has another superclass, and no class is an array. -/
structure WellRooted (t : ClassTable) : Prop where
  root : ∀ d ∈ t.classes, d.name = .object → d.superclass = none ∧ d.interfaces = []
  arrayInterfaces : ∀ d ∈ t.classes,
    d.name = .cloneable ∨ d.name = .serializable → d.interfaces = []
  interfaces : ∀ d ∈ t.classes, d.name = .cloneable ∨ d.name = .serializable ∨
      (∃ c ∈ t.classes, d.name ∈ c.interfaces) →
    d.superclass = none ∨ d.superclass = some .object
  single : ∀ d ∈ t.classes, d.name.isArray = false

theorem exists_listed {start : ClassName} (listed : ∃ c ∈ t.classes, start ∈ c.interfaces)
    (reach : Reaches (·.interfaces) t.classes start d) :
    ∃ c ∈ t.classes, d.name ∈ c.interfaces := by
  induction reach with
  | here found =>
    have named := (find?_eq_some_iff.mp found).2
    exact named ▸ listed
  | @next start link d e found linked rest ih =>
    exact ih ⟨e, (find?_eq_some_iff.mp found).1, linked⟩

theorem mem_of_inherits (inherits : t.Inherits sub d) : d ∈ t.classes := by
  rcases inherits with inherited | inherited
  · exact (mem_superclasses_iff.mp inherited).mem
  · obtain ⟨_, _, _, _, reach⟩ := mem_superinterfaces_iff.mp inherited
    exact reach.mem

theorem reaches_parents_of_mem_superclasses (above : d ∈ t.superclasses name) :
    Reaches parents t.classes name d :=
  (mem_superclasses_iff.mp above).mono fun _ => List.subset_append_left _ _

theorem reaches_parents_of_inherits (inherits : t.Inherits name d) :
    Reaches parents t.classes name d := by
  rcases inherits with above | above
  · exact reaches_parents_of_mem_superclasses above
  · obtain ⟨c, inherited, start, declared, reach⟩ := mem_superinterfaces_iff.mp above
    have onward : Reaches parents t.classes start d :=
      reach.mono fun _ => List.subset_append_right _ _
    have loaded := find?_eq_some_iff.mpr ⟨(mem_superclasses_iff.mp inherited).mem, rfl⟩
    exact (reaches_parents_of_mem_superclasses inherited).trans
      (.next loaded (List.mem_append_right _ declared) onward)

namespace Rooted

variable (rooted : t.Rooted)
include rooted

theorem component?_eq_none (loaded : d ∈ t.classes) : d.name.component? = none := by
  have bracket := rooted.single d loaded
  simpa [ClassName.isArray_eq_isSome] using bracket

theorem eq_root_of_mem_superclasses (member : d ∈ t.superclasses .object) : d.name = .object := by
  cases mem_superclasses_iff.mp member with
  | here found => exact (find?_eq_some_iff.mp found).2
  | @next _ link _ e found linked rest =>
    obtain ⟨mem, named⟩ := find?_eq_some_iff.mp found
    simp [(rooted.root e mem named).1] at linked

theorem eq_or_root_of_mem_superclasses
    (flat : ∀ e ∈ t.classes, e.name = name → e.superclass = none ∨ e.superclass = some .object)
    (member : d ∈ t.superclasses name) : d.name = name ∨ d.name = .object := by
  cases mem_superclasses_iff.mp member with
  | here found => exact .inl (find?_eq_some_iff.mp found).2
  | @next _ link _ e found linked rest =>
    obtain ⟨mem, named⟩ := find?_eq_some_iff.mp found
    rcases flat e mem named with none | root
    · simp [none] at linked
    · obtain rfl : link = ClassName.object := by simpa [root] using linked
      exact .inr (rooted.eq_root_of_mem_superclasses (mem_superclasses_iff.mpr rest))

theorem eq_root_of_inherits (inherits : t.Inherits .object d) : d.name = .object := by
  rcases inherits with inherited | inherited
  · exact rooted.eq_root_of_mem_superclasses inherited
  · obtain ⟨c, above, start, declared, _⟩ := mem_superinterfaces_iff.mp inherited
    have named := rooted.eq_root_of_mem_superclasses above
    simp [(rooted.root c (mem_superclasses_iff.mp above).mem named).2] at declared

theorem inherits_trans (first : t.Inherits sub d) (second : t.Inherits d.name e) :
    t.Inherits sub e ∨ e.name = .object := by
  rcases first with superclass | superinterface
  · have chain := mem_superclasses_iff.mp superclass
    rcases second with above | above
    · exact .inl (.inl (mem_superclasses_iff.mpr (chain.trans (mem_superclasses_iff.mp above))))
    · obtain ⟨c, inherited, start, declared, reach⟩ := mem_superinterfaces_iff.mp above
      have further := mem_superclasses_iff.mpr (chain.trans (mem_superclasses_iff.mp inherited))
      exact .inl (.inr (mem_superinterfaces_iff.mpr ⟨c, further, start, declared, reach⟩))
  · obtain ⟨c, inherited, start, declared, reach⟩ := mem_superinterfaces_iff.mp superinterface
    have listed := exists_listed ⟨c, (mem_superclasses_iff.mp inherited).mem, declared⟩ reach
    have flat : ∀ i ∈ t.classes, i.name = d.name →
        i.superclass = none ∨ i.superclass = some .object := by
      intro i mem named
      exact rooted.interfaces i mem (named ▸ listed)
    rcases second with above | above
    · rcases rooted.eq_or_root_of_mem_superclasses flat above with named | root
      · have same := eq_of_name_eq (mem_superclasses_iff.mp above).mem reach.mem named
        subst same
        exact .inl (.inr superinterface)
      · exact .inr root
    · obtain ⟨i, up, link, linked, rest⟩ := mem_superinterfaces_iff.mp above
      have mem := (mem_superclasses_iff.mp up).mem
      rcases rooted.eq_or_root_of_mem_superclasses flat up with named | root
      · have same := eq_of_name_eq mem reach.mem named
        subst same
        have further := reach.trans (.next (find?_eq_some_iff.mpr ⟨mem, rfl⟩) linked rest)
        exact .inl (.inr (mem_superinterfaces_iff.mpr ⟨c, inherited, start, declared, further⟩))
      · simp [(rooted.root i mem root).2] at linked

theorem eq_root_of_isBelow {a : ClassName} (above : t.IsBelow .object a) : a = .object := by
  cases above with
  | refl _ | root _ => rfl
  | components array _ _ _ _ | arrayInterface array _ => cases array
  | inherited _ _ _ inherits => exact rooted.eq_root_of_inherits inherits

theorem isBelow_trans_of_class {a b c : ClassName} (single : a.component? = none)
    (first : t.IsBelow a b) (second : t.IsBelow b c) : t.IsBelow a c := by
  cases first with
  | refl _ => exact second
  | root reference => exact rooted.eq_root_of_isBelow second ▸ .root reference
  | components array _ _ _ _ | arrayInterface array _ => simp [single] at array
  | @inherited _ d _ reference references inherits =>
    -- A loaded class is no array, so what is above it is inherited too.
    have bare := rooted.component?_eq_none (mem_of_inherits inherits)
    cases second with
    | refl _ => exact .inherited single reference references inherits
    | root _ => exact .root reference
    | components middle _ _ _ _ | arrayInterface middle _ => simp [bare] at middle
    | inherited _ _ further above =>
      rcases rooted.inherits_trans inherits above with inherited | root
      · exact .inherited single reference further inherited
      · exact root ▸ .root reference

theorem inherits_of_isBelow (hd : d ∈ t.classes) (he : e ∈ t.classes)
    (below : t.IsBelow d.name e.name) : d = e ∨ e.name = .object ∨ t.Inherits d.name e := by
  have single := rooted.component?_eq_none hd
  generalize sought : e.name = sup at below
  cases below with
  | refl _ => exact .inl (eq_of_name_eq hd he sought.symm)
  | root _ => exact .inr (.inl rfl)
  | components array _ _ _ _ | arrayInterface array _ => simp [single] at array
  | inherited _ _ _ inherits =>
    obtain rfl := eq_of_name_eq he (mem_of_inherits inherits) sought
    exact .inr (.inr inherits)

theorem isBelow_antisymm (acyclic : t.Acyclic) (hd : d ∈ t.classes) (he : e ∈ t.classes)
    (up : t.IsBelow d.name e.name) (down : t.IsBelow e.name d.name) : d = e := by
  rcases rooted.inherits_of_isBelow hd he up with same | root | above
  · exact same
  · exact eq_of_name_eq hd he ((rooted.eq_root_of_isBelow (root ▸ down)).trans root.symm)
  · rcases rooted.inherits_of_isBelow he hd down with same | root | below
    · exact same.symm
    · exact eq_of_name_eq hd he (root.trans (rooted.eq_root_of_isBelow (root ▸ up)).symm)
    · exact acyclic.eq_of_reaches hd (reaches_parents_of_inherits above)
        (reaches_parents_of_inherits below)

end Rooted

namespace WellRooted

variable (rooted : t.WellRooted)
include rooted

theorem toRooted : t.Rooted where
  root := rooted.root
  interfaces d mem listed := rooted.interfaces d mem (.inr (.inr listed))
  single := rooted.single

theorem eq_or_root_of_inherits (supported : name = .cloneable ∨ name = .serializable)
    (inherits : t.Inherits name d) : d.name = name ∨ d.name = .object := by
  have flat : ∀ e ∈ t.classes, e.name = name →
      e.superclass = none ∨ e.superclass = some .object := by
    intro e mem named
    subst named
    exact rooted.interfaces e mem (supported.imp_right .inl)
  rcases inherits with inherited | inherited
  · exact rooted.toRooted.eq_or_root_of_mem_superclasses flat inherited
  · obtain ⟨c, above, start, declared, _⟩ := mem_superinterfaces_iff.mp inherited
    have mem := (mem_superclasses_iff.mp above).mem
    rcases rooted.toRooted.eq_or_root_of_mem_superclasses flat above with named | named
    · subst named
      simp [rooted.arrayInterfaces c mem supported] at declared
    · simp [(rooted.root c mem named).2] at declared

theorem isBelow_trans {a b c : ClassName} (first : t.IsBelow a b) (second : t.IsBelow b c) :
    t.IsBelow a c := by
  induction first generalizing c with
  | refl name => exact second
  | root reference => exact rooted.toRooted.eq_root_of_isBelow second ▸ .root reference
  | components array arrays reference references below ih =>
    cases second with
    | refl _ => exact .components array arrays reference references below
    | root _ => exact .root (ClassName.isReference_of_component? array)
    | components middle upper _ component further =>
      obtain rfl := Option.some.inj (arrays.symm.trans middle)
      exact .components array upper reference component (ih further)
    | arrayInterface _ supported => exact .arrayInterface array supported
    | inherited single _ _ _ => simp [arrays] at single
  | @arrayInterface a b component array supported =>
    cases second with
    | refl _ => exact .arrayInterface array supported
    | root _ => exact .root (ClassName.isReference_of_component? array)
    | components middle _ _ _ _ | arrayInterface middle _ =>
      rcases supported with same | same <;> subst same <;> cases middle
    | inherited _ _ _ inherits =>
      rcases rooted.eq_or_root_of_inherits supported inherits with named | root
      · exact named ▸ .arrayInterface array supported
      · exact root ▸ .root (ClassName.isReference_of_component? array)
  | inherited single reference references inherits =>
    exact rooted.toRooted.isBelow_trans_of_class single
      (.inherited single reference references inherits) second

end WellRooted

/-- Subtyping is reflexive and transitive over all names: loaded or not, primitive, and arrays. -/
theorem isSubtype_preorder (rooted : t.WellRooted) : (∀ a, t.isSubtype a a = true) ∧
    ∀ a b c, t.isSubtype a b = true → t.isSubtype b c = true → t.isSubtype a c = true := by
  constructor
  · intro a
    exact isSubtype_iff_isBelow.mpr (.refl a)
  · intro a b c first second
    rw [isSubtype_iff_isBelow] at first second ⊢
    exact rooted.isBelow_trans first second

theorem isSubtype_preorder_cyclic :
    let base : ClassDecl := .concrete ⟨"pkg/Base"⟩ ⟨"pkg/Cube"⟩
    let cube : ClassDecl :=
      { name := ⟨"pkg/Cube"⟩, superclass := some ⟨"pkg/Base"⟩,
        interfaces := [⟨"pkg/Absent"⟩, ⟨"pkg/Solid"⟩] }
    let solid : ClassDecl :=
      { ClassDecl.interface ⟨"pkg/Solid"⟩ with interfaces := [⟨"pkg/Shape"⟩] }
    let t := (((ClassTable.base.insert base).insert cube).insert solid).insert
      (.interface ⟨"pkg/Shape"⟩)
    t.WellRooted ∧ t.isSubtype ⟨"[[Lpkg/Base;"⟩ ⟨"[[Lpkg/Solid;"⟩ = true ∧
      t.isSubtype ⟨"[[Lpkg/Solid;"⟩ ⟨"[[Lpkg/Shape;"⟩ = true ∧
      t.isSubtype ⟨"[[Lpkg/Base;"⟩ ⟨"[[Lpkg/Shape;"⟩ = true := by
  intro base cube solid t
  have rooted : t.WellRooted := by
    constructor <;> decide +kernel
  have extended : cube ∈ t.superclasses ⟨"pkg/Base"⟩ := by
    apply mem_superclasses_iff.mpr
    exact .next (e := base) (by decide +kernel) List.mem_cons_self (.here (by decide +kernel))
  have itself : solid ∈ t.superclasses ⟨"pkg/Solid"⟩ :=
    mem_superclasses_iff.mpr (.here (by decide +kernel))
  have below : t.IsBelow ⟨"pkg/Base"⟩ ⟨"pkg/Solid"⟩ := by
    refine .inherited (d := solid) rfl rfl rfl (.inr (mem_superinterfaces_iff.mpr ?_))
    exact ⟨cube, extended, ⟨"pkg/Solid"⟩, by decide, .here (by decide +kernel)⟩
  have above : t.IsBelow ⟨"pkg/Solid"⟩ ⟨"pkg/Shape"⟩ := by
    refine .inherited (d := .interface ⟨"pkg/Shape"⟩) rfl rfl rfl
      (.inr (mem_superinterfaces_iff.mpr ?_))
    exact ⟨solid, itself, ⟨"pkg/Shape"⟩, List.mem_cons_self, .here (by decide +kernel)⟩
  have first : t.isSubtype ⟨"[[Lpkg/Base;"⟩ ⟨"[[Lpkg/Solid;"⟩ = true :=
    isSubtype_of_isBelow (.components rfl rfl rfl rfl (.components rfl rfl rfl rfl below))
  have second : t.isSubtype ⟨"[[Lpkg/Solid;"⟩ ⟨"[[Lpkg/Shape;"⟩ = true :=
    isSubtype_of_isBelow (.components rfl rfl rfl rfl (.components rfl rfl rfl rfl above))
  exact ⟨rooted, first, second, (isSubtype_preorder rooted).2 _ _ _ first second⟩

end ClassTable
end DecisionPoints
