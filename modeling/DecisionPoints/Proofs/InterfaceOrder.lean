import DecisionPoints.Proofs.MethodLookup
import Mathlib.Data.List.Forall2
import Mathlib.Data.List.Nodup

/-!
Dispatch does not depend on the order in which classes list their interfaces. The way to the root is
the same; the interfaces above a class are met in another order, but they are the same ones, each
once. A reference may then be resolved to another default. No discipline looks at more of it than
that it is an instance method that is not private, so the method that is selected is the same.
-/
namespace DecisionPoints

/-- The same class, but for the order in which it lists its interfaces. -/
structure ClassDecl.Reorders (d e : ClassDecl) : Prop where
  interfaces : d.interfaces.Perm e.interfaces
  others : { d with interfaces := e.interfaces } = e

instance (d e : ClassDecl) : Decidable (d.Reorders e) :=
  decidable_of_iff (d.interfaces.Perm e.interfaces ∧ { d with interfaces := e.interfaces } = e)
    ⟨fun h => ⟨h.1, h.2⟩, fun h => ⟨h.1, h.2⟩⟩

namespace ClassDecl.Reorders

variable {d e : ClassDecl} (reorders : d.Reorders e)
include reorders

theorem symm : e.Reorders d := by
  refine ⟨reorders.interfaces.symm, ?_⟩
  rw [← reorders.others]

theorem name : e.name = d.name := by
  rw [← reorders.others]

theorem superclass : e.superclass = d.superclass := by
  rw [← reorders.others]

theorem isInterface : e.isInterface = d.isInterface := by
  rw [← reorders.others]

theorem method? (name descriptor : String) :
    e.method? name descriptor = d.method? name descriptor := by
  rw [← reorders.others]
  rfl

end ClassDecl.Reorders

inductive DispatchFailure.Agrees : DispatchFailure → DispatchFailure → Prop where
  | same (failure : DispatchFailure) : Agrees failure failure
  | candidates (method : Signature) {owners others : List ClassName} (perm : owners.Perm others) :
    Agrees (.ambiguousDefault method owners) (.ambiguousDefault method others)

inductive Alike {ε α : Type} (failures : ε → ε → Prop) (results : α → α → Prop) :
    Except ε α → Except ε α → Prop where
  | ok {a b : α} (same : results a b) : Alike failures results (.ok a) (.ok b)
  | error {e f : ε} (same : failures e f) : Alike failures results (.error e) (.error f)

namespace DeclaredMethod

structure IsInheritable (r : Request) (m : DeclaredMethod) : Prop where
  name : m.method.name = r.method.name
  onInstances : m.flags.isStatic = false
  visible : m.flags.isPrivate = false

/-- Whether no discipline selects differently after one of the methods than after the other. -/
def Interchangeable (r : Request) (m n : DeclaredMethod) : Prop :=
  m = n ∨ m.IsInheritable r ∧ n.IsInheritable r

end DeclaredMethod

namespace ClassTable

def Reorders (t u : ClassTable) : Prop := List.Forall₂ ClassDecl.Reorders t.classes u.classes

theorem Reorders.symm {t u : ClassTable} (reorders : t.Reorders u) : u.Reorders t :=
  List.Forall₂.flip (reorders.imp fun _ _ => ClassDecl.Reorders.symm)

section Walks

variable {classes others : List ClassDecl} {name : ClassName} {d : ClassDecl}

theorem find?_reorders (reorders : List.Forall₂ ClassDecl.Reorders classes others)
    (name : ClassName) : Option.Rel ClassDecl.Reorders (classes.find? (·.name = name))
      (others.find? (·.name = name)) := by
  induction reorders with
  | nil => exact .none
  | cons first rest ih =>
    rw [List.find?_cons, List.find?_cons, first.name]
    split
    · exact .some first
    · exact ih

theorem find?_reorders_eq_some (reorders : List.Forall₂ ClassDecl.Reorders classes others)
    (found : classes.find? (·.name = name) = some d) :
    ∃ e, others.find? (·.name = name) = some e ∧ d.Reorders e := by
  have both := find?_reorders reorders name
  rw [found] at both
  cases again : others.find? (·.name = name) with
  | none => rw [again] at both; cases both
  | some e => rw [again] at both; cases both with | some same => exact ⟨e, rfl, same⟩

theorem find?_reorders_eq_none (reorders : List.Forall₂ ClassDecl.Reorders classes others)
    (absent : classes.find? (·.name = name) = none) : others.find? (·.name = name) = none := by
  have both := find?_reorders reorders name
  rw [absent] at both
  cases again : others.find? (·.name = name) with
  | none => rfl
  | some e => rw [again] at both; cases both

theorem declaredIn_reorders (reorders : List.Forall₂ ClassDecl.Reorders classes others)
    (name descriptor : String) :
    declaredIn others name descriptor = declaredIn classes name descriptor := by
  unfold declaredIn
  induction reorders with
  | nil => rfl
  | cons first rest ih =>
    rw [List.filterMap_cons, List.filterMap_cons, first.method?, first.name, ih]

theorem chainFrom_reorders (reorders : List.Forall₂ ClassDecl.Reorders classes others) :
    List.Forall₂ ClassDecl.Reorders (chainFrom classes name) (chainFrom others name) := by
  induction classes, name using chainFrom.induct generalizing others with
  | case1 unvisited name absent =>
    rw [chainFrom_of_absent absent, chainFrom_of_absent (find?_reorders_eq_none reorders absent)]
    exact .nil
  | case2 unvisited name d visited ih =>
    obtain ⟨e, again, same⟩ := find?_reorders_eq_some reorders visited
    have left : List.Forall₂ ClassDecl.Reorders (without unvisited name) (without others name) := by
      refine List.rel_filter ?_ reorders
      intro a b each
      simp [each.name]
    rw [chainFrom_of_visited visited, chainFrom_of_visited again, same.superclass]
    refine .cons same ?_
    cases d.superclass with
    | none => exact .nil
    | some superclass => simpa using ih superclass left

theorem reaches_reorders {links : ClassDecl → List ClassName}
    (kept : ∀ {a b : ClassDecl}, a.Reorders b → links a ⊆ links b)
    (reorders : List.Forall₂ ClassDecl.Reorders classes others)
    (reach : Reaches links classes name d) :
    ∃ e, d.Reorders e ∧ Reaches links others name e := by
  induction reach with
  | here found =>
    obtain ⟨e, again, same⟩ := find?_reorders_eq_some reorders found
    exact ⟨e, same, .here again⟩
  | next found linked rest ih =>
    obtain ⟨c, again, passed⟩ := find?_reorders_eq_some reorders found
    obtain ⟨e, same, onward⟩ := ih
    exact ⟨e, same, .next again (kept passed linked) onward⟩

theorem inheritable_of_mem_maximallySpecific {t : ClassTable} {r : Request} {m : DeclaredMethod}
    {root : ClassName}
    (member : m ∈ t.maximallySpecific root r.method.name r.method.descriptor) :
    m.IsInheritable r := by
  obtain ⟨d, _, _, declared⟩ := exists_declares_of_mem_maximallySpecific member
  obtain ⟨_, visible, onInstances⟩ :=
    mem_interfaceMethods_iff.mp (mem_interfaceMethods_of_mem_maximallySpecific member)
  exact ⟨(ClassDecl.name_of_method? declared).1, onInstances, visible⟩

theorem isSubtype_eq_false_of_bare {t : ClassTable} {sub sup : ClassName}
    (single : sub.component? = none) (differ : sub ≠ sup) (reference : sub.isReference = true)
    (references : sup.isReference = true) (below : sup ≠ .object)
    (apart : ∀ d ∈ t.superclasses sub, d.name ≠ sup)
    (bare : (t.superclasses sub).flatMap (·.interfaces) = []) : t.isSubtype sub sup = false := by
  rw [Bool.eq_false_iff, Ne, isSubtype_of_class differ reference references below single]
  intro ⟨d, inherits, named⟩
  rcases inherits with above | above
  · exact apart d above named
  · simp [superinterfaces_eq_nil bare] at above

theorem exists_chosen {methods : List DeclaredMethod} (listed : methods ≠ []) :
    ∃ m ∈ methods, (methods.find? fun m => !m.flags.isAbstract).or methods.head? = some m := by
  cases found : methods.find? fun m => !m.flags.isAbstract with
  | some m => exact ⟨m, List.mem_of_find?_eq_some found, rfl⟩
  | none =>
    obtain ⟨m, rest, rfl⟩ := List.exists_cons_of_ne_nil listed
    exact ⟨m, List.mem_cons_self, rfl⟩

end Walks

section Tables

variable {t u : ClassTable} (reorders : t.Reorders u) {r : Request}
variable {name sub sup : ClassName} {d : ClassDecl}
include reorders

theorem find?_isNone_reorders : (u.find? name).isNone = (t.find? name).isNone := by
  cases found : t.find? name with
  | none => rw [ClassTable.find?, find?_reorders_eq_none reorders found]
  | some d =>
    obtain ⟨e, again, _⟩ := find?_reorders_eq_some reorders found
    rw [ClassTable.find?, again]
    rfl

theorem superclass_reorders :
    (u.find? name).bind (·.superclass) = (t.find? name).bind (·.superclass) := by
  cases found : t.find? name with
  | none => rw [ClassTable.find?, find?_reorders_eq_none reorders found]
  | some d =>
    obtain ⟨e, again, same⟩ := find?_reorders_eq_some reorders found
    rw [ClassTable.find?, again]
    exact same.superclass

theorem declaredIn_superclasses_reorders (className : ClassName) (name descriptor : String) :
    declaredIn (u.superclasses className) name descriptor =
      declaredIn (t.superclasses className) name descriptor :=
  declaredIn_reorders (chainFrom_reorders reorders) name descriptor

theorem exists_superclass_reorders (above : d ∈ t.superclasses sub) :
    ∃ e ∈ u.superclasses sub, d.Reorders e := by
  rw [mem_superclasses_iff] at above
  have kept {a b : ClassDecl} (same : a.Reorders b) :
      a.superclass.toList ⊆ b.superclass.toList := by
    rw [same.superclass]
    exact List.Subset.refl _
  obtain ⟨e, same, reach⟩ := reaches_reorders kept reorders above
  exact ⟨e, mem_superclasses_iff.mpr reach, same⟩

theorem exists_superinterface_reorders (above : d ∈ t.superinterfaces sub) :
    ∃ e ∈ u.superinterfaces sub, d.Reorders e := by
  obtain ⟨c, inherited, start, declared, reach⟩ := mem_superinterfaces_iff.mp above
  obtain ⟨c', inherited', passed⟩ := exists_superclass_reorders reorders inherited
  obtain ⟨e, same, reach'⟩ :=
    reaches_reorders (fun each => each.interfaces.subset) reorders reach
  exact ⟨e, mem_superinterfaces_iff.mpr
    ⟨c', inherited', start, passed.interfaces.subset declared, reach'⟩, same⟩

theorem exists_inherits_reorders (inherits : t.Inherits sub d) :
    ∃ e, u.Inherits sub e ∧ d.Reorders e := by
  rcases inherits with above | above
  · obtain ⟨e, again, same⟩ := exists_superclass_reorders reorders above
    exact ⟨e, .inl again, same⟩
  · obtain ⟨e, again, same⟩ := exists_superinterface_reorders reorders above
    exact ⟨e, .inr again, same⟩

theorem isBelow_reorders (below : t.IsBelow sub sup) : u.IsBelow sub sup := by
  induction below with
  | refl name => exact .refl name
  | root reference => exact .root reference
  | components array arrays reference references below ih =>
    exact .components array arrays reference references ih
  | arrayInterface array supported => exact .arrayInterface array supported
  | inherited single reference references inherits =>
    obtain ⟨e, again, same⟩ := exists_inherits_reorders reorders inherits
    rw [← same.name] at references ⊢
    exact .inherited single reference references again

theorem isSubtype_reorders (sub sup : ClassName) : u.isSubtype sub sup = t.isSubtype sub sup := by
  rw [Bool.eq_iff_iff, isSubtype_iff_isBelow, isSubtype_iff_isBelow]
  exact ⟨isBelow_reorders reorders.symm, isBelow_reorders reorders⟩

theorem mem_declaredIn_superinterfaces_reorders {m : DeclaredMethod} {className : ClassName}
    {name descriptor : String}
    (member : m ∈ declaredIn (t.superinterfaces className) name descriptor) :
    m ∈ declaredIn (u.superinterfaces className) name descriptor := by
  rw [mem_declaredIn_iff] at member ⊢
  obtain ⟨d, above, owner, declared⟩ := member
  obtain ⟨e, again, same⟩ := exists_superinterface_reorders reorders above
  exact ⟨e, again, same.name.trans owner, (same.method? _ _).trans declared⟩

theorem interfaceMethods_perm (className : ClassName) (name descriptor : String) :
    (t.interfaceMethods className name descriptor).Perm
      (u.interfaceMethods className name descriptor) := by
  refine List.Perm.filter _ ((List.perm_ext_iff_of_nodup ?_ ?_).mpr fun m => ⟨?_, ?_⟩)
  · exact .of_map _ nodup_owners_declaredIn
  · exact .of_map _ nodup_owners_declaredIn
  · exact mem_declaredIn_superinterfaces_reorders reorders
  · exact mem_declaredIn_superinterfaces_reorders reorders.symm

theorem maximallySpecific_perm (className : ClassName) (name descriptor : String) :
    (t.maximallySpecific className name descriptor).Perm
      (u.maximallySpecific className name descriptor) := by
  have methods := interfaceMethods_perm reorders className name descriptor
  unfold maximallySpecific
  simp only [isSubtype_reorders reorders, ← methods.any_eq]
  exact methods.filter _

theorem inheritedFrom?_reorders (root : ClassName) (allowPrivate : Bool) :
    u.inheritedFrom? root r allowPrivate = t.inheritedFrom? root r allowPrivate := by
  rw [inheritedFrom?, inheritedFrom?, declaredIn_superclasses_reorders reorders]

theorem selectFrom_reorders (root : ClassName) (allowPrivate : Bool) :
    Alike DispatchFailure.Agrees Eq (t.selectFrom root r allowPrivate)
      (u.selectFrom root r allowPrivate) := by
  unfold selectFrom
  rw [inheritedFrom?_reorders reorders]
  cases t.inheritedFrom? root r allowPrivate with
  | some m =>
    dsimp only
    split
    · exact .error (.same _)
    · exact .ok rfl
  | none =>
    have defaults := (maximallySpecific_perm reorders root r.method.name
      r.method.descriptor).filter fun m => !m.flags.isAbstract
    dsimp only
    revert defaults
    generalize (t.maximallySpecific root r.method.name r.method.descriptor).filter _ = listed
    generalize (u.maximallySpecific root r.method.name r.method.descriptor).filter _ = others
    intro defaults
    match listed with
    | [] =>
      obtain rfl := defaults.nil_eq
      exact .error (.same _)
    | [m] =>
      obtain rfl := defaults.singleton_eq
      exact .ok rfl
    | m :: n :: rest =>
      have several := defaults.length_eq
      match others with
      | [] => simp at several
      | [other] => simp at several
      | m' :: n' :: rest' => exact .error (.candidates _ (defaults.map _))

theorem resolveReference_reorders :
    Alike Eq (DeclaredMethod.Interchangeable r) (t.resolveReference r) (u.resolveReference r) := by
  unfold resolveReference
  rw [← Request.resolutionRoot]
  dsimp only
  cases found : t.find? r.resolutionRoot with
  | none =>
    rw [ClassTable.find?, find?_reorders_eq_none reorders found]
    exact .error rfl
  | some d =>
    obtain ⟨e, again, same⟩ := find?_reorders_eq_some reorders found
    rw [ClassTable.find?, again]
    dsimp only
    rw [same.isInterface, declaredIn_superclasses_reorders reorders]
    split
    · exact .error rfl
    · cases declaredIn (t.superclasses r.resolutionRoot) r.method.name r.method.descriptor with
      | cons m rest => exact .ok (.inl rfl)
      | nil =>
        have methods := maximallySpecific_perm reorders r.resolutionRoot r.method.name
          r.method.descriptor
        dsimp only
        by_cases listed :
            t.maximallySpecific r.resolutionRoot r.method.name r.method.descriptor = []
        · rw [listed] at methods ⊢
          rw [← methods.nil_eq]
          exact .error rfl
        · obtain ⟨m, member, chosen⟩ := exists_chosen listed
          have others :
              u.maximallySpecific r.resolutionRoot r.method.name r.method.descriptor ≠ [] :=
            fun none => listed (List.perm_nil.mp (none ▸ methods))
          obtain ⟨n, among, instead⟩ := exists_chosen others
          rw [chosen, instead]
          exact .ok (.inr ⟨inheritable_of_mem_maximallySpecific member,
            inheritable_of_mem_maximallySpecific among⟩)

theorem plan_reorders (d : Discipline) (m : DeclaredMethod) : u.plan d r m = t.plan d r m := by
  cases d with
  | static => rfl
  | special =>
    simp only [plan, planSpecial, isSuperCall, isSubtype_reorders reorders,
      superclass_reorders reorders]
    rfl
  | «virtual» | interface =>
    simp only [plan, planVirtual, isSubtype_reorders reorders, find?_isNone_reorders reorders]

theorem carryOut_reorders (p : SelectionPlan) :
    Alike DispatchFailure.Agrees Eq (t.carryOut r p) (u.carryOut r p) := by
  cases p with
  | take method => exact .ok rfl
  | search root allowPrivate => exact selectFrom_reorders reorders root allowPrivate
  | unimplemented receiver => exact .error (.same _)
  | fail failure => exact .error (.same _)

end Tables

theorem plan_of_interchangeable {t : ClassTable} {r : Request} {m n : DeclaredMethod}
    (interchangeable : m.Interchangeable r n) (d : Discipline) : t.plan d r m = t.plan d r n := by
  rcases interchangeable with rfl | ⟨first, second⟩
  · rfl
  · cases d with
    | static => simp only [plan, planStatic, first.onInstances, second.onInstances]; rfl
    | special =>
      simp only [plan, planSpecial, isSuperCall, first.onInstances, second.onInstances, first.name,
        second.name]
    | «virtual» | interface =>
      simp only [plan, planVirtual, first.onInstances, second.onInstances, first.visible,
        second.visible]
      rfl

/-- Dispatch on two tables that differ only in the orders in which classes list their interfaces:
the same error of the caller, the same method, or the same failure, of which an ambiguity may list
its candidates in another order. -/
theorem dispatch_ignores_interface_order {t u : ClassTable} (reorders : t.Reorders u)
    (d : Discipline) (r : Request) :
    Alike Eq (Alike DispatchFailure.Agrees Eq) (t.dispatch d r) (u.dispatch d r) := by
  have resolved := resolveReference_reorders reorders (r := r)
  unfold dispatch
  revert resolved
  generalize t.resolveReference r = first
  generalize u.resolveReference r = second
  intro resolved
  cases resolved with
  | error same =>
    subst same
    exact .ok (.error (.same _))
  | @ok m n interchangeable =>
    dsimp only
    rw [plan_reorders reorders, plan_of_interchangeable interchangeable]
    cases t.plan d r n with
    | error e => exact .error rfl
    | ok p => exact .ok (carryOut_reorders reorders p)

theorem dispatch_ignores_interface_order_ambiguous :
    let draw : Method := ⟨"draw", "()V", {}⟩
    let icon : ClassDecl := { ClassDecl.interface ⟨"Icon"⟩ with methods := [draw] }
    let card : ClassDecl := { ClassDecl.interface ⟨"Card"⟩ with methods := [draw] }
    let tile (interfaces : List ClassName) : ClassDecl :=
      { name := ⟨"Tile"⟩, superclass := some .object, interfaces }
    let table (interfaces : List ClassName) : ClassTable :=
      ((ClassTable.base.insert icon).insert card).insert (tile interfaces)
    let t := table [⟨"Icon"⟩, ⟨"Card"⟩]
    let u := table [⟨"Card"⟩, ⟨"Icon"⟩]
    let r : Request :=
      { method := ⟨⟨"Tile"⟩, "()V", "draw"⟩, isInterfaceMethod := false,
        receiverType := some ⟨"Tile"⟩ }
    t.Reorders u ∧ t.resolveReference r = .ok ⟨⟨"Icon"⟩, draw⟩ ∧
      t.dispatch .virtual r = .ok (.error (.ambiguousDefault r.method [⟨"Icon"⟩, ⟨"Card"⟩])) ∧
      Alike Eq (Alike DispatchFailure.Agrees Eq) (t.dispatch .virtual r)
        (u.dispatch .virtual r) := by
  intro draw icon card tile table t u r
  have reorders : t.Reorders u := by
    rw [ClassTable.Reorders, List.forall₂_iff_get]
    decide +kernel
  have listed : (t.superclasses ⟨"Tile"⟩).flatMap (·.interfaces) = [⟨"Icon"⟩, ⟨"Card"⟩] := by
    decide +kernel
  have met : t.superinterfaces ⟨"Tile"⟩ = [icon, card] := by
    have left : interfacesFrom (without t.classes ⟨"Icon"⟩) [⟨"Card"⟩] = [card] := by
      rw [interfacesFrom_of_visited (e := card) (by decide +kernel)]
      exact congrArg (card :: ·) interfacesFrom_nil
    rw [superinterfaces, listed, interfacesFrom_of_visited (e := icon) (by decide +kernel)]
    exact congrArg (icon :: ·) left
  have first : t.isSubtype ⟨"Icon"⟩ ⟨"Card"⟩ = false :=
    isSubtype_eq_false_of_bare rfl (by decide) rfl rfl (by decide) (by decide +kernel)
      (by decide +kernel)
  have second : t.isSubtype ⟨"Card"⟩ ⟨"Icon"⟩ = false :=
    isSubtype_eq_false_of_bare rfl (by decide) rfl rfl (by decide) (by decide +kernel)
      (by decide +kernel)
  have methods : t.interfaceMethods ⟨"Tile"⟩ "draw" "()V" =
      [⟨⟨"Icon"⟩, draw⟩, ⟨⟨"Card"⟩, draw⟩] := by
    rw [interfaceMethods, met]
    decide +kernel
  have defaults : t.maximallySpecific ⟨"Tile"⟩ "draw" "()V" =
      [⟨⟨"Icon"⟩, draw⟩, ⟨⟨"Card"⟩, draw⟩] := by
    simp [maximallySpecific, methods, first, second]
  have found : t.resolveReference r = .ok ⟨⟨"Icon"⟩, draw⟩ := by
    have owner : t.find? ⟨"Tile"⟩ = some (tile [⟨"Icon"⟩, ⟨"Card"⟩]) := by decide +kernel
    have undeclared : declaredIn (t.superclasses ⟨"Tile"⟩) "draw" "()V" = [] := by decide +kernel
    have root : r.resolutionRoot = ⟨"Tile"⟩ := by decide +kernel
    rw [resolveReference, ← Request.resolutionRoot, root]
    dsimp only
    rw [owner]
    simp [r, tile, undeclared, defaults, DeclaredMethod.flags, draw]
  have planned : t.plan .virtual r ⟨⟨"Icon"⟩, draw⟩ = .ok (.search ⟨"Tile"⟩ false) := by
    decide +kernel
  have inherited : t.inheritedFrom? ⟨"Tile"⟩ r false = none := by decide +kernel
  have ambiguous : t.dispatch .virtual r =
      .ok (.error (.ambiguousDefault r.method [⟨"Icon"⟩, ⟨"Card"⟩])) := by
    rw [dispatch, found]
    dsimp only
    rw [planned]
    change Except.ok (t.selectFrom ⟨"Tile"⟩ r false) = _
    rw [selectFrom, inherited, defaults]
    rfl
  exact ⟨reorders, found, ambiguous, dispatch_ignores_interface_order reorders .virtual r⟩

end ClassTable
end DecisionPoints
