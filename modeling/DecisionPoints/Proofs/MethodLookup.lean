import DecisionPoints.Dispatch.Selection
import DecisionPoints.Proofs.SubtypeOrder

/-!
What method lookup finds. The method that a reference names is the first one declared on the way to
the root, or else one of the interfaces; the method selected from a class is declared by a class or
an interface from which that class inherits. Both are declared under the name and descriptor of the
request.
-/
namespace DecisionPoints

theorem ClassDecl.name_of_method? {d : ClassDecl} {name descriptor : String} {m : Method}
    (declared : d.method? name descriptor = some m) :
    m.name = name ∧ m.descriptor = descriptor := by
  have named := List.find?_some declared
  simpa using named

def ClassDecl.Declares (d : ClassDecl) (r : Request) (m : DeclaredMethod) : Prop :=
  d.name = m.owner ∧ d.method? r.method.name r.method.descriptor = some m.method

/-- The class from which the reference of the request is resolved. Arrays have the methods of the
root class. -/
def Request.resolutionRoot (r : Request) : ClassName :=
  if r.method.owner.isArray then .object else r.method.owner

namespace ClassTable

variable {t : ClassTable} {r : Request} {m : DeclaredMethod} {root : ClassName} {d : ClassDecl}

theorem owners_declaredIn_sublist (classes : List ClassDecl) (name descriptor : String) :
    ((declaredIn classes name descriptor).map (·.owner)).Sublist (classes.map (·.name)) := by
  induction classes with
  | nil => exact .slnil
  | cons d rest ih =>
    rw [declaredIn, List.filterMap_cons]
    cases d.method? name descriptor with
    | none => exact ih.cons _
    | some m => exact ih.cons_cons _

theorem nodup_owners_declaredIn {className : ClassName} {name descriptor : String} :
    ((declaredIn (t.superinterfaces className) name descriptor).map (·.owner)).Nodup :=
  nodup_interfacesFrom.sublist (owners_declaredIn_sublist _ _ _)

theorem mem_interfaceMethods_of_mem_maximallySpecific {className : ClassName}
    {name descriptor : String} (member : m ∈ t.maximallySpecific className name descriptor) :
    m ∈ t.interfaceMethods className name descriptor :=
  (List.mem_filter.mp member).1

theorem superinterfaces_eq_nil {className : ClassName}
    (none : (t.superclasses className).flatMap (·.interfaces) = []) :
    t.superinterfaces className = [] := by
  rw [superinterfaces, none, interfacesFrom_nil]

theorem maximallySpecific_eq_nil {className : ClassName} {name descriptor : String}
    (none : t.superinterfaces className = []) :
    t.maximallySpecific className name descriptor = [] := by
  simp [maximallySpecific, interfaceMethods, none, declaredIn]

theorem exists_declares_of_mem_maximallySpecific
    (member : m ∈ t.maximallySpecific root r.method.name r.method.descriptor) :
    ∃ d ∈ t.superinterfaces root, d.Declares r m :=
  mem_declaredIn_iff.mp
    (mem_interfaceMethods_iff.mp (mem_interfaceMethods_of_mem_maximallySpecific member)).1

theorem resolveReference_eq_ok (found : t.resolveReference r = .ok m) :
    (∃ rest, declaredIn (t.superclasses r.resolutionRoot) r.method.name r.method.descriptor =
      m :: rest) ∨
    declaredIn (t.superclasses r.resolutionRoot) r.method.name r.method.descriptor = [] ∧
      m ∈ t.maximallySpecific r.resolutionRoot r.method.name r.method.descriptor := by
  unfold resolveReference at found
  rw [← Request.resolutionRoot] at found
  dsimp only at found
  split at found
  · cases found
  · split at found
    · cases found
    · split at found
      · next first rest declared =>
        cases found
        exact .inl ⟨rest, declared⟩
      · next none =>
        refine .inr ⟨none, ?_⟩
        split at found
        · next method chosen =>
          cases found
          rcases Option.or_eq_some_iff.mp chosen with default | ⟨_, first⟩
          · exact List.mem_of_find?_eq_some default
          · exact List.mem_of_head? first
        · cases found

theorem exists_declares_of_resolveReference (found : t.resolveReference r = .ok m) :
    ∃ d, t.Inherits r.resolutionRoot d ∧ d.Declares r m := by
  rcases resolveReference_eq_ok found with ⟨rest, first⟩ | ⟨_, interface⟩
  · obtain ⟨d, above, declares⟩ := mem_declaredIn_iff.mp (first ▸ List.mem_cons_self)
    exact ⟨d, .inl above, declares⟩
  · obtain ⟨d, above, declares⟩ := exists_declares_of_mem_maximallySpecific interface
    exact ⟨d, .inr above, declares⟩

theorem declares_of_resolveReference (found : t.resolveReference r = .ok m)
    (loaded : d ∈ t.classes) (named : d.name = m.owner) : d.Declares r m := by
  obtain ⟨e, inherits, declares⟩ := exists_declares_of_resolveReference found
  obtain rfl : d = e :=
    eq_of_name_eq loaded (mem_of_inherits inherits) (named.trans declares.1.symm)
  exact declares

theorem declaredIn_of_resolveReference (found : t.resolveReference r = .ok m)
    (above : d ∈ t.superclasses r.resolutionRoot) (named : d.name = m.owner) :
    ∃ rest, declaredIn (t.superclasses r.resolutionRoot) r.method.name r.method.descriptor =
      m :: rest := by
  rcases resolveReference_eq_ok found with first | ⟨none, _⟩
  · exact first
  · have declares :=
      declares_of_resolveReference found (mem_superclasses_iff.mp above).mem named
    have among := mem_declaredIn_iff.mpr ⟨d, above, declares⟩
    simp [none] at among

theorem selectFrom_of_inheritedFrom? {allowPrivate : Bool}
    (inherited : t.inheritedFrom? root r allowPrivate = some m) :
    t.selectFrom root r allowPrivate =
      if m.flags.isAbstract then .error (.abstractMethod m.signature) else .ok m := by
  rw [selectFrom, inherited]

theorem exists_declares_of_selectFrom {allowPrivate : Bool}
    (selected : t.selectFrom root r allowPrivate = .ok m) :
    ∃ d, t.Inherits root d ∧ d.Declares r m := by
  cases inherited : t.inheritedFrom? root r allowPrivate with
  | some found =>
    rw [selectFrom_of_inheritedFrom? inherited] at selected
    split at selected
    · cases selected
    · cases selected
      obtain ⟨d, above, declares⟩ :=
        mem_declaredIn_iff.mp (List.mem_of_find?_eq_some inherited)
      exact ⟨d, .inl above, declares⟩
  | none =>
    rw [selectFrom, inherited] at selected
    dsimp only at selected
    split at selected
    · next single defaults =>
      cases selected
      have default := (List.mem_filter.mp (defaults ▸ List.mem_singleton_self m)).1
      obtain ⟨d, above, declares⟩ := exists_declares_of_mem_maximallySpecific default
      exact ⟨d, .inr above, declares⟩
    · cases selected
    · cases selected

end ClassTable
end DecisionPoints
