import DecisionPoints.Class.Subtyping
import DecisionPoints.Dispatch.Request

/-!
Finding declared methods: along the superclasses of a class, and among its superinterfaces, where a
method hides those of the interfaces above its own.
-/
namespace DecisionPoints
namespace ClassTable

def declaredIn (classes : List ClassDecl) (name descriptor : String) : List DeclaredMethod :=
  classes.filterMap fun d => (d.method? name descriptor).map (⟨d.name, ·⟩)

theorem mem_declaredIn_iff {classes : List ClassDecl} {name descriptor : String}
    {m : DeclaredMethod} : m ∈ declaredIn classes name descriptor ↔
      ∃ d ∈ classes, d.name = m.owner ∧ d.method? name descriptor = some m.method := by
  simp only [declaredIn, List.mem_filterMap, Option.map_eq_some_iff]
  constructor
  · rintro ⟨d, member, method, declared, rfl⟩
    exact ⟨d, member, rfl, declared⟩
  · rintro ⟨d, member, owner, declared⟩
    exact ⟨d, member, m.method, declared, by rw [owner]⟩

def interfaceMethods (t : ClassTable) (className : ClassName) (name descriptor : String) :
    List DeclaredMethod :=
  (declaredIn (t.superinterfaces className) name descriptor).filter fun m =>
    !m.flags.isPrivate && !m.flags.isStatic

theorem mem_interfaceMethods_iff {t : ClassTable} {className : ClassName}
    {name descriptor : String} {m : DeclaredMethod} :
    m ∈ t.interfaceMethods className name descriptor ↔
      m ∈ declaredIn (t.superinterfaces className) name descriptor ∧
        m.flags.isPrivate = false ∧ m.flags.isStatic = false := by
  simp [interfaceMethods]

/-- The inherited interface methods below which no other interface declares one. -/
def maximallySpecific (t : ClassTable) (className : ClassName) (name descriptor : String) :
    List DeclaredMethod :=
  let methods := t.interfaceMethods className name descriptor
  methods.filter fun m =>
    !methods.any fun other => other.owner ≠ m.owner && t.isSubtype other.owner m.owner

/-- The method that a request names: one of a class on the way to the root, or else of an interface,
a method with a body before an abstract one. -/
def resolveReference (t : ClassTable) (r : Request) : Except DispatchFailure DeclaredMethod :=
  let owner := if r.method.owner.isArray then .object else r.method.owner
  match t.find? owner with
  | none => .error (.noClassDefFound owner)
  | some d =>
    if r.isInterfaceMethod ≠ d.isInterface then .error (.incompatibleClassChange r.method)
    else
      match declaredIn (t.superclasses owner) r.method.name r.method.descriptor with
      | m :: _ => .ok m
      | [] =>
        let methods := t.maximallySpecific owner r.method.name r.method.descriptor
        match (methods.find? fun m => !m.flags.isAbstract).or methods.head? with
        | some m => .ok m
        | none => .error (.noSuchMethod r.method)

/-- The instance method found first on the way from `root` to the root of the hierarchy. Private
methods do not override, and are passed over unless they are allowed. -/
def inheritedFrom? (t : ClassTable) (root : ClassName) (r : Request) (allowPrivate : Bool) :
    Option DeclaredMethod :=
  (declaredIn (t.superclasses root) r.method.name r.method.descriptor).find? fun m =>
    !m.flags.isStatic && (allowPrivate || !m.flags.isPrivate)

def selectFrom (t : ClassTable) (root : ClassName) (r : Request) (allowPrivate : Bool) :
    Except DispatchFailure DeclaredMethod :=
  match t.inheritedFrom? root r allowPrivate with
  | some m => if m.flags.isAbstract then .error (.abstractMethod m.signature) else .ok m
  | none =>
    let defaults := (t.maximallySpecific root r.method.name r.method.descriptor).filter fun m =>
      !m.flags.isAbstract
    match defaults with
    | [m] => .ok m
    | [] => .error (.abstractMethod r.method)
    | _ => .error (.ambiguousDefault r.method (defaults.map (·.owner)))

end ClassTable
end DecisionPoints
